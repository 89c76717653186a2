import Mathlib.Tactic.FieldSimp
import Log73.Bands
import Log73.Db.Frequency
import Log73.Library.Checks
import Log73.QsoTime.Epoch

/-!
The limits of a band are exactly the hertz that their texts say, and the bands of a catalog that
is accepted have no frequency in common.
-/

namespace Log73

/-- A number of kilohertz with at most three decimal places. -/
inductive KhzText : String → ℚ → Prop
  | whole {digits : List Char} (hne : digits ≠ []) (h : ∀ d ∈ digits, isAsciiDigit d = true) :
      KhzText (String.ofList digits) (digitsValue digits)
  | point {digits fraction : List Char} (hne : digits ≠ []) (hfraction : fraction ≠ [])
      (hlength : fraction.length ≤ 3) (h : ∀ d ∈ digits ++ fraction, isAsciiDigit d = true) :
      KhzText (String.ofList (digits ++ '.' :: fraction))
        (digitsValue digits + digitsValue fraction / 10 ^ fraction.length)

theorem toList_of_splitOnce {sep : Char} {s front back : String}
    (h : splitOnce sep s = some (front, back)) : s.toList = front.toList ++ sep :: back.toList := by
  rw [splitOnce] at h
  split at h
  · next hmem =>
      obtain ⟨rfl, rfl⟩ := Prod.mk.inj (Option.some.inj h)
      rw [String.toList_ofList, String.toList_ofList]
      have hsplit :=
        List.takeWhile_append_dropWhile (p := fun c => decide (c ≠ sep)) (l := s.toList)
      cases hrest : s.toList.dropWhile fun c => decide (c ≠ sep) with
      | nil =>
          have hall := List.dropWhile_eq_nil_iff.mp hrest sep (by simpa using hmem)
          simp at hall
      | cons c rest =>
          have hhead := List.head?_dropWhile_not (fun c => decide (c ≠ sep)) s.toList
          rw [hrest] at hhead hsplit
          have hc : c = sep := by simpa using hhead
          rw [hc] at hsplit
          exact hsplit.symm
  · cases h

section Parse

variable (debug : String → String) {value : String} {hz : Int}

/-- The arithmetic behind the checks of the spelling. -/
theorem parseKhzAsHz_of_parts {whole fraction : List Char} (hvalue : value ≠ "")
    (hpoint : ¬(splitOnce '.' value).any (·.2 = "") = true)
    (hparts : (splitOnce '.' value).getD (value, "") =
      (String.ofList whole, String.ofList fraction))
    (hne : whole ≠ []) (hwhole : ∀ d ∈ whole, isAsciiDigit d = true)
    (hfraction : ∀ d ∈ fraction, isAsciiDigit d = true) (hlength : fraction.length ≤ 3) :
    parseKhzAsHz debug value = .ok hz ↔
      hz = ((digitsValue whole * 1000 + digitsValue fraction * 10 ^ (3 - fraction.length) : Nat) :
        Int) ∧ 0 < hz ∧ hz ≤ i64Max := by
  have hspelled : ¬(String.ofList whole = "" || !(String.ofList whole).toList.all isAsciiDigit ||
      !(String.ofList fraction).toList.all isAsciiDigit ||
      decide (3 < (String.ofList fraction).toList.length)) = true := by
    simp only [String.toList_ofList, Bool.or_eq_true, not_or, decide_eq_true_eq,
      Bool.not_eq_true', List.all_eq_false, not_exists, not_and, not_not]
    refine ⟨⟨⟨?_, hwhole⟩, hfraction⟩, not_lt.mpr hlength⟩
    rwa [← String.toList_eq_nil_iff, String.toList_ofList]
  have hsmall : digitsValue fraction < 1000 :=
    (digitsValue_lt hfraction).trans_le (Nat.pow_le_pow_right (by decide) hlength)
  have hscaled : digitsValue fraction * 10 ^ (3 - fraction.length) < 1000 := by
    have hlt := digitsValue_lt hfraction
    calc digitsValue fraction * 10 ^ (3 - fraction.length)
        < 10 ^ fraction.length * 10 ^ (3 - fraction.length) :=
          Nat.mul_lt_mul_of_pos_right hlt (by positivity)
      _ = 1000 := by rw [← Nat.pow_add, Nat.add_sub_cancel' hlength]
  have hread : fractionAsHz debug value (String.ofList fraction) =
      .ok ((digitsValue fraction * 10 ^ (3 - fraction.length) : Nat) : Int) := by
    rw [fractionAsHz]
    by_cases hempty : fraction = []
    · rw [hempty, if_pos (by rfl)]
      rfl
    · rw [if_neg (by rwa [← String.toList_eq_nil_iff, String.toList_ofList]),
        parseI64_digits hempty hfraction, if_pos (by rw [i64Max]; omega), String.toList_ofList]
      push_cast
      rfl
  rw [parseKhzAsHz, if_neg hvalue]
  dsimp only
  rw [if_neg hpoint, hparts]
  dsimp only
  rw [if_neg hspelled, parseI64_digits hne hwhole, hread]
  generalize digitsValue fraction * 10 ^ (3 - fraction.length) = fractionHz at hscaled ⊢
  push_cast
  have hmin : i64Min ≤ 0 := by decide
  by_cases hmax : (digitsValue whole : Int) ≤ i64Max
  · rw [if_pos hmax, Option.elim_some]
    dsimp only [bind, Except.bind]
    by_cases hwholeMax : (digitsValue whole : Int) * 1000 ≤ i64Max
    · rw [checkedI64, if_pos ⟨by omega, hwholeMax⟩, Option.bind_some]
      by_cases hboth : (digitsValue whole : Int) * 1000 + fractionHz ≤ i64Max
      · rw [checkedI64, if_pos ⟨by omega, hboth⟩, Option.elim_some]
        dsimp only
        split
        · exact iff_of_false (fun h => by cases h) (by omega)
        · rw [Except.ok.injEq]
          exact ⟨fun h => by omega, fun h => h.1.symm⟩
      · rw [checkedI64, if_neg (by omega)]
        exact iff_of_false (fun h => by cases h) (by omega)
    · rw [checkedI64, if_neg (by omega)]
      exact iff_of_false (fun h => by cases h) (by omega)
  · rw [if_neg hmax]
    exact iff_of_false (fun h => by cases h) (by omega)

/-- The spelling that the checks ask for. -/
theorem exists_khzParts (h : parseKhzAsHz debug value = .ok hz) :
    ∃ whole fraction, (splitOnce '.' value).getD (value, "") =
        (String.ofList whole, String.ofList fraction) ∧ value ≠ "" ∧
      ¬(splitOnce '.' value).any (·.2 = "") = true ∧ whole ≠ [] ∧
      (∀ d ∈ whole, isAsciiDigit d = true) ∧ (∀ d ∈ fraction, isAsciiDigit d = true) ∧
      fraction.length ≤ 3 := by
  rw [parseKhzAsHz] at h
  split at h
  · cases h
  · next hvalue =>
      dsimp only at h
      split at h
      · cases h
      · next hpoint =>
          split at h
          · cases h
          · next hspelled =>
              simp only [Bool.or_eq_true, not_or, decide_eq_true_eq, Bool.not_eq_true',
                List.all_eq_false, not_exists, not_and, not_not, not_lt] at hspelled
              obtain ⟨⟨⟨hne, hwhole⟩, hfraction⟩, hlength⟩ := hspelled
              refine ⟨_, _, Prod.ext (String.ofList_toList).symm (String.ofList_toList).symm,
                hvalue, hpoint, ?_, hwhole, hfraction, hlength⟩
              rwa [Ne, String.toList_eq_nil_iff]

theorem khz_mul_thousand {whole fraction : List Char} (hlength : fraction.length ≤ 3) :
    ((digitsValue whole * 1000 + digitsValue fraction * 10 ^ (3 - fraction.length) : Nat) : ℚ) =
      ((digitsValue whole : ℚ) + digitsValue fraction / 10 ^ fraction.length) * 1000 := by
  have hpow : (10 : ℚ) ^ fraction.length * 10 ^ (3 - fraction.length) = 1000 := by
    rw [← pow_add, Nat.add_sub_cancel' hlength]
    norm_num
  push_cast
  rw [add_mul, ← hpow]
  field_simp

theorem parseKhzAsHz_eq_ok : parseKhzAsHz debug value = .ok hz ↔
    ∃ khz, KhzText value khz ∧ (hz : ℚ) = khz * 1000 ∧ 0 < hz ∧ hz ≤ i64Max := by
  constructor
  · intro h
    obtain ⟨whole, fraction, hparts, hvalue, hpoint, hne, hwhole, hfraction, hlength⟩ :=
      exists_khzParts debug h
    obtain ⟨hhz, hrange⟩ := (parseKhzAsHz_of_parts debug hvalue hpoint hparts hne hwhole hfraction
      hlength).mp h
    have htext : ∃ khz, KhzText value khz ∧
        khz = digitsValue whole + digitsValue fraction / 10 ^ fraction.length := by
      cases hsplit : splitOnce '.' value with
      | none =>
          rw [hsplit] at hparts
          obtain ⟨heq, hnone⟩ := Prod.mk.inj hparts
          have hempty : fraction = [] := by
            rw [← String.toList_ofList (l := fraction), ← hnone]
            rfl
          refine ⟨digitsValue whole, ?_, ?_⟩
          · rw [heq]
            exact .whole hne hwhole
          · rw [hempty]
            simp [digitsValue]
      | some parts =>
          rw [hsplit, Option.getD_some] at hparts
          rw [hsplit, Option.any_some, decide_eq_true_eq, hparts] at hpoint
          rw [hparts] at hsplit
          have hlist := toList_of_splitOnce hsplit
          rw [String.toList_ofList, String.toList_ofList] at hlist
          refine ⟨_, ?_, rfl⟩
          rw [← String.ofList_toList (s := value), hlist]
          refine .point hne (fun hnil => hpoint (by rw [hnil])) hlength fun d hd => ?_
          exact (List.mem_append.mp hd).elim (hwhole d) (hfraction d)
    obtain ⟨khz, htext, hkhz⟩ := htext
    refine ⟨khz, htext, ?_, hrange⟩
    rw [hkhz, ← khz_mul_thousand hlength, hhz, Int.cast_natCast]
  · intro h
    obtain ⟨khz, htext, hhz, hrange⟩ := h
    cases htext with
    | @whole digits hne hdigits =>
        have hnone : splitOnce '.' (String.ofList digits) = none :=
          splitOnce_eq_none fun hmem => absurd (hdigits '.' hmem) (by decide)
        have hvalue : String.ofList digits ≠ "" := by
          rwa [Ne, ← String.toList_eq_nil_iff, String.toList_ofList]
        refine (parseKhzAsHz_of_parts debug hvalue (by rw [hnone]; decide) (by rw [hnone]; rfl) hne
          hdigits (fun d hd => absurd hd List.not_mem_nil) (Nat.zero_le 3)).mpr ⟨?_, hrange⟩
        have hzero : digitsValue [] = 0 := rfl
        rw [hzero, Nat.zero_mul, Nat.add_zero]
        exact_mod_cast hhz
    | @point digits fraction hne hfraction hlength hdigits =>
        have hsome : splitOnce '.' (String.ofList (digits ++ '.' :: fraction)) =
            some (String.ofList digits, String.ofList fraction) :=
          splitOnce_append (fun hmem =>
            absurd (hdigits '.' (List.mem_append_left _ hmem)) (by decide)) fraction
        have hvalue : String.ofList (digits ++ '.' :: fraction) ≠ "" := by
          rw [Ne, ← String.toList_eq_nil_iff, String.toList_ofList]
          simp
        have hpoint : ¬(splitOnce '.' (String.ofList (digits ++ '.' :: fraction))).any
            (·.2 = "") = true := by
          rw [hsome, Option.any_some, decide_eq_true_eq, ← String.toList_eq_nil_iff,
            String.toList_ofList]
          exact hfraction
        refine (parseKhzAsHz_of_parts debug hvalue hpoint (by rw [hsome]; rfl) hne
          (fun d hd => hdigits d (List.mem_append_left _ hd))
          (fun d hd => hdigits d (List.mem_append_right _ hd)) hlength).mpr ⟨?_, hrange⟩
        rw [← khz_mul_thousand hlength] at hhz
        exact_mod_cast hhz

end Parse

section Catalog

variable {debug : String → String} {path : String} {iaruRegion : Int64}

theorem lt_of_bandOfRow {index : Nat} {names : List String} {row : Except String BandCsvRow}
    {band : Band} (h : bandOfRow debug path iaruRegion index names row = .ok band) :
    band.lowerHz < band.upperHz := by
  rw [bandOfRow] at h
  obtain ⟨row, -, h⟩ := Checks.bind_eq_ok.mp h
  dsimp only at h
  split at h
  · cases h
  · split at h
    · cases h
    · obtain ⟨lowerHz, -, h⟩ := Checks.bind_eq_ok.mp h
      obtain ⟨upperHz, -, h⟩ := Checks.bind_eq_ok.mp h
      split at h
      · cases h
      · next hlt =>
          split at h
          · cases h
          · obtain ⟨sortOrder, -, h⟩ := Checks.bind_eq_ok.mp h
            rw [← Except.ok.inj h]
            exact not_le.mp hlt

theorem lt_of_bandsOfRows {index : Nat} {names : List String}
    {rows : List (Except String BandCsvRow)} {bands : List Band}
    (h : bandsOfRows debug path iaruRegion index names rows = .ok bands) :
    ∀ band ∈ bands, band.lowerHz < band.upperHz := by
  induction rows generalizing index names bands with
  | nil =>
      obtain rfl := Except.ok.inj h
      exact fun band hband => absurd hband List.not_mem_nil
  | cons row rows ih =>
      obtain ⟨head, hhead, h⟩ := Checks.bind_eq_ok.mp h
      obtain ⟨rest, hrest, h⟩ := Checks.bind_eq_ok.mp h
      rw [← Except.ok.inj h, List.forall_mem_cons]
      exact ⟨lt_of_bandOfRow hhead, ih hrest⟩

/-- Neighbours that do not overlap leave a gap between any two bands. -/
theorem pairwise_of_checkNeighbours {bands : List Band}
    (hproper : ∀ band ∈ bands, band.lowerHz < band.upperHz)
    (h : checkNeighbours path bands = .ok ()) :
    bands.Pairwise fun a b => a.upperHz < b.lowerHz := by
  fun_induction checkNeighbours path bands with
  | case1 previous current bands hle => cases h
  | case2 previous current bands hgap ih =>
      rw [List.forall_mem_cons] at hproper
      have hrest := ih hproper.2 h
      refine List.pairwise_cons.mpr ⟨fun band hband => ?_, hrest⟩
      have hnext : previous.upperHz < current.lowerHz := not_le.mp hgap
      cases List.mem_cons.mp hband with
      | inl heq => exact heq ▸ hnext
      | inr hband =>
          have hcurrent := hproper.2 current List.mem_cons_self
          exact hnext.trans (hcurrent.trans ((List.pairwise_cons.mp hrest).1 band hband))
  | case3 bands hshort =>
      cases bands with
      | nil => exact .nil
      | cons previous bands =>
          cases bands with
          | nil => exact List.pairwise_singleton _ _
          | cons current bands => exact absurd rfl (hshort previous current bands)

/-- The bands that a frequency belongs to. -/
def bandsOf (bands : List Band) (frequencyHz : Int) : List Band :=
  bands.filter fun band => band.lowerHz ≤ frequencyHz ∧ frequencyHz ≤ band.upperHz

theorem mem_bandsOf {bands : List Band} {frequencyHz : Int} {band : Band} :
    band ∈ bandsOf bands frequencyHz ↔
      band ∈ bands ∧ band.lowerHz ≤ frequencyHz ∧ frequencyHz ≤ band.upperHz := by
  rw [bandsOf, List.mem_filter, decide_eq_true_eq]

theorem length_bandsOf_le {bands : List Band}
    (hproper : ∀ band ∈ bands, band.lowerHz < band.upperHz)
    (h : validateNonOverlapping path bands = .ok ()) (frequencyHz : Int) :
    (bandsOf bands frequencyHz).length ≤ 1 := by
  have hperm := List.mergeSort_perm bands fun a b => decide (a.lowerHz ≤ b.lowerHz)
  have hpairwise := pairwise_of_checkNeighbours
    (fun band hband => hproper band (hperm.mem_iff.mp hband)) h
  have hlength := (hperm.filter
    fun band => decide (band.lowerHz ≤ frequencyHz ∧ frequencyHz ≤ band.upperHz)).length_eq
  rw [bandsOf, ← hlength]
  generalize hfiltered : List.filter _ _ = filtered
  have hcovers : ∀ band ∈ filtered, band.lowerHz ≤ frequencyHz ∧ frequencyHz ≤ band.upperHz := by
    intro band hband
    rw [← hfiltered] at hband
    exact of_decide_eq_true (List.mem_filter.mp hband).2
  have hgaps : filtered.Pairwise fun a b => a.upperHz < b.lowerHz :=
    hfiltered ▸ hpairwise.filter _
  cases filtered with
  | nil => exact Nat.zero_le 1
  | cons first filtered =>
      cases filtered with
      | nil => exact Nat.le_refl 1
      | cons second filtered =>
          have hgap := (List.pairwise_cons.mp hgaps).1 second List.mem_cons_self
          have hfirst := (hcovers first List.mem_cons_self).2
          have hsecond := (hcovers second (List.mem_cons_of_mem _ List.mem_cons_self)).1
          exact absurd hgap (not_lt.mpr (hsecond.trans hfirst))

theorem length_bandsOf_loadBandFile {file : Except String BandCsv} {bands : List Band}
    (h : loadBandFile debug path iaruRegion file = .ok bands) (frequencyHz : Int) :
    (bandsOf bands frequencyHz).length ≤ 1 := by
  rw [loadBandFile] at h
  obtain ⟨file, -, h⟩ := Checks.bind_eq_ok.mp h
  split at h
  · cases h
  · obtain ⟨loaded, hloaded, h⟩ := Checks.bind_eq_ok.mp h
    split at h
    · cases h
    · obtain ⟨⟨⟩, hdisjoint, h⟩ := Checks.bind_eq_ok.mp h
      rw [← Except.ok.inj h]
      exact length_bandsOf_le (lt_of_bandsOfRows hloaded) hdisjoint frequencyHz

/-- The band that is found is the one that the frequency belongs to. -/
theorem bandForFrequency_eq_some {file : Except String BandCsv} {bands : List Band}
    (h : loadBandFile debug path iaruRegion file = .ok bands) {frequencyHz : Nat}
    (hrange : (frequencyHz : Int) ≤ i64Max) {band : Band} :
    bandForFrequency bands frequencyHz = some band ↔
      band ∈ bands ∧ band.lowerHz ≤ frequencyHz ∧ (frequencyHz : Int) ≤ band.upperHz := by
  have hfilter : bands.filter (fun band =>
      decide (band.lowerHz ≤ (frequencyHz : Int)) && decide ((frequencyHz : Int) ≤ band.upperHz)) =
      bandsOf bands frequencyHz :=
    List.filter_congr fun band _ => (Bool.decide_and _ _).symm
  rw [bandForFrequency, if_pos hrange, ← List.head?_filter, hfilter, ← mem_bandsOf]
  have hone := length_bandsOf_loadBandFile h frequencyHz
  cases hbands : bandsOf bands frequencyHz with
  | nil => exact iff_of_false (fun h => by cases h) List.not_mem_nil
  | cons found others =>
      rw [hbands, List.length_cons, Nat.succ_le_succ_iff, Nat.le_zero,
        List.length_eq_zero_iff] at hone
      rw [hone, List.head?_cons, List.mem_singleton, Option.some.injEq]
      exact eq_comm

end Catalog

/-- The kilohertz texts that are read are those of the grammar that say a whole positive number of
hertz within 64 bits, and an accepted catalog has at most one band for each frequency. -/
theorem bands_exact (debug : String → String) :
    (∀ value hz, parseKhzAsHz debug value = .ok hz ↔
      ∃ khz, KhzText value khz ∧ (hz : ℚ) = khz * 1000 ∧ 0 < hz ∧ hz ≤ i64Max) ∧
    (∀ path iaruRegion file bands, loadBandFile debug path iaruRegion file = .ok bands →
      ∀ frequencyHz, (bandsOf bands frequencyHz).length ≤ 1) :=
  ⟨fun _ _ => parseKhzAsHz_eq_ok debug, fun _ _ _ _ h => length_bandsOf_loadBandFile h⟩

end Log73
