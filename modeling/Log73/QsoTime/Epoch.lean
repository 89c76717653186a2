import Log73.Library.Gregorian
import Log73.Library.Utf8
import Log73.QsoTime

/-!
Dates and days of `qso_time.rs` are one another's inverse, and so are the times of contacts and
their texts in an export file.
-/

namespace Log73

open Gregorian

/-- A quotient rounded down, by the division that rounds towards zero. -/
theorem tdiv_of_floor {n : Int} (hn : 0 < n) (z : Int) :
    (if 0 ≤ z then z else z - (n - 1)).tdiv n = z / n := by
  by_cases hz : 0 ≤ z
  · rw [if_pos hz, Int.tdiv_eq_ediv_of_nonneg hz]
  · have hrest := Int.emod_nonneg z hn.ne'
    have hrest' := Int.emod_lt_of_pos z hn
    have hdiv := Int.mul_ediv_add_emod z n
    have hquotient : (n - 1 - z) / n = -(z / n) :=
      ((Int.ediv_emod_unique (r := n - 1 - z % n) hn).mpr
        ⟨by rw [Int.mul_neg]; omega, by omega, by omega⟩).1
    rw [if_neg hz, show z - (n - 1) = -(n - 1 - z) by omega, Int.neg_tdiv,
      Int.tdiv_eq_ediv_of_nonneg (by omega), hquotient, Int.neg_neg]

/-- The number of the day in the calendar that begins in March, with the epoch as day 0. -/
def marchDay (era yoe mp day : Int) : Int :=
  era * 146097 + yearStart yoe + monthStart mp + day - 1 - 719468

def civilMonth (mp : Int) : Int := mp + if mp < 10 then 3 else -9

def civilYear (era yoe mp : Int) : Int := yoe + era * 400 + if civilMonth mp ≤ 2 then 1 else 0

theorem dayOfEra_range {yoe mp day : Int} (hyoe : 0 ≤ yoe ∧ yoe ≤ 399)
    (h : InMarchYear yoe mp day) :
    yearStart yoe ≤ yearStart yoe + monthStart mp + day - 1 ∧
      yearStart yoe + monthStart mp + day - 1 < yearStart (yoe + 1) ∧
        0 ≤ yearStart yoe ∧ yearStart (yoe + 1) ≤ 146097 := by
  obtain ⟨⟨hlow, hhigh⟩, hday, hend⟩ := h
  have hlength := yearStart_succ yoe
  have hfirst : yearStart 0 ≤ yearStart yoe := yearStart_mono hyoe.1
  have hlast : yearStart (yoe + 1) ≤ yearStart 400 := yearStart_mono (by omega)
  refine ⟨?_, ?_, hfirst, hlast⟩
  · unfold monthStart
    omega
  · unfold monthStart at *
    split_ifs at hend hlength <;> omega

theorem civilFromDays_marchDay {era yoe mp day : Int} (hyoe : 0 ≤ yoe ∧ yoe ≤ 399)
    (h : InMarchYear yoe mp day) :
    civilFromDays (marchDay era yoe mp day) =
      (wrapI32 (civilYear era yoe mp), civilMonth mp, day) := by
  obtain ⟨hfirst, hlast, hstart, hend⟩ := dayOfEra_range hyoe h
  have hyear := estimate_div hyoe ⟨hfirst, hlast⟩
  have hmonth := month_of_day h
  have hera : (marchDay era yoe mp day + 719468) / 146097 = era := by
    unfold marchDay
    omega
  have hdoe : marchDay era yoe mp day + 719468 - era * 146097 =
      yearStart yoe + monthStart mp + day - 1 := by
    unfold marchDay
    omega
  have hfloor := tdiv_of_floor (n := 146097) (by decide) (marchDay era yoe mp day + 719468)
  rw [hera] at hfloor
  rw [civilFromDays]
  simp only [show (146097 : Int) - 1 = 146096 from rfl] at hfloor
  rw [hfloor, hdoe]
  generalize hdays : yearStart yoe + monthStart mp + day - 1 = doe at *
  have hdoe0 : 0 ≤ doe := by omega
  rw [Int.tdiv_eq_ediv_of_nonneg (a := doe) hdoe0, Int.tdiv_eq_ediv_of_nonneg (a := doe) hdoe0,
    Int.tdiv_eq_ediv_of_nonneg (a := doe) hdoe0]
  have hestimate : doe - doe / 1460 + doe / 36524 - doe / 146096 = estimate doe := rfl
  have hestimate0 : 0 ≤ estimate doe := by omega
  rw [hestimate, Int.tdiv_eq_ediv_of_nonneg hestimate0, hyear,
    Int.tdiv_eq_ediv_of_nonneg hyoe.1, Int.tdiv_eq_ediv_of_nonneg hyoe.1]
  have hdoy : doe - (365 * yoe + yoe / 4 - yoe / 100) = monthStart mp + day - 1 := by
    unfold yearStart at hdays
    omega
  have hdoy0 : 0 ≤ 5 * (monthStart mp + day - 1) + 2 := by
    have := h.monthOfYear.1
    have := h.dayOfMonth.1
    unfold monthStart
    omega
  have hmp0 : 0 ≤ 153 * mp + 2 := by
    have := h.monthOfYear.1
    omega
  rw [hdoy, Int.tdiv_eq_ediv_of_nonneg hdoy0, hmonth, Int.tdiv_eq_ediv_of_nonneg hmp0]
  have hday : monthStart mp + day - 1 - (153 * mp + 2) / 5 + 1 = day := by
    unfold monthStart
    omega
  rw [hday]
  rfl

/-- Every day is a day of some year. -/
theorem exists_marchDay (days : Int) :
    ∃ era yoe mp day, (0 ≤ yoe ∧ yoe ≤ 399) ∧ InMarchYear yoe mp day ∧
      days = marchDay era yoe mp day := by
  obtain ⟨yoe, hyoe, hfirst, hlast⟩ := exists_year
    (Int.emod_nonneg (days + 719468) (by decide : (146097 : Int) ≠ 0)) 400
    (Int.emod_lt_of_pos (days + 719468) (by decide : (0 : Int) < 146097))
  refine ⟨(days + 719468) / 146097, yoe, _, _, by omega,
    exists_month (⟨by omega, by omega⟩ : 0 ≤ (days + 719468) % 146097 - yearStart yoe ∧ _), ?_⟩
  unfold marchDay
  omega

theorem wrapI32_eq {value : Int} (h : -2147483648 ≤ value ∧ value ≤ 2147483647) :
    wrapI32 value = value :=
  Int32.toInt_ofInt_of_le h.1 (Int.lt_add_one_of_le h.2)

theorem inMarchYear_cycle (era yoe mp day : Int) :
    InMarchYear (yoe + era * 400) mp day ↔ InMarchYear yoe mp day := by
  have hsame : yearStart (yoe + era * 400 + 1) - yearStart (yoe + era * 400) =
      yearStart (yoe + 1) - yearStart yoe := by
    have hnext : yoe + era * 400 + 1 = yoe + 1 + era * 400 := by omega
    rw [hnext, yearStart_add_cycles, yearStart_add_cycles]
    omega
  constructor
  · rintro ⟨hmonth, hday⟩
    exact ⟨hmonth, by rwa [hsame] at hday⟩
  · rintro ⟨hmonth, hday⟩
    exact ⟨hmonth, by rwa [hsame]⟩

theorem valid_civil (era : Int) {yoe mp day : Int} (h : InMarchYear yoe mp day) :
    Valid (civilYear era yoe mp) (civilMonth mp) day := by
  have hmp := h.monthOfYear
  have hmonth : 1 ≤ civilMonth mp ∧ civilMonth mp ≤ 12 := by
    unfold civilMonth
    split_ifs <;> omega
  have hyear : civilYear era yoe mp - (if civilMonth mp ≤ 2 then 1 else 0) = yoe + era * 400 := by
    unfold civilYear
    omega
  have hback : civilMonth mp + (if 2 < civilMonth mp then -3 else 9) = mp := by
    unfold civilMonth
    split_ifs <;> omega
  rw [← inMarchYear_iff hmonth, hyear, hback, inMarchYear_cycle]
  exact h

/-- The number of the day of a date. -/
def civilDay (year month day : Int) : Int :=
  let y := year - if month ≤ 2 then 1 else 0
  marchDay (y / 400) (y % 400) (month + if 2 < month then -3 else 9) day

theorem civilFromDays_civilDay {year month day : Int}
    (hyear : -2147483648 ≤ year ∧ year ≤ 2147483647) (h : Valid year month day) :
    civilFromDays (civilDay year month day) = (year, month, day) := by
  have hmarch := (inMarchYear_iff h.monthOfYear).mpr h
  rw [← Int.emod_add_ediv_mul (year - _) 400, inMarchYear_cycle] at hmarch
  have hmonth := h.monthOfYear
  have hback : civilMonth (month + if 2 < month then -3 else 9) = month := by
    unfold civilMonth
    split_ifs <;> omega
  have hyear' (y : Int) : civilYear (y / 400) (y % 400) (month + if 2 < month then -3 else 9) =
      y + if month ≤ 2 then 1 else 0 := by
    rw [civilYear, hback]
    omega
  rw [civilDay, civilFromDays_marchDay (by omega) hmarch, hback, hyear', Int.sub_add_cancel,
    wrapI32_eq hyear]

theorem daysFromCivil_eq {year month day : Int} (hmonth : 1 ≤ month ∧ month ≤ 12)
    (hday : 1 ≤ day ∧ day ≤ 31) :
    daysFromCivil year month day =
      if civilFromDays (civilDay year month day) = (year, month, day) then
        some (civilDay year month day)
      else none := by
  have hmp : 0 ≤ 153 * (month + if 2 < month then -3 else 9) + 2 := by
    split_ifs <;> omega
  generalize hy : (year - if month ≤ 2 then 1 else 0) = y
  have hera := tdiv_of_floor (n := 400) (by decide) y
  have hyoe : y - y / 400 * 400 = y % 400 := by omega
  have hrange : 0 ≤ y % 400 ∧ y % 400 ≤ 399 := by omega
  have hdays : y / 400 * 146097 + (y % 400 * 365 + y % 400 / 4 - y % 400 / 100 +
      ((153 * (month + if 2 < month then -3 else 9) + 2) / 5 + day - 1)) - 719468 =
      civilDay year month day := by
    rw [civilDay, hy]
    unfold marchDay monthStart yearStart
    omega
  rw [daysFromCivil, if_neg (by omega), hy]
  dsimp only
  rw [show (400 : Int) - 1 = 399 from rfl] at hera
  rw [hera, hyoe, Int.tdiv_eq_ediv_of_nonneg hrange.1, Int.tdiv_eq_ediv_of_nonneg hrange.1,
    Int.tdiv_eq_ediv_of_nonneg hmp, hdays]

theorem civilDay_range {year month day : Int} (hyear : 0 ≤ year ∧ year ≤ 9999)
    (hmonth : 1 ≤ month ∧ month ≤ 12) (hday : 1 ≤ day ∧ day ≤ 31) :
    -720000 ≤ civilDay year month day ∧ civilDay year month day ≤ 2940000 := by
  unfold civilDay marchDay yearStart monthStart
  dsimp only
  split_ifs <;> omega

/-- A date has a number exactly when there is such a day. -/
theorem daysFromCivil_eq_some {year month day days : Int} (hyear : 0 ≤ year ∧ year ≤ 9999) :
    daysFromCivil year month day = some days ↔
      Valid year month day ∧ days = civilDay year month day := by
  constructor
  · intro h
    have hrange : (1 ≤ month ∧ month ≤ 12) ∧ 1 ≤ day ∧ day ≤ 31 := by
      rw [daysFromCivil] at h
      split at h
      · cases h
      · omega
    rw [daysFromCivil_eq hrange.1 hrange.2] at h
    split at h
    · next hback =>
        cases h
        refine ⟨?_, rfl⟩
        -- The day is found to be one of the calendar, and what it is there is the date.
        obtain ⟨era, yoe, mp, day', hyoe, hmarch, hdays⟩ :=
          exists_marchDay (civilDay year month day)
        have hwide : -2147483648 ≤ civilYear era yoe mp ∧ civilYear era yoe mp ≤ 2147483647 := by
          have hbound := civilDay_range hyear hrange.1 hrange.2
          obtain ⟨hfirst, hlast, hstart, hend⟩ := dayOfEra_range hyoe hmarch
          rw [hdays, marchDay] at hbound
          unfold civilYear
          split_ifs <;> omega
        rw [hdays, civilFromDays_marchDay hyoe hmarch, wrapI32_eq hwide] at hback
        cases hback
        exact valid_civil era hmarch
    · cases h
  · rintro ⟨hvalid, rfl⟩
    rw [daysFromCivil_eq hvalid.monthOfYear ⟨hvalid.dayOfMonth.1, hvalid.day_le⟩,
      if_pos (civilFromDays_civilDay (by omega) hvalid)]

section Digits

theorem digitsValue_concat (cs : List Char) (c : Char) :
    digitsValue (cs ++ [c]) = 10 * digitsValue cs + (c.toNat - 48) := by
  rw [digitsValue, List.foldl_append]
  rfl

theorem digitsValue_zeros (count : Nat) (cs : List Char) :
    digitsValue (List.replicate count '0' ++ cs) = digitsValue cs := by
  induction count with
  | zero => rfl
  | succ count ih => exact ih

theorem digitsValue_lt {cs : List Char} (h : ∀ c ∈ cs, isAsciiDigit c = true) :
    digitsValue cs < 10 ^ cs.length := by
  induction cs using List.reverseRecOn with
  | nil => decide
  | append_singleton cs c ih =>
      have hc := (isAsciiDigit_iff c).mp (h c (by simp))
      have hcs := ih fun d hd => h d (List.mem_append_left _ hd)
      rw [digitsValue_concat, List.length_append, List.length_singleton, Nat.pow_succ]
      omega

/-- Digits are told by their number once their count is known. -/
theorem digitsValue_inj {cs ds : List Char} (hcs : ∀ c ∈ cs, isAsciiDigit c = true)
    (hds : ∀ d ∈ ds, isAsciiDigit d = true) (hlength : cs.length = ds.length)
    (h : digitsValue cs = digitsValue ds) : cs = ds := by
  induction cs using List.reverseRecOn generalizing ds with
  | nil => exact (List.length_eq_zero_iff.mp hlength.symm).symm
  | append_singleton cs c ih =>
      cases ds using List.reverseRecOn with
      | nil => simp at hlength
      | append_singleton ds d =>
          have hc := (isAsciiDigit_iff c).mp (hcs c (by simp))
          have hd := (isAsciiDigit_iff d).mp (hds d (by simp))
          rw [digitsValue_concat, digitsValue_concat] at h
          have hlast : c = d := Char.toNat_inj.mp (by omega)
          rw [ih (fun c hc => hcs c (List.mem_append_left _ hc))
            (fun d hd => hds d (List.mem_append_left _ hd)) (by simpa using hlength) (by omega),
            hlast]

theorem zeroPadded_toList (width n : Nat) :
    (zeroPadded width n).toList =
      List.replicate (width - (Nat.toDigits 10 n).length) '0' ++ Nat.toDigits 10 n := by
  rw [zeroPadded, if_neg (by omega)]
  dsimp only
  rw [String.toList_append, String.toList_ofList, Int.natAbs_natCast, Nat.toList_repr,
    ← String.length_toList, Nat.toList_repr]

theorem isAsciiDigit_zeroPadded {width n : Nat} {c : Char} (h : c ∈ (zeroPadded width n).toList) :
    isAsciiDigit c = true := by
  rw [zeroPadded_toList, List.mem_append] at h
  cases h with
  | inl hzero =>
      rw [List.eq_of_mem_replicate hzero]
      rfl
  | inr hdigit => exact isAsciiDigit_of_mem_toDigits hdigit

theorem digitsValue_zeroPadded (width n : Nat) : digitsValue (zeroPadded width n).toList = n := by
  rw [zeroPadded_toList, digitsValue_zeros]
  exact Nat.ofDigitChars_ten_toDigits

theorem length_zeroPadded {width n : Nat} (hwidth : 0 < width) (h : n < 10 ^ width) :
    (zeroPadded width n).toList.length = width := by
  have hlength := (Nat.length_toDigits_le_iff (by decide : 1 < 10) hwidth).mpr h
  rw [zeroPadded_toList, List.length_append, List.length_replicate]
  omega

/-- A run of digits is its number, filled up to its length. -/
theorem ofList_digits {cs : List Char} (h : ∀ c ∈ cs, isAsciiDigit c = true) (hcs : cs ≠ []) :
    String.ofList cs = zeroPadded cs.length (digitsValue cs) := by
  have hpos := List.length_pos_iff.mpr hcs
  have hsame := digitsValue_inj h (fun _ => isAsciiDigit_zeroPadded)
    (length_zeroPadded hpos (digitsValue_lt h)).symm (digitsValue_zeroPadded _ _).symm
  rw [hsame, String.ofList_toList, ← hsame]

theorem parseDigits_zeroPadded (width n : Nat) :
    parseDigits (zeroPadded width n).toList = some n := by
  rw [parseDigits, if_neg, digitsValue_zeroPadded]
  simp only [Bool.or_eq_true, Bool.not_eq_true', List.isEmpty_iff, List.all_eq_false, not_or,
    not_exists, not_and, not_not]
  refine ⟨?_, fun c => isAsciiDigit_zeroPadded⟩
  rw [zeroPadded_toList, List.append_eq_nil_iff]
  exact fun h => Nat.toDigits_ne_nil h.2

theorem parseSigned_zeroPadded {low high : Int} {width n : Nat} (hlow : low ≤ n)
    (hhigh : (n : Int) ≤ high) : parseSigned low high (zeroPadded width n) = some (n : Int) := by
  have hdigits := parseDigits_zeroPadded width n
  rw [parseSigned]
  split
  · next cs hsign =>
      have hmem := hsign ▸ List.mem_cons_self
      exact absurd (isAsciiDigit_zeroPadded hmem) (by decide)
  · next cs hsign =>
      have hmem := hsign ▸ List.mem_cons_self
      exact absurd (isAsciiDigit_zeroPadded hmem) (by decide)
  · rw [hdigits, Option.map_some]
    simp [hlow, hhigh]

theorem parseUnsigned_zeroPadded {high width n : Nat} (hhigh : n ≤ high) :
    parseUnsigned high (zeroPadded width n) = some n := by
  have hdigits := parseDigits_zeroPadded width n
  rw [parseUnsigned]
  split
  · next cs hsign =>
      have hmem := hsign ▸ List.mem_cons_self
      exact absurd (isAsciiDigit_zeroPadded hmem) (by decide)
  · rw [hdigits]
    simp [hhigh]

end Digits

/-- Eight digits that spell a date, be there such a day or not. -/
def SpellsDate (date : String) (year month day : Nat) : Prop :=
  (year < 10000 ∧ month < 100 ∧ day < 100) ∧
    date = zeroPadded 4 year ++ zeroPadded 2 month ++ zeroPadded 2 day

/-- Four or six digits that spell a time, the seconds 0 when they are missing. -/
def SpellsTime (time : String) (hour minute second : Nat) : Prop :=
  (hour < 100 ∧ minute < 100 ∧ second < 100) ∧
    (time = zeroPadded 2 hour ++ zeroPadded 2 minute ++ zeroPadded 2 second ∨
      (second = 0 ∧ time = zeroPadded 2 hour ++ zeroPadded 2 minute))

section Spelling

theorem utf8ByteSize_digits {s : String} (h : ∀ c ∈ s.toList, isAsciiDigit c = true) :
    s.utf8ByteSize = s.toList.length := by
  have hascii : ∀ c ∈ s.toList, c.toNat < 128 := fun c hc => by
    have := (isAsciiDigit_iff c).mp (h c hc)
    omega
  have hsize := Utf8.utf8ByteSize_ascii hascii
  rwa [String.ofList_toList] at hsize

theorem trim_digits {s : String} (h : ∀ c ∈ s.toList, isAsciiDigit c = true) : trim s = s := by
  have hblank : ∀ c ∈ s.toList, isWhitespace c = false := fun c hc => by
    have := (isAsciiDigit_iff c).mp (h c hc)
    exact isWhitespace_of_printable (by omega) (by omega)
  rw [trim, trimChars_eq_self hblank, String.ofList_toList]

theorem asciiSlice_append {front middle back : String} {first last : Nat}
    (hfirst : front.toList.length = first) (hlast : first + middle.toList.length = last) :
    asciiSlice (front ++ middle ++ back) first last = middle := by
  rw [asciiSlice, String.append_assoc, String.toList_append, List.drop_left' hfirst,
    String.toList_append, List.take_left' (by omega), String.ofList_toList]

theorem asciiSlice_front {middle back : String} {last : Nat} (hlast : middle.toList.length = last) :
    asciiSlice (middle ++ back) 0 last = middle := by
  have h : asciiSlice ("" ++ middle ++ back) 0 last = middle :=
    asciiSlice_append rfl ((Nat.zero_add _).trans hlast)
  rwa [String.empty_append] at h

theorem asciiSlice_back {front middle : String} {first last : Nat}
    (hfirst : front.toList.length = first) (hlast : first + middle.toList.length = last) :
    asciiSlice (front ++ middle) first last = middle := by
  have h : asciiSlice (front ++ middle ++ "") first last = middle :=
    asciiSlice_append hfirst hlast
  rwa [String.append_empty] at h

/-- A number cut off the front of a run of digits. -/
theorem exists_zeroPadded (width : Nat) (cs : List Char) (hwidth : 0 < width)
    (hcs : ∀ c ∈ cs, isAsciiDigit c = true) (hlength : width ≤ cs.length) :
    ∃ n : Nat, n < 10 ^ width ∧
      String.ofList cs = zeroPadded width n ++ String.ofList (cs.drop width) := by
  have hfront : ∀ c ∈ cs.take width, isAsciiDigit c = true :=
    fun c hc => hcs c (List.mem_of_mem_take hc)
  have hcount : (cs.take width).length = width := by
    rw [List.length_take]
    omega
  have hlt := digitsValue_lt hfront
  have heq := ofList_digits hfront (by
    intro hnil
    rw [hnil, List.length_nil] at hcount
    omega)
  rw [hcount] at hlt heq
  exact ⟨_, hlt, by rw [← heq, ← String.ofList_append, List.take_append_drop]⟩

theorem exists_spellsDate {date : String} (hsize : date.utf8ByteSize = 8)
    (hdigits : date.toList.all isAsciiDigit = true) :
    ∃ year month day, SpellsDate date year month day := by
  rw [List.all_eq_true] at hdigits
  rw [utf8ByteSize_digits hdigits] at hsize
  obtain ⟨year, hyear, hdate⟩ := exists_zeroPadded 4 _ (by decide) hdigits (by omega)
  obtain ⟨month, hmonth, hrest⟩ := exists_zeroPadded 2 (date.toList.drop 4) (by decide)
    (fun c hc => hdigits c (List.mem_of_mem_drop hc)) (by rw [List.length_drop, hsize]; decide)
  obtain ⟨day, hday, hend⟩ := exists_zeroPadded 2 ((date.toList.drop 4).drop 2) (by decide)
    (fun c hc => hdigits c (List.mem_of_mem_drop (List.mem_of_mem_drop hc)))
    (by rw [List.length_drop, List.length_drop, hsize])
  have hnil : ((date.toList.drop 4).drop 2).drop 2 = [] := by
    apply List.eq_nil_of_length_eq_zero
    rw [List.length_drop, List.length_drop, List.length_drop, hsize]
  rw [hend, hnil] at hrest
  rw [String.ofList_toList, hrest] at hdate
  refine ⟨year, month, day, ⟨hyear, hmonth, hday⟩, hdate.trans ?_⟩
  rw [String.append_assoc]
  simp

theorem exists_spellsTime {time : String} (hsize : time.utf8ByteSize = 4 ∨ time.utf8ByteSize = 6)
    (hdigits : time.toList.all isAsciiDigit = true) :
    ∃ hour minute second, SpellsTime time hour minute second := by
  rw [List.all_eq_true] at hdigits
  rw [utf8ByteSize_digits hdigits] at hsize
  obtain ⟨hour, hhour, htime⟩ := exists_zeroPadded 2 _ (by decide) hdigits (by omega)
  obtain ⟨minute, hminute, hrest⟩ := exists_zeroPadded 2 (time.toList.drop 2) (by decide)
    (fun c hc => hdigits c (List.mem_of_mem_drop hc)) (by rw [List.length_drop]; omega)
  rw [String.ofList_toList, hrest, ← String.append_assoc] at htime
  rcases hsize with hsize | hsize
  · have hnil : (time.toList.drop 2).drop 2 = [] := by
      apply List.eq_nil_of_length_eq_zero
      rw [List.length_drop, List.length_drop, hsize]
    rw [hnil] at htime
    exact ⟨hour, minute, 0, ⟨hhour, hminute, by decide⟩, Or.inr ⟨rfl, by simpa using htime⟩⟩
  · obtain ⟨second, hsecond, hend⟩ := exists_zeroPadded 2
      ((time.toList.drop 2).drop 2) (by decide)
      (fun c hc => hdigits c (List.mem_of_mem_drop (List.mem_of_mem_drop hc)))
      (by rw [List.length_drop, List.length_drop, hsize])
    have hnil : ((time.toList.drop 2).drop 2).drop 2 = [] := by
      apply List.eq_nil_of_length_eq_zero
      rw [List.length_drop, List.length_drop, List.length_drop, hsize]
    rw [hend, hnil] at htime
    exact ⟨hour, minute, second, ⟨hhour, hminute, hsecond⟩, Or.inl (by simpa using htime)⟩

end Spelling

section Reading

variable {date time : String} {year month day hour minute second : Nat}

theorem SpellsDate.size (h : SpellsDate date year month day) :
    date.utf8ByteSize = 8 ∧ date.toList.all isAsciiDigit = true := by
  obtain ⟨⟨hyear, hmonth, hday⟩, rfl⟩ := h
  have hdigits : ∀ c ∈ (zeroPadded 4 year ++ zeroPadded 2 month ++ zeroPadded 2 day).toList,
      isAsciiDigit c = true := by
    intro c hc
    rw [String.toList_append, String.toList_append, List.mem_append, List.mem_append] at hc
    rcases hc with (hc | hc) | hc <;> exact isAsciiDigit_zeroPadded hc
  rw [utf8ByteSize_digits hdigits, List.all_eq_true]
  refine ⟨?_, hdigits⟩
  rw [String.toList_append, String.toList_append, List.length_append, List.length_append,
    length_zeroPadded (by decide) hyear, length_zeroPadded (by decide) hmonth,
    length_zeroPadded (by decide) hday]

theorem SpellsTime.size (h : SpellsTime time hour minute second) :
    (time.utf8ByteSize = 6 ∧
        time = zeroPadded 2 hour ++ zeroPadded 2 minute ++ zeroPadded 2 second ∨
      time.utf8ByteSize = 4 ∧ second = 0 ∧ time = zeroPadded 2 hour ++ zeroPadded 2 minute) ∧
      ∀ c ∈ time.toList, isAsciiDigit c = true := by
  obtain ⟨⟨hhour, hminute, hsecond⟩, htime⟩ := h
  have hdigits : ∀ c ∈ time.toList, isAsciiDigit c = true := by
    intro c hc
    rcases htime with rfl | ⟨-, rfl⟩
    · rw [String.toList_append, String.toList_append, List.mem_append, List.mem_append] at hc
      rcases hc with (hc | hc) | hc <;> exact isAsciiDigit_zeroPadded hc
    · rw [String.toList_append, List.mem_append] at hc
      rcases hc with hc | hc <;> exact isAsciiDigit_zeroPadded hc
  refine ⟨?_, hdigits⟩
  rw [utf8ByteSize_digits hdigits]
  refine htime.imp (fun h => ⟨?_, h⟩) fun h => ⟨?_, h⟩
  · rw [h, String.toList_append, String.toList_append, List.length_append, List.length_append,
      length_zeroPadded (by decide) hhour, length_zeroPadded (by decide) hminute,
      length_zeroPadded (by decide) hsecond]
  · rw [h.2, String.toList_append, List.length_append, length_zeroPadded (by decide) hhour,
      length_zeroPadded (by decide) hminute]

theorem SpellsDate.slices (h : SpellsDate date year month day) :
    parseI32 (asciiSlice date 0 4) = some (year : Int) ∧
      parseU32 (asciiSlice date 4 6) = some month ∧ parseU32 (asciiSlice date 6 8) = some day := by
  obtain ⟨⟨hyear, hmonth, hday⟩, rfl⟩ := h
  have hyear' : (zeroPadded 4 year).toList.length = 4 :=
    length_zeroPadded (by decide) hyear
  have hmonth' : (zeroPadded 2 month).toList.length = 2 :=
    length_zeroPadded (by decide) hmonth
  have hday' : (zeroPadded 2 day).toList.length = 2 :=
    length_zeroPadded (by decide) hday
  have hboth : (zeroPadded 4 year ++ zeroPadded 2 month).toList.length = 6 := by
    rw [String.toList_append, List.length_append, hyear', hmonth']
  rw [asciiSlice_append hyear' (by rw [hmonth'] : 4 + _ = 6),
    asciiSlice_back hboth (by rw [hday'] : 6 + _ = 8), String.append_assoc,
    asciiSlice_front hyear']
  exact ⟨parseSigned_zeroPadded (by omega) (by omega), parseUnsigned_zeroPadded (by omega),
    parseUnsigned_zeroPadded (by omega)⟩

theorem SpellsTime.slices (h : SpellsTime time hour minute second) :
    parseI64 (asciiSlice time 0 2) = some (hour : Int) ∧
      parseI64 (asciiSlice time 2 4) = some (minute : Int) ∧
        (if time.utf8ByteSize = 6 then parseI64 (asciiSlice time 4 6) else some 0) =
          some (second : Int) := by
  obtain ⟨htext, -⟩ := h.size
  obtain ⟨⟨hhour, hminute, hsecond⟩, -⟩ := h
  have hhour' : (zeroPadded 2 hour).toList.length = 2 :=
    length_zeroPadded (by decide) hhour
  have hminute' : (zeroPadded 2 minute).toList.length = 2 :=
    length_zeroPadded (by decide) hminute
  have hsecond' : (zeroPadded 2 second).toList.length = 2 :=
    length_zeroPadded (by decide) hsecond
  have hread {n : Nat} (hn : n < 100) : parseI64 (zeroPadded 2 n) = some (n : Int) :=
    parseSigned_zeroPadded (by unfold i64Min; omega) (by unfold i64Max; omega)
  rcases htext with ⟨hsize, htime⟩ | ⟨hsize, rfl, htime⟩
  · have hboth : (zeroPadded 2 hour ++ zeroPadded 2 minute).toList.length = 4 := by
      rw [String.toList_append, List.length_append, hhour', hminute']
    rw [if_pos hsize, htime, asciiSlice_append hhour' (by rw [hminute'] : 2 + _ = 4),
      asciiSlice_back hboth (by rw [hsecond'] : 4 + _ = 6), String.append_assoc,
      asciiSlice_front hhour']
    exact ⟨hread hhour, hread hminute, hread hsecond⟩
  · rw [if_neg (by omega), htime, asciiSlice_back hhour' (by rw [hminute']),
      asciiSlice_front hhour']
    exact ⟨hread hhour, hread hminute, rfl⟩

theorem qsoEpoch_eq (hdate : SpellsDate date year month day)
    (htime : SpellsTime (trim time) hour minute second) :
    qsoEpoch date time =
      if 23 < hour ∨ 59 < minute ∨ 59 < second then none
      else (daysFromCivil year month day).map fun days : Int =>
        days * 86400 + hour * 3600 + minute * 60 + second := by
  obtain ⟨hdateSize, hdateDigits⟩ := hdate.size
  obtain ⟨htimeText, htimeDigits⟩ := htime.size
  obtain ⟨hyear, hmonth, hday⟩ := hdate.slices
  obtain ⟨hhour, hminute, hsecond⟩ := htime.slices
  have htimeSize : ¬(((trim time).utf8ByteSize ≠ 4 ∧ (trim time).utf8ByteSize ≠ 6) ∨
      (trim time).toList.all isAsciiDigit = false) := by
    rw [List.all_eq_true.mpr htimeDigits]
    rcases htimeText with ⟨hsize, -⟩ | ⟨hsize, -⟩ <;> simp [hsize]
  rw [qsoEpoch, if_neg (by rw [hdateSize, hdateDigits]; decide)]
  simp only [hyear, hmonth, hday, Option.bind_eq_bind, Option.bind_some, if_neg htimeSize, hhour,
    hminute, hsecond]
  by_cases hrange : 23 < hour ∨ 59 < minute ∨ 59 < second
  · rw [if_pos hrange, if_pos (by omega)]
  · rw [if_neg hrange, if_neg (by omega)]
    exact Option.map_eq_bind.symm

/-- What is read is eight digits and four or six. -/
theorem exists_spelled {epoch : Int} (h : qsoEpoch date time = some epoch) :
    ∃ year month day hour minute second, SpellsDate date year month day ∧
      SpellsTime (trim time) hour minute second := by
  rw [qsoEpoch] at h
  split at h
  · cases h
  · next hdate =>
      rw [not_or, not_not, Bool.not_eq_false] at hdate
      obtain ⟨year, month, day, hspells⟩ := exists_spellsDate hdate.1 hdate.2
      obtain ⟨_, _, h⟩ := Option.bind_eq_some_iff.mp h
      obtain ⟨_, _, h⟩ := Option.bind_eq_some_iff.mp h
      obtain ⟨_, _, h⟩ := Option.bind_eq_some_iff.mp h
      dsimp only at h
      split at h
      · cases h
      · next htime =>
          rw [not_or, Bool.not_eq_false] at htime
          obtain ⟨hour, minute, second, hspells'⟩ := exists_spellsTime (by omega) htime.2
          exact ⟨year, month, day, hour, minute, second, hspells, hspells'⟩

end Reading

/-- A date of the calendar in the years 0000 to 9999. -/
def IsDate (date : String) : Prop :=
  ∃ year month day : Nat, SpellsDate date year month day ∧ Valid year month day

def IsTimeOfDay (time : String) : Prop :=
  ∃ hour minute second, SpellsTime time hour minute second ∧
    hour ≤ 23 ∧ minute ≤ 59 ∧ second ≤ 59

/-- Missing seconds are 00. -/
def withSeconds (time : String) : String := if time.length = 4 then time ++ "00" else time

/-- 9999-12-31 23:59:59. -/
def lastEpoch : Int := 253402300799

theorem withSeconds_eq {time : String} {hour minute second : Nat}
    (h : SpellsTime time hour minute second) :
    withSeconds time = zeroPadded 2 hour ++ zeroPadded 2 minute ++ zeroPadded 2 second := by
  obtain ⟨htext, hdigits⟩ := h.size
  have hlength : time.length = time.utf8ByteSize := by
    rw [utf8ByteSize_digits hdigits, String.length_toList]
  rw [withSeconds, hlength]
  rcases htext with ⟨hsize, htime⟩ | ⟨hsize, rfl, htime⟩
  · rw [if_neg (by omega), htime]
  · rw [if_pos hsize, htime]
    rfl

/-- What a time that is read back says. -/
theorem qsoEpoch_eq_some {date time : String} {epoch : Int} :
    qsoEpoch date time = some epoch ↔
      ∃ year month day hour minute second : Nat, SpellsDate date year month day ∧
        SpellsTime (trim time) hour minute second ∧ Valid year month day ∧
        (hour ≤ 23 ∧ minute ≤ 59 ∧ second ≤ 59) ∧
        epoch = civilDay year month day * 86400 + hour * 3600 + minute * 60 + second := by
  constructor
  · intro h
    obtain ⟨year, month, day, hour, minute, second, hdate, htime⟩ := exists_spelled h
    rw [qsoEpoch_eq hdate htime] at h
    split at h
    · cases h
    · next hrange =>
        obtain ⟨days, hdays, rfl⟩ := Option.map_eq_some_iff.mp h
        obtain ⟨⟨hyear, -⟩, -⟩ := id hdate
        obtain ⟨hvalid, rfl⟩ := (daysFromCivil_eq_some (by omega)).mp hdays
        exact ⟨year, month, day, hour, minute, second, hdate, htime, hvalid, by omega, rfl⟩
  · rintro ⟨year, month, day, hour, minute, second, hdate, htime, hvalid, hrange, rfl⟩
    obtain ⟨⟨hyear, -⟩, -⟩ := id hdate
    rw [qsoEpoch_eq hdate htime, if_neg (by omega),
      (daysFromCivil_eq_some (by omega)).mpr ⟨hvalid, rfl⟩, Option.map_some]

/-- A time that is written, by its parts. -/
theorem qsoDatetimeAdif_eq {epoch : Int} {year month day hour minute second : Nat}
    (hepoch : 0 ≤ epoch) (hyear : year ≤ 9999) (hvalid : Valid year month day)
    (hrange : hour ≤ 23 ∧ minute ≤ 59 ∧ second ≤ 59)
    (h : epoch = civilDay year month day * 86400 + hour * 3600 + minute * 60 + second) :
    qsoDatetimeAdif epoch =
      .ok (zeroPadded 4 year ++ zeroPadded 2 month ++ zeroPadded 2 day,
        zeroPadded 2 hour ++ zeroPadded 2 minute ++ zeroPadded 2 second) := by
  have hdays : epoch / 86400 = civilDay year month day := by omega
  have hhour : epoch % 86400 / 3600 = hour := by omega
  have hminute : epoch % 86400 % 3600 / 60 = minute := by omega
  have hsecond : epoch % 86400 % 60 = second := by omega
  rw [qsoDatetimeAdif, qsoDatetimeParts, if_neg (by omega), hdays,
    civilFromDays_civilDay (by omega) hvalid]
  dsimp only
  rw [hhour, hminute, hsecond]
  rfl

theorem civilDay_civil (era : Int) {yoe mp : Int} (day : Int) (hyoe : 0 ≤ yoe ∧ yoe ≤ 399)
    (hmp : 0 ≤ mp ∧ mp ≤ 11) :
    civilDay (civilYear era yoe mp) (civilMonth mp) day = marchDay era yoe mp day := by
  have hback : civilMonth mp + (if 2 < civilMonth mp then -3 else 9) = mp := by
    unfold civilMonth
    split_ifs <;> omega
  have hyear : civilYear era yoe mp - (if civilMonth mp ≤ 2 then 1 else 0) = yoe + era * 400 := by
    unfold civilYear
    omega
  rw [civilDay, hyear, hback, show (yoe + era * 400) / 400 = era by omega,
    show (yoe + era * 400) % 400 = yoe by omega]

/-- The parts of a time before the year 10000. -/
theorem exists_parts {epoch : Int} (h : 0 ≤ epoch ∧ epoch ≤ lastEpoch) :
    ∃ year month day hour minute second : Nat, year ≤ 9999 ∧ Valid year month day ∧
      (hour ≤ 23 ∧ minute ≤ 59 ∧ second ≤ 59) ∧
      epoch = civilDay year month day * 86400 + hour * 3600 + minute * 60 + second := by
  obtain ⟨era, yoe, mp, day, hyoe, hmarch, hdays⟩ := exists_marchDay (epoch / 86400)
  have hvalid := valid_civil era hmarch
  have hday := civilDay_civil era day hyoe hmarch.monthOfYear
  obtain ⟨hfirst, hlast, hstart, hend⟩ := dayOfEra_range hyoe hmarch
  have hyear : 0 ≤ civilYear era yoe mp ∧ civilYear era yoe mp ≤ 9999 := by
    unfold lastEpoch at h
    unfold marchDay at hdays
    have hera : 0 ≤ era ∧ era ≤ 24 := by omega
    have hmonth := hmarch.monthOfYear
    refine ⟨by unfold civilYear; split_ifs <;> omega, ?_⟩
    -- The last year of the last cycle ends behind December.
    by_cases hlastYear : era = 24 ∧ yoe = 399
    · have hmp : mp ≤ 9 := by
        rw [hlastYear.1, hlastYear.2] at hdays
        have hdate := hmarch.dayOfMonth.1
        unfold yearStart monthStart at hdays
        omega
      unfold civilYear civilMonth
      split_ifs <;> omega
    · unfold civilYear
      split_ifs <;> omega
  obtain ⟨year, hyear'⟩ := Int.eq_ofNat_of_zero_le hyear.1
  obtain ⟨month, hmonth'⟩ :=
    Int.eq_ofNat_of_zero_le ((by decide : (0 : Int) ≤ 1).trans hvalid.monthOfYear.1)
  obtain ⟨day, rfl⟩ :=
    Int.eq_ofNat_of_zero_le ((by decide : (0 : Int) ≤ 1).trans hvalid.dayOfMonth.1)
  rw [hyear', hmonth'] at hvalid hday
  refine ⟨year, month, day, (epoch % 86400 / 3600).toNat, (epoch % 86400 % 3600 / 60).toNat,
    (epoch % 86400 % 60).toNat, by omega, hvalid, by omega, ?_⟩
  rw [hday, ← hdays]
  omega

def IsDigits (s : String) : Prop := s ≠ "" ∧ ∀ c ∈ s.toList, isAsciiDigit c = true

theorem SpellsDate.isDigits {date : String} {year month day : Nat}
    (h : SpellsDate date year month day) : IsDigits date := by
  refine ⟨fun hempty => ?_, List.all_eq_true.mp h.size.2⟩
  have hsize := h.size.1
  rw [hempty] at hsize
  cases hsize

theorem SpellsTime.isDigits {time : String} {hour minute second : Nat}
    (h : SpellsTime time hour minute second) : IsDigits time := by
  refine ⟨fun hempty => ?_, h.size.2⟩
  obtain ⟨hsize, -⟩ | ⟨hsize, -⟩ := h.size.1
  · rw [hempty] at hsize
    cases hsize
  · rw [hempty] at hsize
    cases hsize

/-- The text of a time before the year 10000 is read back. -/
theorem exists_qsoDatetimeAdif {epoch : Int} (h : 0 ≤ epoch ∧ epoch ≤ lastEpoch) :
    ∃ date time, qsoDatetimeAdif epoch = .ok (date, time) ∧ qsoEpoch date time = some epoch ∧
      IsDigits date ∧ IsDigits time := by
  obtain ⟨year, month, day, hour, minute, second, hyear, hvalid, hrange, hepoch⟩ := exists_parts h
  have hmonth := hvalid.monthOfYear.2
  have hday := hvalid.day_le
  have hdate : SpellsDate (zeroPadded 4 year ++ zeroPadded 2 month ++ zeroPadded 2 day) year month
      day := ⟨by omega, rfl⟩
  have hspells : SpellsTime (zeroPadded 2 hour ++ zeroPadded 2 minute ++ zeroPadded 2 second)
      hour minute second := ⟨by omega, Or.inl rfl⟩
  refine ⟨_, _, qsoDatetimeAdif_eq h.1 hyear hvalid hrange hepoch, ?_, hdate.isDigits,
    hspells.isDigits⟩
  refine qsoEpoch_eq_some.mpr ⟨year, month, day, hour, minute, second, hdate, ?_, hvalid, hrange,
    hepoch⟩
  rw [trim_digits hspells.size.2]
  exact hspells

/-- Times and their texts are one another's inverse, for all times up to the end of the year 9999
and for the texts of every day of the calendar and time of day. -/
theorem qsoEpoch_qsoDatetimeAdif :
    (∀ epoch, 0 ≤ epoch → epoch ≤ lastEpoch →
      ∃ date time, qsoDatetimeAdif epoch = .ok (date, time) ∧ qsoEpoch date time = some epoch) ∧
    (∀ date time, (qsoEpoch date time).isSome = true ↔ IsDate date ∧ IsTimeOfDay (trim time)) ∧
    ∀ date time epoch, qsoEpoch date time = some epoch → 0 ≤ epoch →
      qsoDatetimeAdif epoch = .ok (date, withSeconds (trim time)) := by
  refine ⟨fun epoch hlow hhigh => ?_, fun date time => ?_, fun date time epoch h hepoch => ?_⟩
  · obtain ⟨date, time, hdate, hepoch, -, -⟩ := exists_qsoDatetimeAdif ⟨hlow, hhigh⟩
    exact ⟨date, time, hdate, hepoch⟩
  · rw [Option.isSome_iff_exists]
    constructor
    · rintro ⟨epoch, h⟩
      obtain ⟨year, month, day, hour, minute, second, hdate, htime, hvalid, hrange, -⟩ :=
        qsoEpoch_eq_some.mp h
      exact ⟨⟨year, month, day, hdate, hvalid⟩, hour, minute, second, htime, hrange⟩
    · rintro ⟨⟨year, month, day, hdate, hvalid⟩, hour, minute, second, htime, hrange⟩
      exact ⟨_, qsoEpoch_eq_some.mpr
        ⟨year, month, day, hour, minute, second, hdate, htime, hvalid, hrange, rfl⟩⟩
  · obtain ⟨year, month, day, hour, minute, second, hdate, htime, hvalid, hrange, heq⟩ :=
      qsoEpoch_eq_some.mp h
    rw [qsoDatetimeAdif_eq hepoch (Nat.le_of_lt_succ hdate.1.1) hvalid hrange heq,
      withSeconds_eq htime, hdate.2]

example : qsoEpoch "20231114" " 2215 " = some 1700000100 := by decide

end Log73
