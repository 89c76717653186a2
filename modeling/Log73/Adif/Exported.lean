import Log73.Adif.RoundTrip
import Log73.ContestRules
import Log73.Db.Frequency
import Log73.Db.Rebuilt
import Log73.QsoTime.Epoch

/-!
What the reader finds in the record of a stored contact: the time, the frequency, the
callsign, the band and the exchange as they are stored.
-/

namespace Log73

open SortedAssoc

namespace Adif

section Frequency

theorem digitsValue_append_zeros (digits : List Char) (count : Nat) :
    digitsValue (digits ++ List.replicate count '0') = digitsValue digits * 10 ^ count := by
  induction count with
  | zero => simp
  | succ count ih =>
      rw [List.replicate_succ', ← List.append_assoc, digitsValue_concat, ih, Nat.pow_succ]
      rw [show '0'.toNat - 48 = 0 from rfl]
      ring

theorem digitsValue_append (front back : List Char) :
    digitsValue (front ++ back) = digitsValue front * 10 ^ back.length + digitsValue back := by
  induction back using List.reverseRecOn with
  | nil => simp [digitsValue]
  | append_singleton back c ih =>
      rw [← List.append_assoc, digitsValue_concat, digitsValue_concat, ih, List.length_append,
        List.length_singleton, Nat.pow_succ]
      ring

/-- Only zeros go from a fraction that has another digit. -/
theorem dropTrailingZeros_point (front : List Char) {padded : List Char}
    (hdigits : ∀ d ∈ padded, isAsciiDigit d = true) (hnonzero : ∃ d ∈ padded, d ≠ '0') :
    ∃ fraction count, fraction ≠ [] ∧ padded = fraction ++ List.replicate count '0' ∧
      dropTrailingZeros (front ++ '.' :: padded) = front ++ '.' :: fraction := by
  induction padded using List.reverseRecOn with
  | nil =>
      obtain ⟨d, hd, -⟩ := hnonzero
      cases hd
  | append_singleton padded c ih =>
      have hreverse : (front ++ '.' :: (padded ++ [c])).reverse =
          c :: (front ++ '.' :: padded).reverse := by simp
      by_cases hc : c = '0'
      · subst hc
        have hrest : ∃ d ∈ padded, d ≠ '0' := by
          obtain ⟨d, hd, hne⟩ := hnonzero
          refine ⟨d, (List.mem_append.mp hd).resolve_right fun hlast => hne ?_, hne⟩
          exact List.mem_singleton.mp hlast
        obtain ⟨fraction, count, hfraction, heq, hdrop⟩ :=
          ih (fun d hd => hdigits d (List.mem_append_left _ hd)) hrest
        refine ⟨fraction, count + 1, hfraction, ?_, ?_⟩
        · rw [heq, List.append_assoc, ← List.replicate_succ']
        · rw [← hdrop, dropTrailingZeros, dropTrailingZeros, hreverse,
            List.dropWhile_cons_of_pos (by rfl)]
      · refine ⟨padded ++ [c], 0, by simp, by simp, ?_⟩
        have hpoint : c ≠ '.' := by
          intro heq
          have hdigit := hdigits c (by simp)
          rw [heq] at hdigit
          cases hdigit
        rw [dropTrailingZeros, hreverse, List.dropWhile_cons_of_neg (by simpa using hc),
          ← hreverse, List.reverse_reverse]
        refine if_neg ?_
        rw [← List.cons_append, ← List.append_assoc, List.getLast?_concat]
        simpa using hpoint

/-- The text of a positive frequency: whole megahertz, or megahertz with a fraction. -/
theorem formatFrequencyMhz_cases (n : Nat) :
    (∃ m, n = m * 1000000 ∧ formatFrequencyMhz n = String.ofList (Nat.toDigits 10 m)) ∨
    (¬1000000 ∣ n ∧ ∃ digits fraction,
      formatFrequencyMhz n = String.ofList (digits ++ '.' :: fraction) ∧
      (∀ d ∈ digits, isAsciiDigit d = true) ∧
      DecimalText (String.ofList (digits ++ '.' :: fraction)) ((n : ℚ) / 1000000)) := by
  have hwhole : (toString ((n : Int).tdiv 1000000)).toList = Nat.toDigits 10 (n / 1000000) := by
    have htdiv : (n : Int).tdiv 1000000 = ((n / 1000000 : Nat) : Int) := rfl
    rw [htdiv]
    exact Nat.toList_repr
  have hpart : ((n : Int).tmod 1000000).natAbs = n % 1000000 := rfl
  rw [formatFrequencyMhz, hpart]
  by_cases hzero : n % 1000000 = 0
  · refine .inl ⟨n / 1000000, by omega, ?_⟩
    rw [if_pos hzero, ← hwhole, String.ofList_toList]
  · right
    have hpadded : ∀ d ∈ (zeroPadded 6 (n % 1000000 : Nat)).toList, isAsciiDigit d = true :=
      fun d => isAsciiDigit_zeroPadded
    have hvalue := digitsValue_zeroPadded 6 (n % 1000000)
    have hnonzero : ∃ d ∈ (zeroPadded 6 (n % 1000000 : Nat)).toList, d ≠ '0' := by
      by_contra hall
      push Not at hall
      have hzeros := digitsValue_append_zeros [] (zeroPadded 6 (n % 1000000 : Nat)).toList.length
      rw [List.nil_append, ← List.eq_replicate_of_mem hall, hvalue] at hzeros
      rw [show digitsValue [] = 0 from rfl, Nat.zero_mul] at hzeros
      exact hzero hzeros
    obtain ⟨fraction, count, hne, heq, hdrop⟩ :=
      dropTrailingZeros_point (Nat.toDigits 10 (n / 1000000)) hpadded hnonzero
    have hdigits : ∀ d ∈ Nat.toDigits 10 (n / 1000000) ++ fraction, isAsciiDigit d = true := by
      intro d hd
      cases List.mem_append.mp hd with
      | inl hd => exact isAsciiDigit_of_mem_toDigits hd
      | inr hd => exact hpadded d (heq ▸ List.mem_append_left _ hd)
    refine ⟨fun hdvd => hzero (Nat.mod_eq_zero_of_dvd hdvd), Nat.toDigits 10 (n / 1000000),
      fraction, ?_, fun d hd => hdigits d (List.mem_append_left _ hd), ?_⟩
    · have hpoint : ".".toList = ['.'] := rfl
      rw [if_neg hzero, ← hdrop, String.toList_append, String.toList_append, hwhole, hpoint,
        List.append_assoc, List.singleton_append]
    · have hsix : (zeroPadded 6 (n % 1000000 : Nat)).toList.length = 6 :=
        length_zeroPadded (by decide) (Nat.mod_lt n (by decide))
      have hlength : fraction.length + count = 6 := by
        rw [heq, List.length_append, List.length_replicate] at hsix
        exact hsix
      have hall : digitsValue (Nat.toDigits 10 (n / 1000000) ++ fraction) * 10 ^ count = n := by
        rw [← digitsValue_append_zeros, List.append_assoc, ← heq, digitsValue_append, hvalue,
          hsix]
        have hfront : digitsValue (Nat.toDigits 10 (n / 1000000)) = n / 1000000 :=
          Nat.ofDigitChars_ten_toDigits
        rw [hfront]
        omega
      have htext := DecimalText.point Nat.toDigits_ne_nil hne hdigits
      have hratio : (digitsValue (Nat.toDigits 10 (n / 1000000) ++ fraction) : ℚ) /
          10 ^ fraction.length = (n : ℚ) / 1000000 := by
        have hpow : (10 : ℚ) ^ fraction.length * 10 ^ count = 1000000 := by
          rw [← pow_add, hlength]
          norm_num
        have hall' := congrArg (Nat.cast : Nat → ℚ) hall
        push_cast at hall'
        rw [← hpow, ← hall', mul_div_mul_right _ _ (by positivity)]
      rw [hratio] at htext
      exact htext

/-- The importer reads the frequency of a contact back, unless it takes the megahertz for hertz. -/
theorem importFrequencyHz_formatFrequencyMhz [Platform] (hexact : ExactDecimals) {hz : Int}
    (hpos : 0 < hz) (hmax : hz ≤ i64Max) (hwhole : 1000000 ∣ hz → hz ≤ 1000000000) :
    importFrequencyHz (formatFrequencyMhz hz) = some hz := by
  obtain ⟨n, rfl⟩ := Int.eq_ofNat_of_zero_le hpos.le
  have hn : 0 < n := by omega
  obtain ⟨m, hm, htext⟩ | ⟨-, digits, fraction, htext, hdigits, hdecimal⟩ :=
    formatFrequencyMhz_cases n
  · have hvalue : digitsValue (Nat.toDigits 10 m) = m := Nat.ofDigitChars_ten_toDigits
    have hlow : (n : Int) ≤ 1000000000 := hwhole ⟨m, by omega⟩
    rw [htext, importFrequencyHz_whole hexact Nat.toDigits_ne_nil
      fun d hd => isAsciiDigit_of_mem_toDigits hd, hvalue, if_neg (by omega), if_neg (by omega),
      saturatedHertz_eq (by omega), if_pos (by rw [i64Max]; omega)]
    exact congrArg some (by omega)
  · have hround : round ((n : ℚ) / 1000000 * 1000000) = (n : Int) := by
      rw [div_mul_cancel₀ _ (by norm_num)]
      exact_mod_cast round_intCast (n : Int)
    have hposq : (0 : ℚ) < (n : ℚ) / 1000000 := by positivity
    rw [htext, importFrequencyHz_point hexact hdigits hdecimal, if_pos hposq, hround,
      saturatedHertz_eq (Int.natCast_nonneg n), if_pos hmax]

end Frequency

section Text

/-- Text on one line, without white space at the ends. -/
structure SingleLine (s : String) : Prop where
  trimmed : trim s = s
  chars : ∀ c ∈ s.toList, c ≠ '\r' ∧ c ≠ '\n'

theorem replaceCrLf_of_not_mem {cs : List Char} (h : '\r' ∉ cs) : replaceCrLf cs = cs := by
  fun_induction replaceCrLf cs with
  | case1 cs ih => exact absurd List.mem_cons_self h
  | case2 c cs hne ih => rw [ih fun hmem => h (List.mem_cons_of_mem _ hmem)]
  | case3 => rfl

theorem SingleLine.readBack {s : String} (h : SingleLine s) : readBack s = s := by
  have hflat : flattenLines s = s := by
    rw [flattenLines, replaceCrLf_of_not_mem fun hmem => (h.chars _ hmem).1 rfl,
      List.map_congr_left (g := id), List.map_id, String.ofList_toList]
    intro c hc
    exact if_neg fun hor => hor.elim (h.chars c hc).1 (h.chars c hc).2
  rw [Adif.readBack, hflat, h.trimmed]

theorem mem_replaceCrLf {cs : List Char} {c : Char} (h : c ∈ cs) (hc : c ≠ '\r') :
    c ∈ replaceCrLf cs := by
  fun_induction replaceCrLf cs with
  | case1 cs ih => grind
  | case2 d cs hne ih => grind
  | case3 => cases h

/-- A value that is not blank is none when it is read. -/
theorem readBack_ne_empty {s : String} (h : trim s ≠ "") : trim (readBack s) ≠ "" := by
  rw [Ne, trim_eq_empty] at h
  push Not at h
  obtain ⟨c, hmem, hspace⟩ := h
  have hne : c ≠ '\r' ∧ c ≠ '\n' := by
    constructor
    · intro heq
      exact hspace (heq ▸ rfl)
    · intro heq
      exact hspace (heq ▸ rfl)
  have hflat : c ∈ (flattenLines s).toList := by
    rw [flattenLines, String.toList_ofList]
    exact List.mem_map.mpr ⟨c, mem_replaceCrLf hmem hne.1, if_neg fun hor => hor.elim hne.1 hne.2⟩
  rw [readBack, trim, trim, String.toList_ofList, trimChars_trimChars, ← trim, Ne, trim_eq_empty]
  exact fun hall => hspace (hall c hflat)

theorem singleLine_of_printable {s : String} (h : ∀ c ∈ s.toList, 33 ≤ c.toNat ∧ c.toNat ≤ 126) :
    SingleLine s where
  trimmed := by
    rw [trim, trimChars_eq_self fun c hc => isWhitespace_of_printable (h c hc).1 (h c hc).2,
      String.ofList_toList]
  chars c hc := by
    have hcode := (h c hc).1
    refine ⟨fun heq => ?_, fun heq => ?_⟩
    · rw [heq] at hcode
      exact absurd hcode (by decide)
    · rw [heq] at hcode
      exact absurd hcode (by decide)

theorem singleLine_digits {s : String} (h : ∀ c ∈ s.toList, isAsciiDigit c = true) :
    SingleLine s := by
  refine singleLine_of_printable fun c hc => ?_
  have hcode := (isAsciiDigit_iff c).mp (h c hc)
  omega

end Text

section Written

variable [Platform]

/-- What a stored field is exported as. -/
def written (entry : String × Value) : Option (String × String) :=
  if shouldSkipField entry.1 || entry.1 ∈ ["QSO_DATE", "TIME_ON"] then none
  else
    let normalized := normalizeFieldName entry.1
    if normalized = "" then none
    else ((serializedValue normalized entry.2).filter (· ≠ "")).map (normalized, ·)

theorem writeField_eq (fields : AdifFields) (entry : String × Value) :
    writeField true fields entry =
      (written entry).elim fields fun field => insert fields field.1 field.2 := by
  rw [writeField, written, Bool.true_and]
  split
  · rfl
  · dsimp only
    split
    · rfl
    · cases serializedValue (normalizeFieldName entry.1) entry.2 with
      | none => rfl
      | some serialized =>
          by_cases hempty : serialized = ""
          · dsimp only
            rw [if_pos hempty, Option.filter_some, if_neg (by simpa using hempty), Option.map_none,
              Option.elim_none]
          · dsimp only
            rw [if_neg hempty, Option.filter_some, if_pos (by simpa using hempty), Option.map_some,
              Option.elim_some]

theorem foldl_writeField (fields : AdifFields) (source : Map) :
    source.foldl (writeField true) fields = insertAll fields (source.filterMap written) := by
  induction source generalizing fields with
  | nil => rfl
  | cons entry source ih =>
      rw [List.foldl_cons, ih, writeField_eq, List.filterMap_cons]
      cases written entry with
      | none => rfl
      | some field => rfl

omit [Platform] in
/-- Entries that agree about a key give its value. -/
theorem get?_insertAll_of_agree {ν : Type} {m entries : List (String × ν)} {key : String}
    {value : ν} (hmem : ∃ entry ∈ entries, entry.1 = key)
    (hagree : ∀ entry ∈ entries, entry.1 = key → entry.2 = value) :
    get? (insertAll m entries) key = some value := by
  rw [get?_insertAll]
  have hsome : (get? entries.reverse key).isSome := by
    obtain ⟨entry, hentry, rfl⟩ := hmem
    rw [isSome_get?, List.map_reverse, List.mem_reverse]
    exact List.mem_map_of_mem hentry
  obtain ⟨found, hfound⟩ := Option.isSome_iff_exists.mp hsome
  rw [hfound, Option.some_or]
  exact congrArg some (hagree _ (List.mem_reverse.mp (mem_of_get? hfound)) rfl)

theorem written_name {entry : String × Value} {field : String × String}
    (h : written entry = some field) : normalizeFieldName entry.1 = field.1 := by
  rw [written] at h
  split at h
  · cases h
  · dsimp only at h
    split at h
    · cases h
    · obtain ⟨serialized, -, rfl⟩ := Option.map_eq_some_iff.mp h
      rfl

/-- The only field that is exported under a name gives its value. -/
theorem get?_written {source : Map} {fields : AdifFields} {key name serialized : String}
    {value : Value} (hnodup : (source.map Prod.fst).Nodup)
    (hown : ∀ entry ∈ source, normalizeFieldName entry.1 = name → entry.1 = key)
    (hvalue : get? source key = some value)
    (hwritten : written (key, value) = some (name, serialized)) :
    get? (source.foldl (writeField true) fields) name = some serialized := by
  rw [foldl_writeField]
  refine get?_insertAll_of_agree
    ⟨(name, serialized), List.mem_filterMap.mpr ⟨_, mem_of_get? hvalue, hwritten⟩, rfl⟩ ?_
  intro field hfield hname
  obtain ⟨entry, hentry, heq⟩ := List.mem_filterMap.mp hfield
  have hkey := hown entry hentry ((written_name heq).trans hname)
  have hentry' : get? source entry.1 = some entry.2 := get?_of_mem hnodup hentry
  rw [hkey, hvalue] at hentry'
  have hsame : entry = (key, value) := Prod.ext hkey (Option.some.inj hentry').symm
  rw [hsame, hwritten] at heq
  rw [← Option.some.inj heq]

/-- A name that no field is exported under keeps its value. -/
theorem get?_not_written {source : Map} {fields : AdifFields} {name : String}
    (hnone : ∀ entry ∈ source, normalizeFieldName entry.1 = name → written entry = none) :
    get? (source.foldl (writeField true) fields) name = get? fields name := by
  rw [foldl_writeField]
  refine get?_insertAll_of_not_mem _ _ _ fun hmem => ?_
  obtain ⟨field, hfield, hname⟩ := List.mem_map.mp hmem
  obtain ⟨entry, hentry, heq⟩ := List.mem_filterMap.mp hfield
  rw [hnone entry hentry ((written_name heq).trans hname)] at heq
  cases heq

/-- The value of a field that is not converted. -/
theorem serializedValue_eq {name : String} (hname : name ≠ "FREQ" ∧ name ≠ "MODE") (value : Value) :
    serializedValue name value = valueString value := by
  rw [serializedValue]
  · exact hname.1
  · exact hname.2

theorem written_of_key {key : String} (hkey : shouldSkipField key = false)
    (htime : key ∉ ["QSO_DATE", "TIME_ON"]) (hname : normalizeFieldName key ≠ "") {value : Value}
    {serialized : String}
    (hvalue : serializedValue (normalizeFieldName key) value = some serialized)
    (hserialized : serialized ≠ "") :
    written (key, value) = some (normalizeFieldName key, serialized) := by
  rw [written, hkey, if_neg (by simpa using htime)]
  dsimp only
  rw [if_neg hname, hvalue, Option.filter_some, if_pos (by simpa using hserialized),
    Option.map_some]

end Written

section Typed

variable [Platform]

/-- The columns an import relies on. -/
structure Typed (contact : Contact) where
  epoch : Int64
  hz : Int64
  station : String
  call : String
  band : String
  mode : String
  adif : Map
  start : contactAdifValue contact "QSO_DATE_TIME_ON" = some (.ofI64 epoch)
  frequency : contactAdifValue contact "FREQ" = some (.ofI64 hz)
  ofStation : contactAdifValue contact "STATION_CALLSIGN" = some (.string station)
  ofCall : contactAdifValue contact "CALL" = some (.string call)
  ofBand : contactAdifValue contact "BAND" = some (.string band)
  ofMode : contactAdifValue contact "MODE" = some (.string mode)
  fields : contactAdif contact = some adif
  nodup : (adif.map Prod.fst).Nodup

theorem nonempty_typed (persisted : PersistedContact) : Nonempty (Typed persisted.contact) := by
  obtain ⟨epoch, hepoch⟩ := persisted.integer "QSO_DATE_TIME_ON" (by decide) (by decide)
    (by decide) fun _ => ⟨_, rfl⟩
  obtain ⟨hz, hhz⟩ := persisted.integer "FREQ" (by decide) (by decide) (by decide)
    fun _ => ⟨_, rfl⟩
  obtain ⟨station, hstation⟩ := persisted.text "STATION_CALLSIGN" (by decide) (by decide)
    (by decide) fun _ => ⟨_, rfl⟩
  obtain ⟨call, hcall⟩ := persisted.text "CALL" (by decide) (by decide) (by decide)
    fun _ => ⟨_, rfl⟩
  obtain ⟨band, hband⟩ := persisted.text "BAND" (by decide) (by decide) (by decide)
    fun _ => ⟨_, rfl⟩
  obtain ⟨mode, hmode⟩ := persisted.text "MODE" (by decide) (by decide) (by decide)
    fun _ => ⟨_, rfl⟩
  exact ⟨⟨epoch, hz, station, call, band, mode, _, hepoch, hhz, hstation, hcall, hband, hmode,
    contactAdif_buildContact _ _, (Sorted.insertAll List.Pairwise.nil _).nodup⟩⟩

end Typed

section Export

variable [Platform]

/-- The names an import relies on. -/
def importedNames (rules : ContestRules) : List String :=
  ["QSO_DATE", "TIME_ON", "STATION_CALLSIGN", "CALL", "BAND", "FREQ", "MODE"] ++
    rules.exchange.map fun field => field.adif

/-- Exchange fields that are exported as they are and that an import sets from nothing else. -/
def OrdinaryExchange (rules : ContestRules) : Prop :=
  ∀ field ∈ rules.exchange,
    shouldSkipField (normalizeAdifFieldName field.adif) = false ∧
    normalizeAdifFieldName field.adif ≠ "CONTEST_ID" ∧
    normalizeFieldName field.adif ∉ ["", "QSO_DATE", "TIME_ON", "FREQ", "MODE"]

/-- A contact whose export says all that an import asks for, and says it as it is stored. -/
structure Portable (log : Log) (rules : ContestRules) (contact : Contact) : Prop where
  start : ∀ epoch, contactAdifValue contact "QSO_DATE_TIME_ON" = some (.ofI64 epoch) →
    0 ≤ epoch.toInt ∧ epoch.toInt ≤ lastEpoch
  frequency : ∀ hz, contactAdifValue contact "FREQ" = some (.ofI64 hz) →
    0 < hz.toInt ∧ (1000000 ∣ hz.toInt → hz.toInt ≤ 1000000000)
  call : ∀ call, contactAdifValue contact "CALL" = some (.string call) →
    call ≠ "" ∧ SingleLine call
  band : ∀ band, contactAdifValue contact "BAND" = some (.string band) →
    band ≠ "" ∧ SingleLine band
  mode : ∀ mode, contactAdifValue contact "MODE" = some (.string mode) →
    trim (normalizeLoggerMode mode) ≠ ""
  station : ∀ station, contactAdifValue contact "STATION_CALLSIGN" = some (.string station) →
    trim station ≠ "" ∨ trim (toUppercase (trim log.stationCallsign)) ≠ ""
  exchange : ∀ field ∈ rules.exchange, ∃ text,
    jsonString (contactAdifValue contact field.adif) = some text ∧ text ≠ "" ∧ SingleLine text
  own : ∀ name ∈ importedNames rules, ∀ entry ∈ (contactAdif contact).getD [],
    normalizeFieldName entry.1 = normalizeFieldName name → entry.1 = normalizeAdifFieldName name

omit [Platform] in
theorem normalizeFieldName_normalizeAdifFieldName (name : String) :
    normalizeFieldName (normalizeAdifFieldName name) = normalizeFieldName name := by
  have hchar (c : Char) : fieldNameChar c.toUpper = fieldNameChar c := by
    by_cases hcode : 97 ≤ c.toNat ∧ c.toNat ≤ 122
    · have hlower : isAsciiLowercase c = true := by
        rw [isAsciiLowercase, Bool.and_eq_true, decide_eq_true_eq, decide_eq_true_eq]
        exact ⟨UInt32.le_iff_toNat_le.mpr hcode.1, UInt32.le_iff_toNat_le.mpr hcode.2⟩
      have hself : fieldNameChar c = c.toUpper := if_pos hlower
      rw [fieldNameChar_eq_self (hself ▸ isNameChar_fieldNameChar c), hself]
    · have hself : c.toUpper = c := Char.toNat_inj.mp (by rw [toNat_toUpper, if_neg hcode])
      rw [hself]
  rw [normalizeFieldName, normalizeAdifFieldName, toAsciiUppercase, trim, String.toList_ofList,
    String.toList_ofList, trimChars_map_toUpper, trimChars_trimChars, List.map_map,
    normalizeFieldName]
  congr 1
  exact List.map_congr_left fun c _ => hchar c

/-- The fields before the callsign of the station is filled in. -/
def writtenFields (adif : Map) (date time : String) : AdifFields :=
  adif.foldl (writeField true) (insert (insert [] "QSO_DATE" date) "TIME_ON" time)

variable {log : Log} {contact : Contact} {fields : AdifFields}

theorem contactFields_eq (t : Typed contact) {date time : String}
    (hdate : qsoDatetimeAdif t.epoch.toInt = .ok (date, time))
    (h : contactFields contact log.stationCallsign = .ok fields) :
    fields = if (get? (writtenFields t.adif date time) "STATION_CALLSIGN").isSome ||
        toUppercase (trim log.stationCallsign) = "" then writtenFields t.adif date time
      else insert (writtenFields t.adif date time) "STATION_CALLSIGN"
        (toUppercase (trim log.stationCallsign)) := by
  have hepoch : contactI64 (some (.ofI64 t.epoch)) = some t.epoch.toInt := Value.asI64_ofI64 t.epoch
  rw [contactFields, t.start, hepoch] at h
  dsimp only at h
  rw [hdate, t.fields] at h
  exact (Except.ok.inj h).symm

/-- The callsign of the log takes no value of the contact's own away. -/
theorem get?_contactFields (t : Typed contact) {date time : String}
    (hdate : qsoDatetimeAdif t.epoch.toInt = .ok (date, time))
    (h : contactFields contact log.stationCallsign = .ok fields) {name value : String}
    (hvalue : get? (writtenFields t.adif date time) name = some value) :
    get? fields name = some value := by
  rw [contactFields_eq t hdate h]
  by_cases hname : name = "STATION_CALLSIGN"
  · subst hname
    rw [hvalue, Option.isSome_some, Bool.true_or, if_pos rfl, hvalue]
  · split
    · exact hvalue
    · rw [get?_insert_of_ne _ _ (Ne.symm hname), hvalue]

section Names

variable {rules : ContestRules} {date time : String}

omit [Platform] in
theorem contactAdifValue_eq (t : Typed contact) (name : String) :
    contactAdifValue contact name = get? t.adif (normalizeAdifFieldName name) := by
  rw [contactAdifValue, t.fields, Option.bind_some]

/-- The field of a name an import relies on is exported with its text. -/
theorem get?_writtenFields (t : Typed contact) (hportable : Portable log rules contact)
    {name : String} (hname : name ∈ importedNames rules) {value : Value} {serialized : String}
    (hvalue : contactAdifValue contact name = some value)
    (hwritten : written (normalizeAdifFieldName name, value) =
      some (normalizeFieldName name, serialized)) :
    get? (writtenFields t.adif date time) (normalizeFieldName name) = some serialized := by
  rw [contactAdifValue_eq t] at hvalue
  refine get?_written t.nodup (fun entry hentry heq => ?_) hvalue hwritten
  have hown := hportable.own name hname entry
  rw [t.fields] at hown
  exact hown hentry heq

/-- The date and the time are those of the contact's start. -/
theorem get?_writtenFields_time (t : Typed contact) (hportable : Portable log rules contact) :
    get? (writtenFields t.adif date time) "QSO_DATE" = some date ∧
    get? (writtenFields t.adif date time) "TIME_ON" = some time := by
  have hskipped : ∀ name ∈ ["QSO_DATE", "TIME_ON"], ∀ entry ∈ t.adif,
      normalizeFieldName entry.1 = name → written entry = none := by
    intro name hname entry hentry heq
    have hnormal : normalizeFieldName name = name ∧ normalizeAdifFieldName name = name := by
      have hall : ∀ name ∈ ["QSO_DATE", "TIME_ON"],
        normalizeFieldName name = name ∧ normalizeAdifFieldName name = name := by decide
      exact hall name hname
    have hown := hportable.own name
      (List.mem_append_left _ (List.mem_of_mem_take (i := 2) hname)) entry
    rw [t.fields, hnormal.1, hnormal.2] at hown
    have hkey := hown hentry heq
    rw [written, if_pos]
    rw [hkey, Bool.or_eq_true, decide_eq_true_eq]
    exact .inr hname
  constructor
  · rw [writtenFields, get?_not_written (hskipped _ (by simp)), get?_insert_of_ne _ _ (by decide),
      get?_insert_self]
  · rw [writtenFields, get?_not_written (hskipped _ (by simp)), get?_insert_self]

/-- What an import finds in the record of a contact. -/
structure ReadsBack (rules : ContestRules) (contact : Contact) (record : AdifRecord) : Prop where
  sorted : Sorted record.fields
  names : ∀ entry ∈ record.fields, CanonicalName entry.1
  start : ∃ epoch date time, contactAdifValue contact "QSO_DATE_TIME_ON" = some (.ofInt epoch) ∧
    get? record.fields "QSO_DATE" = some date ∧ get? record.fields "TIME_ON" = some time ∧
    IsDigits date ∧ IsDigits time ∧ qsoEpoch date time = some epoch
  frequency : ∃ hz text, contactAdifValue contact "FREQ" = some (.ofInt hz) ∧
    get? record.fields "FREQ" = some text ∧ text ≠ "" ∧ trim text = text ∧
    importFrequencyHz text = some hz
  station : ∃ text, get? record.fields "STATION_CALLSIGN" = some text ∧ trim text ≠ ""
  mode : ∃ text, get? record.fields "MODE" = some text ∧ trim text ≠ ""
  call : ∃ text, contactAdifValue contact "CALL" = some (.string text) ∧
    get? record.fields "CALL" = some text ∧ trim text ≠ ""
  band : ∃ text, contactAdifValue contact "BAND" = some (.string text) ∧
    get? record.fields "BAND" = some text ∧ trim text ≠ ""
  exchange : ∀ field ∈ rules.exchange, ∃ text,
    jsonString (contactAdifValue contact field.adif) = some text ∧
    get? record.fields (normalizeFieldName field.adif) = some text ∧ trim text ≠ ""

/-- The text of a value is what an export writes, once it is trimmed. -/
theorem valueString_of_jsonString {value : Value} {text : String}
    (h : jsonString (some value) = some text) (htrim : trim text = text) :
    valueString value = some text := by
  cases value with
  | string s =>
      obtain rfl := Option.some.inj h
      rw [valueString, htrim]
  | number n => exact h
  | bool b => exact h
  | null => cases h
  | array values => cases h
  | object entries => cases h

omit [Platform] in
theorem singleLine_formatFrequencyMhz {hz : Int} (h : 0 < hz) :
    formatFrequencyMhz hz ≠ "" ∧ SingleLine (formatFrequencyMhz hz) := by
  obtain ⟨n, rfl⟩ := Int.eq_ofNat_of_zero_le h.le
  have hdecimal : ∃ value, DecimalText (formatFrequencyMhz n) value := by
    obtain ⟨m, -, htext⟩ | ⟨-, digits, fraction, htext, -, hdecimal⟩ := formatFrequencyMhz_cases n
    · rw [htext]
      exact ⟨_, .whole Nat.toDigits_ne_nil fun d hd => isAsciiDigit_of_mem_toDigits hd⟩
    · rw [htext]
      exact ⟨_, hdecimal⟩
  obtain ⟨value, hdecimal⟩ := hdecimal
  refine ⟨hdecimal.ne_empty, singleLine_of_printable fun c hc => ?_⟩
  cases hdecimal.mem hc with
  | inl hdigit =>
      have hcode := (isAsciiDigit_iff c).mp hdigit
      omega
  | inr hpoint =>
      rw [hpoint]
      decide

theorem trim_adifMode {mode : String} (h : trim (normalizeLoggerMode mode) ≠ "") :
    trim (adifModeForLoggerMode (trim mode)) ≠ "" := by
  have hmode : normalizeLoggerMode (trim mode) = normalizeLoggerMode mode := by
    rw [normalizeLoggerMode, normalizeLoggerMode, trim, trim, String.toList_ofList,
      trimChars_trimChars]
  rw [adifModeForLoggerMode, hmode]
  split
  · decide
  · decide
  · exact h

omit [Platform] in
theorem ne_empty_of_trim {s : String} (h : trim s ≠ "") : s ≠ "" := by
  intro heq
  rw [heq] at h
  exact h (by decide)

section Record

variable {record : AdifRecord}

/-- A field of the contact comes back as the text it is exported as. -/
theorem get?_record (t : Typed contact) (hportable : Portable log rules contact)
    (hdate : qsoDatetimeAdif t.epoch.toInt = .ok (date, time))
    (h : contactFields contact log.stationCallsign = .ok fields)
    (hrecord : record.fields = readFields fields) {name exported : String}
    (hexported : normalizeFieldName name = exported) (hname : name ∈ importedNames rules)
    (hskip : shouldSkipField (normalizeAdifFieldName name) = false)
    (hother : exported ∉ ["", "QSO_DATE", "TIME_ON"]) {value : Value}
    (hvalue : contactAdifValue contact name = some value) {serialized : String}
    (hserialized : serializedValue exported value = some serialized)
    (hne : serialized ≠ "") :
    get? record.fields exported = some (readBack serialized) := by
  subst hexported
  have hnormal := normalizeFieldName_normalizeAdifFieldName name
  have hkey : normalizeAdifFieldName name ∉ ["QSO_DATE", "TIME_ON"] := by
    intro hmem
    apply hother
    rw [← hnormal]
    cases List.mem_pair.mp hmem with
    | inl heq =>
        rw [heq]
        decide
    | inr heq =>
        rw [heq]
        decide
  have hwritten := written_of_key hskip hkey
    (by rw [hnormal]; exact fun heq => hother (heq ▸ List.mem_cons_self))
    (by rw [hnormal]; exact hserialized) hne
  rw [hnormal] at hwritten
  rw [hrecord, readFields, get?_mapValues,
    get?_contactFields t hdate h (get?_writtenFields t hportable hname hvalue hwritten),
    Option.map_some]

/-- A field of the contact that is no time, frequency or mode is in the record as it is stored. -/
theorem get?_record_text (t : Typed contact) (hportable : Portable log rules contact)
    (hdate : qsoDatetimeAdif t.epoch.toInt = .ok (date, time))
    (h : contactFields contact log.stationCallsign = .ok fields)
    (hrecord : record.fields = readFields fields) {name exported : String}
    (hexported : normalizeFieldName name = exported) (hname : name ∈ importedNames rules)
    (hskip : shouldSkipField (normalizeAdifFieldName name) = false)
    (hother : exported ∉ ["", "QSO_DATE", "TIME_ON", "FREQ", "MODE"])
    {text : String} (htext : jsonString (contactAdifValue contact name) = some text)
    (hne : text ≠ "") (hline : SingleLine text) :
    get? record.fields exported = some text := by
  cases hvalue : contactAdifValue contact name with
  | none =>
      rw [hvalue] at htext
      cases htext
  | some value =>
      rw [hvalue] at htext
      have hserialized : serializedValue exported value = some text := by
        rw [serializedValue_eq, valueString_of_jsonString htext hline.trimmed]
        constructor
        · intro heq
          exact hother (by rw [heq]; decide)
        · intro heq
          exact hother (by rw [heq]; decide)
      have hmost : exported ∉ ["", "QSO_DATE", "TIME_ON"] :=
        fun hmem => hother (List.mem_of_mem_take (i := 3) hmem)
      rw [get?_record t hportable hdate h hrecord hexported hname hskip hmost hvalue hserialized
        hne, hline.readBack]

/-- The callsign of the station, from the contact or else from its log. -/
theorem get?_record_station (t : Typed contact) (hportable : Portable log rules contact)
    (hdate : qsoDatetimeAdif t.epoch.toInt = .ok (date, time))
    (h : contactFields contact log.stationCallsign = .ok fields)
    (hrecord : record.fields = readFields fields) :
    ∃ text, get? record.fields "STATION_CALLSIGN" = some text ∧ trim text ≠ "" := by
  have hname : "STATION_CALLSIGN" ∈ importedNames rules := List.mem_append_left _ (by decide)
  have htrim (s : String) : trim (trim s) = trim s := by
    rw [trim, trim, String.toList_ofList, trimChars_trimChars]
  by_cases hblank : trim t.station = ""
  · have hcallsign := (hportable.station t.station t.ofStation).resolve_left (· hblank)
    have hnone : get? (writtenFields t.adif date time) "STATION_CALLSIGN" = none := by
      rw [writtenFields, get?_not_written, get?_insert_of_ne _ _ (by decide),
        get?_insert_of_ne _ _ (by decide), get?_nil]
      intro entry hentry heq
      have hown := hportable.own "STATION_CALLSIGN" hname entry
      rw [t.fields] at hown
      have hkey := hown hentry heq
      have hvalue := get?_of_mem t.nodup (k := entry.1) (v := entry.2) hentry
      rw [hkey, ← contactAdifValue_eq t, t.ofStation] at hvalue
      have hentry' : entry = ("STATION_CALLSIGN", .string t.station) :=
        Prod.ext hkey (Option.some.inj hvalue).symm
      have hwritten : ¬(shouldSkipField "STATION_CALLSIGN" ||
          decide ("STATION_CALLSIGN" ∈ ["QSO_DATE", "TIME_ON"])) = true := by decide
      rw [hentry', written, if_neg hwritten]
      dsimp only
      rw [show normalizeFieldName "STATION_CALLSIGN" = "STATION_CALLSIGN" by decide,
        if_neg (by decide), serializedValue_eq (by decide), valueString, hblank,
        Option.filter_some, if_neg (by decide), Option.map_none]
    refine ⟨_, ?_, readBack_ne_empty hcallsign⟩
    rw [hrecord, readFields, get?_mapValues, contactFields_eq t hdate h, hnone, Option.isSome_none,
      Bool.false_or, if_neg (by simpa using ne_empty_of_trim hcallsign), get?_insert_self,
      Option.map_some]
  · refine ⟨_, ?_, readBack_ne_empty (s := trim t.station) (by rwa [htrim])⟩
    exact get?_record t hportable hdate h hrecord (by decide) hname (by decide) (by decide)
      t.ofStation (serializedValue_eq (by decide) (.string t.station)) hblank

theorem readsBack_contactFields (hexact : ExactDecimals) {persisted : PersistedContact}
    (hportable : Portable log rules persisted.contact) (hordinary : OrdinaryExchange rules)
    (h : contactFields persisted.contact log.stationCallsign = .ok fields)
    (hrecord : record.fields = readFields fields) : ReadsBack rules persisted.contact record := by
  obtain ⟨t⟩ := nonempty_typed persisted
  obtain ⟨date, time, hdate, hepoch, hdateDigits, htimeDigits⟩ :=
    exists_qsoDatetimeAdif (hportable.start t.epoch t.start)
  have htimes : get? (writtenFields t.adif date time) "QSO_DATE" = some date
      ∧ get? (writtenFields t.adif date time) "TIME_ON" = some time :=
    get?_writtenFields_time t hportable
  have hread {name text : String} (hget : get? (writtenFields t.adif date time) name = some text) :
      get? record.fields name = some (readBack text) := by
    rw [hrecord, readFields, get?_mapValues, get?_contactFields t hdate h hget, Option.map_some]
  have hpositive := (hportable.frequency t.hz t.frequency).1
  have hfrequency := singleLine_formatFrequencyMhz hpositive
  constructor
  case sorted =>
    rw [hrecord]
    exact (contactFields_exportFields h).sorted.mapValues readBack
  case names =>
    intro entry hentry
    rw [hrecord, readFields] at hentry
    obtain ⟨field, hfield, rfl⟩ := List.mem_map.mp hentry
    exact (contactFields_exportFields h).names field hfield
  case start =>
    refine ⟨t.epoch.toInt, date, time, t.start, ?_, ?_, hdateDigits, htimeDigits, hepoch⟩
    · rw [hread htimes.1, (singleLine_digits hdateDigits.2).readBack]
    · rw [hread htimes.2, (singleLine_digits htimeDigits.2).readBack]
  case frequency =>
    refine ⟨t.hz.toInt, formatFrequencyMhz t.hz.toInt, t.frequency, ?_, hfrequency.1,
      hfrequency.2.trimmed, ?_⟩
    · have hserialized : serializedValue "FREQ" (.ofI64 t.hz) =
          some (formatFrequencyMhz t.hz.toInt) := by
        rw [serializedValue, frequencyValueString]
        exact congrArg (Option.map formatFrequencyMhz) (Value.asI64_ofI64 t.hz)
      rw [← hfrequency.2.readBack]
      exact get?_record t hportable hdate h hrecord (by decide) (List.mem_append_left _ (by decide))
        (by decide) (by decide) t.frequency hserialized hfrequency.1
    · refine importFrequencyHz_formatFrequencyMhz hexact hpositive ?_
        (hportable.frequency t.hz t.frequency).2
      have hlt := t.hz.toInt_lt
      rw [i64Max]
      omega
  case station => exact get?_record_station t hportable hdate h hrecord
  case mode =>
    have hmode := trim_adifMode (hportable.mode t.mode t.ofMode)
    have hserialized : serializedValue "MODE" (.string t.mode) =
        some (adifModeForLoggerMode (trim t.mode)) := by
      rw [serializedValue, modeValueString, valueString, Option.map_some]
    refine ⟨_, ?_, readBack_ne_empty hmode⟩
    exact get?_record t hportable hdate h hrecord (by decide) (List.mem_append_left _ (by decide))
      (by decide) (by decide) t.ofMode hserialized (ne_empty_of_trim hmode)
  case call =>
    have hcall := hportable.call t.call t.ofCall
    refine ⟨t.call, t.ofCall, ?_, by rw [hcall.2.trimmed]; exact hcall.1⟩
    have hexported : normalizeFieldName "CALL" = "CALL" := by decide
    exact get?_record_text t hportable hdate h hrecord hexported
      (List.mem_append_left _ (by decide)) (by decide) (by decide) (by rw [t.ofCall]; rfl) hcall.1
      hcall.2
  case band =>
    have hband := hportable.band t.band t.ofBand
    refine ⟨t.band, t.ofBand, ?_, by rw [hband.2.trimmed]; exact hband.1⟩
    have hexported : normalizeFieldName "BAND" = "BAND" := by decide
    exact get?_record_text t hportable hdate h hrecord hexported
      (List.mem_append_left _ (by decide)) (by decide) (by decide) (by rw [t.ofBand]; rfl) hband.1
      hband.2
  case exchange =>
    intro field hfield
    obtain ⟨text, htext, hne, hline⟩ := hportable.exchange field hfield
    obtain ⟨hskip, -, hother⟩ := hordinary field hfield
    refine ⟨text, htext, ?_, by rw [hline.trimmed]; exact hne⟩
    exact get?_record_text t hportable hdate h hrecord rfl
      (List.mem_append_right _ (List.mem_map_of_mem hfield)) hskip hother htext hne hline

end Record

end Names

end Export

end Adif

end Log73
