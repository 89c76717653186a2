import Log73.Db.Frequency
import Log73.Frontend.Frequency

/-!
One frequency as the database, the importer and the logger understand it. They differ on
whether a number without a decimal point, or a large one with a point, is in megahertz.
-/

namespace Log73.Frontend

open SortedAssoc

section Parsing

/-- A positive integer or a plain decimal text: the text that the importer would read, and what
it denotes. -/
inductive FrequencyValue : Value → String → ℚ → Prop
  | integer {n : Nat} (h : 0 < n) : FrequencyValue (.number (.int n)) (toString n) n
  | text {text : String} {value : ℚ} (h : DecimalText text value) :
      FrequencyValue (.string text) text value

theorem takeWhile_digits {digits rest : List Char} (h : ∀ d ∈ digits, isAsciiDigit d = true)
    (hrest : ∀ c ∈ rest.head?, isAsciiDigit c = false) :
    (digits ++ rest).takeWhile isAsciiDigit = digits
      ∧ (digits ++ rest).dropWhile isAsciiDigit = rest := by
  rw [List.takeWhile_append_of_pos h, List.dropWhile_append_of_pos h]
  cases rest with
  | nil => exact ⟨List.append_nil digits, rfl⟩
  | cons c rest =>
      have hc := hrest c rfl
      rw [List.takeWhile_cons_of_neg (by simp [hc]), List.dropWhile_cons_of_neg (by simp [hc])]
      exact ⟨List.append_nil digits, rfl⟩

theorem parseFloat_eq {text : String} {value : ℚ} (h : DecimalText text value) :
    parseFloat text = some value := by
  have hblank (c : Char) (hc : isAsciiDigit c = true) : isWhitespace c = false := by
    have hcode := (isAsciiDigit_iff c).mp hc
    rw [isWhitespace_eq ⟨by omega, by omega⟩]
    exact isWhitespace_of_printable (by omega) (by omega)
  have hread {digits : List Char} (rest : List Char) (hne : digits ≠ [])
      (hdigits : ∀ d ∈ digits, isAsciiDigit d = true) :
      parseFloat (String.ofList (digits ++ rest)) = unsignedDecimal (digits ++ rest) := by
    cases digits with
    | nil => exact absurd rfl hne
    | cons d digits =>
        have hd := hdigits d List.mem_cons_self
        rw [parseFloat, String.toList_ofList, List.cons_append,
          List.dropWhile_cons_of_neg (by simp [hblank d hd])]
        split
        · next cs heq =>
            rw [(List.cons_eq_cons.mp heq).1] at hd
            exact absurd hd (by decide)
        · next cs heq =>
            rw [(List.cons_eq_cons.mp heq).1] at hd
            exact absurd hd (by decide)
        · rfl
  cases h with
  | @whole digits hne hdigits =>
      have hparts := takeWhile_digits hdigits (fun c (hc : c ∈ [].head?) => by cases hc)
      have htext := hread [] hne hdigits
      rw [List.append_nil] at hparts htext
      rw [htext, unsignedDecimal, hparts.1, hparts.2]
      simp [hne, parseExponent]
  | @point digits fraction hne hfraction hdigits =>
      have hwhole : ∀ d ∈ digits, isAsciiDigit d = true :=
        fun d hd => hdigits d (List.mem_append_left _ hd)
      have hparts := @takeWhile_digits digits ('.' :: fraction) hwhole fun c hc => by
        obtain rfl := Option.some.inj hc
        decide
      have hafter := takeWhile_digits (fun d hd => hdigits d (List.mem_append_right _ hd))
        (fun c (hc : c ∈ [].head?) => by cases hc)
      rw [List.append_nil] at hafter
      rw [hread _ hne hwhole, unsignedDecimal, hparts.1, hparts.2]
      simp [hne, hafter.1, hafter.2, parseExponent]

theorem FrequencyValue.parseNumber {value : Value} {text : String} {frequency : ℚ}
    (h : FrequencyValue value text frequency) : parseNumber value = some frequency := by
  cases h with
  | integer _ => simp [Frontend.parseNumber]
  | text h => exact parseFloat_eq h

theorem FrequencyValue.decimal {value : Value} {text : String} {frequency : ℚ}
    (h : FrequencyValue value text frequency) : DecimalText text frequency := by
  cases h with
  | @integer n _ =>
      have htext : toString n = String.ofList (Nat.toDigits 10 n) := by
        rw [← Nat.toList_repr, String.ofList_toList]
        rfl
      have hvalue : digitsValue (Nat.toDigits 10 n) = n := Nat.ofDigitChars_ten_toDigits
      have hwhole := DecimalText.whole Nat.toDigits_ne_nil
        fun d (hd : d ∈ Nat.toDigits 10 n) => isAsciiDigit_of_mem_toDigits hd
      rwa [hvalue, ← htext] at hwhole
  | text h => exact h

end Parsing

section Agreement

variable [Platform]

attribute [local instance] exactNumbers

/-- What the three make of a value is the same where each takes it: the hertz that are stored, those
that are imported from its text, and those of the logger, which are 0 for a value that is none. -/
def FrequenciesAgree (value : Value) (text : String) : Prop :=
  ∀ stored imported, frequencyHz (some value) = some stored →
    importFrequencyHz text = some imported → normalizedContactFrequencyHz value ≠ 0 →
    stored = imported ∧ normalizedContactFrequencyHz value = imported
      ∧ ∀ contact : OutboxContact, get? contact.adif "FREQ" = some value →
        ((get? contact.details "source").bind Value.asStr) ≠ some "wsjtx" →
        get? (normalizeContact contact).adif "FREQ" = some (.ofInt imported)

/-- A value whose unit is told alike: a number is in hertz, and is at least a megahertz; text with
a point is in megahertz, and is less than a million of them, unless the hertz and the megahertz
are both too many for 64 bits; text without a point is zero or in hertz, as a number is. -/
def UnitTold (value : Value) (frequency : ℚ) : Prop :=
  match value with
  | .string text =>
      if '.' ∈ text.toList then frequency < 1000000 ∨ round frequency = i64Max
      else frequency = 0 ∨ 1000000 ≤ frequency
  | _ => 1000000 ≤ frequency ∧ frequency ≤ i64Max

omit [Platform] in
theorem roundedHertz_of_nonneg {frequency : ℚ} (h : 0 ≤ frequency) :
    roundedHertz frequency = decimalFrequencyToHz frequency := by
  rw [roundedHertz, decimalFrequencyToHz_of_nonneg h, abs_of_nonneg h]
  split
  · rfl
  · rfl

omit [Platform] in
theorem normalizedContactFrequencyHz_eq {value : Value} {text : String} {frequency : ℚ}
    (h : FrequencyValue value text frequency) :
    normalizedContactFrequencyHz value = decimalFrequencyToHz frequency := by
  have hnonneg := h.decimal.nonneg
  rw [normalizedContactFrequencyHz, h.parseNumber]
  dsimp only
  rw [roundedHertz_of_nonneg hnonneg]
  split
  · next hzero =>
      rw [le_antisymm hzero hnonneg]
      decide +kernel
  · rfl

/-- The logger has one answer, which both of its functions give. -/
theorem frequenciesAgree_iff {value : Value} {text : String} {frequency : ℚ}
    (h : FrequencyValue value text frequency) :
    FrequenciesAgree value text ↔ ∀ stored imported, frequencyHz (some value) = some stored →
      importFrequencyHz text = some imported → decimalFrequencyToHz frequency ≠ 0 →
      stored = imported ∧ decimalFrequencyToHz frequency = imported := by
  rw [FrequenciesAgree, normalizedContactFrequencyHz_eq h]
  refine forall₂_congr fun stored imported => forall₃_congr fun hstored himported hne => ?_
  constructor
  · intro hall
    exact ⟨hall.1, hall.2.1⟩
  · intro hboth
    refine ⟨hboth.1, hboth.2, fun contact hfreq hsource => ?_⟩
    rw [normalizeContact, if_neg hsource, hfreq, Option.bind_some]
    have hrounded : BrowserNumbers.roundedHertz value = some imported := by
      rw [← hboth.2, ← roundedHertz_of_nonneg h.decimal.nonneg]
      show (parseNumber value).map roundedHertz = _
      rw [h.parseNumber, Option.map_some]
    rw [hrounded]
    exact get?_insert_self _ _ _

omit [Platform] in
theorem decimalFrequencyToHz_natCast (n : Nat) :
    decimalFrequencyToHz n = if n < 1000000 then (n : Int) * 1000000 else n := by
  rw [decimalFrequencyToHz_of_nonneg (Nat.cast_nonneg n)]
  have hlt : (n : ℚ) < 1000000 ↔ n < 1000000 := by exact_mod_cast Iff.rfl
  by_cases hsmall : n < 1000000
  · rw [if_pos (hlt.mpr hsmall), if_pos hsmall]
    exact_mod_cast round_intCast ((n : Int) * 1000000)
  · rw [if_neg (mt hlt.mp hsmall), if_neg hsmall]
    exact_mod_cast round_intCast (n : Int)

/-- The importer takes the text of a number that is not zero. -/
theorem importFrequencyHz_toString (hexact : ExactDecimals) {n : Nat} (h : 0 < n) :
    importFrequencyHz (toString n) =
      if 1000 < n ∧ (n : Int) ≤ i64Max then some (n : Int)
      else some (saturatedHertz ((n : Int) * 1000000)) := by
  have htext : toString n = String.ofList (Nat.toDigits 10 n) := by
    rw [← Nat.toList_repr, String.ofList_toList]
    rfl
  have hvalue : digitsValue (Nat.toDigits 10 n) = n := Nat.ofDigitChars_ten_toDigits
  rw [htext, importFrequencyHz_whole hexact Nat.toDigits_ne_nil
    fun d hd => isAsciiDigit_of_mem_toDigits hd, hvalue, if_neg (by omega : ¬ n = 0)]

theorem integers_agree_iff (hexact : ExactDecimals) {n : Nat} (h : 0 < n) :
    FrequenciesAgree (.number (.int n)) (toString n) ↔
      UnitTold (.number (.int n)) n := by
  have htold : UnitTold (.number (.int n)) n ↔ 1000000 ≤ n ∧ (n : Int) ≤ i64Max := by
    show (1000000 ≤ (n : ℚ) ∧ (n : ℚ) ≤ i64Max) ↔ _
    exact and_congr (by exact_mod_cast Iff.rfl) (by exact_mod_cast Iff.rfl)
  rw [frequenciesAgree_iff (.integer h), htold, importFrequencyHz_toString hexact h,
    decimalFrequencyToHz_natCast, frequencyHz, saturatedHertz_eq (Int.natCast_nonneg n)]
  constructor
  · intro hagree
    have hsame : (if (n : Int) ≤ i64Max then (n : Int) else i64Max) =
        if n < 1000000 then (n : Int) * 1000000 else n := by
      have hne : (if n < 1000000 then (n : Int) * 1000000 else n) ≠ 0 := by split <;> omega
      by_cases hinteger : 1000 < n ∧ (n : Int) ≤ i64Max
      · have hboth := hagree _ _ rfl (if_pos hinteger) hne
        exact hboth.1.trans hboth.2.symm
      · have hboth := hagree _ _ rfl (if_neg hinteger) hne
        exact hboth.1.trans hboth.2.symm
    simp only [i64Max] at hsame ⊢
    split_ifs at hsame <;> omega
  · intro htold stored imported hstored himported _
    have hinteger : 1000 < n ∧ (n : Int) ≤ i64Max := ⟨by omega, htold.2⟩
    rw [if_pos htold.2] at hstored
    rw [if_pos hinteger] at himported
    obtain rfl := Option.some.inj hstored
    obtain rfl := Option.some.inj himported
    exact ⟨rfl, if_neg (by omega)⟩

theorem whole_texts_agree_iff (hexact : ExactDecimals) {digits : List Char} (hne : digits ≠ [])
    (h : ∀ d ∈ digits, isAsciiDigit d = true) :
    FrequenciesAgree (.string (String.ofList digits)) (String.ofList digits) ↔
      UnitTold (.string (String.ofList digits)) (digitsValue digits) := by
  have hpoint : '.' ∉ digits := fun hmem => absurd (h _ hmem) (by decide)
  have htold : UnitTold (.string (String.ofList digits)) (digitsValue digits) ↔
      digitsValue digits = 0 ∨ 1000000 ≤ digitsValue digits := by
    rw [UnitTold, String.toList_ofList, if_neg hpoint]
    exact or_congr (by exact_mod_cast Iff.rfl) (by exact_mod_cast Iff.rfl)
  have hstored : frequencyHz (some (.string (String.ofList digits))) =
      if (digitsValue digits : Int) ≤ i64Max then some (digitsValue digits : Int) else none := by
    rw [frequencyHz, if_neg (by simpa using hpoint), parseI64_digits hne h]
  rw [frequenciesAgree_iff (.text (.whole hne h)), htold, hstored,
    importFrequencyHz_whole hexact hne h,
    decimalFrequencyToHz_natCast]
  generalize digitsValue digits = n
  constructor
  · intro hagree
    by_contra hmega
    rw [not_or] at hmega
    have hmax : (n : Int) ≤ i64Max := by rw [i64Max]; omega
    rw [if_pos hmax] at hagree
    have hne : (if n < 1000000 then (n : Int) * 1000000 else n) ≠ 0 := by split <;> omega
    have hsame : (n : Int) = if n < 1000000 then (n : Int) * 1000000 else n := by
      by_cases hinteger : 1000 < n ∧ (n : Int) ≤ i64Max
      · have hboth := hagree _ _ rfl (if_pos hinteger) hne
        exact hboth.1.trans hboth.2.symm
      · have hboth := hagree _ _ rfl ((if_neg hinteger).trans (if_neg hmega.1)) hne
        exact hboth.1.trans hboth.2.symm
    rw [if_pos (by omega)] at hsame
    omega
  · intro htold stored imported hstored himported _
    cases htold with
    | inl hzero =>
        rw [if_neg (by omega), if_pos hzero] at himported
        cases himported
    | inr hlarge =>
        split at hstored
        · next hmax =>
            rw [if_pos ⟨by omega, hmax⟩] at himported
            obtain rfl := Option.some.inj hstored
            obtain rfl := Option.some.inj himported
            exact ⟨rfl, if_neg (by omega)⟩
        · cases hstored

omit [Platform] in
theorem round_le_round {a b : ℚ} (h : a ≤ b) : round a ≤ round b := by
  rw [round_eq, round_eq]
  exact Int.floor_le_floor (by linarith)

omit [Platform] in
/-- A million megahertz and more are more than as many hertz. -/
theorem round_lt_round_megahertz {value : ℚ} (h : 1000000 ≤ value) :
    1000000 ≤ round value ∧ round value + 1 ≤ round (value * 1000000) := by
  constructor
  · have hround : round (1000000 : ℚ) = 1000000 := by exact_mod_cast round_intCast (1000000 : Int)
    rw [← hround]
    exact round_le_round h
  · rw [← round_add_one]
    exact round_le_round (by linarith)

theorem pointed_texts_agree_iff (hexact : ExactDecimals) {digits fraction : List Char} {value : ℚ}
    (hdigits : ∀ d ∈ digits, isAsciiDigit d = true)
    (h : DecimalText (String.ofList (digits ++ '.' :: fraction)) value) :
    FrequenciesAgree (.string (String.ofList (digits ++ '.' :: fraction)))
        (String.ofList (digits ++ '.' :: fraction)) ↔
      UnitTold (.string (String.ofList (digits ++ '.' :: fraction))) value := by
  have hnonneg := h.nonneg
  have htold : UnitTold (.string (String.ofList (digits ++ '.' :: fraction))) value ↔
      value < 1000000 ∨ round value = i64Max := by
    rw [UnitTold, String.toList_ofList, if_pos (by simp)]
  rw [frequenciesAgree_iff (.text h), htold, frequencyHz_point hexact h,
    importFrequencyHz_point hexact hdigits h, decimalFrequencyToHz_of_nonneg hnonneg]
  constructor
  · intro hagree
    by_contra hlarge
    rw [not_or, not_lt] at hlarge
    obtain ⟨hmega, hmax⟩ := hlarge
    obtain ⟨hhertz, hmore⟩ := round_lt_round_megahertz hmega
    rw [if_neg (not_lt.mpr hmega), if_pos (by linarith)] at hagree
    have hsame := (hagree _ _ rfl rfl (by omega)).2
    rw [saturatedHertz_eq (by omega)] at hsame
    split at hsame
    · omega
    · exact hmax hsame
  · intro htold stored imported hstored himported _
    have hpos : 0 < value := by
      by_contra hzero
      rw [if_neg hzero] at himported
      cases himported
    rw [if_pos hpos] at himported
    obtain rfl := Option.some.inj hstored
    obtain rfl := Option.some.inj himported
    by_cases hsmall : value < 1000000
    · rw [if_pos hsmall]
      have hround : round (1000000000000 : ℚ) = 1000000000000 := by
        exact_mod_cast round_intCast (1000000000000 : Int)
      have hbound : round (value * 1000000) ≤ 1000000000000 := by
        rw [← hround]
        exact round_le_round (by linarith)
      have hzero : 0 ≤ round (value * 1000000) := by
        have hnone : round (0 : ℚ) = 0 := round_zero
        rw [← hnone]
        exact round_le_round (by positivity)
      rw [saturatedHertz_eq hzero, if_pos (by rw [i64Max]; omega)]
      exact ⟨rfl, rfl⟩
    · rw [if_neg hsmall]
      have hmax := htold.resolve_left hsmall
      obtain ⟨-, hmore⟩ := round_lt_round_megahertz (not_lt.mp hsmall)
      rw [hmax] at hmore ⊢
      rw [saturatedHertz_eq (by decide), if_pos le_rfl, saturatedHertz_eq
        ((by decide : 0 ≤ i64Max + 1).trans hmore), if_neg (by omega)]
      exact ⟨rfl, rfl⟩

/-- The database, the importer and the logger agree on a frequency exactly when its unit is told
alike. -/
theorem frequencies_agree_iff (hexact : ExactDecimals) {value : Value} {text : String}
    {frequency : ℚ} (h : FrequencyValue value text frequency) :
    FrequenciesAgree value text ↔ UnitTold value frequency := by
  cases h with
  | integer h => exact integers_agree_iff hexact h
  | text h =>
      cases h with
      | whole hne hdigits => exact whole_texts_agree_iff hexact hne hdigits
      | point hne hfraction hdigits =>
          exact pointed_texts_agree_iff hexact
            (fun d hd => hdigits d (List.mem_append_left _ hd)) (.point hne hfraction hdigits)

end Agreement

end Log73.Frontend

namespace Log73

/-- A platform that computes with exact decimals. -/
@[reducible] def exactPlatform : Platform where
  upper c := [c]
  floatText _ := ""
  parseFloat := Frontend.parseFloat
  haversineKilometers _ _ := 0
  floatFrequency := decimalFrequencyToHz
  textFrequency text := (Frontend.parseFloat text).map decimalFrequencyToHz

attribute [local instance] exactPlatform

namespace Frontend

theorem exactDecimals : ExactDecimals where
  parse _ _ h := parseFloat_eq h
  hertz text value h := by
    show (parseFloat text).map decimalFrequencyToHz = _
    rw [parseFloat_eq h, Option.map_some]

/-- A frequency of the 630 m band, in hertz. -/
theorem not_frequencies_agree_630m :
    ExactDecimals ∧ FrequencyValue (.number (.int (472500 : Nat))) (toString 472500) (472500 : Nat)
      ∧ frequencyHz (some (.number (.int (472500 : Nat)))) = some 472500
      ∧ importFrequencyHz (toString 472500) = some 472500
      ∧ normalizedContactFrequencyHz (.number (.int (472500 : Nat))) = 472500000000
      ∧ ¬ FrequenciesAgree (.number (.int (472500 : Nat))) (toString 472500) := by
  have hvalue : FrequencyValue (.number (.int (472500 : Nat))) (toString 472500) (472500 : Nat) :=
    .integer (by decide)
  have hstored : frequencyHz (some (.number (.int (472500 : Nat)))) = some 472500 := rfl
  have himported : importFrequencyHz (toString 472500) = some 472500 :=
    (importFrequencyHz_toString exactDecimals (by decide)).trans (if_pos (by decide))
  have hlogger : normalizedContactFrequencyHz (.number (.int (472500 : Nat))) = 472500000000 :=
    (normalizedContactFrequencyHz_eq hvalue).trans (decimalFrequencyToHz_natCast 472500)
  refine ⟨exactDecimals, hvalue, hstored, himported, hlogger, fun hagree => ?_⟩
  have hboth := hagree _ _ hstored himported (by rw [hlogger]; decide)
  rw [hlogger] at hboth
  exact absurd hboth.2.1 (by decide)

theorem frequencies_agree_iff_20m :
    FrequenciesAgree (.number (.int (14074000 : Nat))) (toString 14074000) ↔
      UnitTold (.number (.int (14074000 : Nat))) (14074000 : Nat) :=
  frequencies_agree_iff exactDecimals (.integer (by decide))

end Frontend

end Log73
