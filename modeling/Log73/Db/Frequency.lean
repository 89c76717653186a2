import Mathlib.Algebra.Order.Round
import Mathlib.Data.Rat.Floor
import Log73.Db.Contacts

/-!
Frequencies in decimal arithmetic that is exact: what `db/contact.rs` stores for a contact's
`FREQ` and what the importer of `adif.rs` makes of the same text.
-/

namespace Log73

section Decimals

/-- `f64::round`, away from zero where two integers are as near. -/
def roundHertz (value : ℚ) : Int := if 0 ≤ value then round value else -round (-value)

def decimalFrequencyToHz (value : ℚ) : Int :=
  if |value| < 1000000 then roundHertz (value * 1000000) else roundHertz value

/-- A plain decimal text and what it denotes: digits, and maybe a point and digits. -/
inductive DecimalText : String → ℚ → Prop
  | whole {digits : List Char} (hne : digits ≠ []) (h : ∀ d ∈ digits, isAsciiDigit d = true) :
      DecimalText (String.ofList digits) (digitsValue digits)
  | point {digits fraction : List Char} (hne : digits ≠ []) (hfraction : fraction ≠ [])
      (h : ∀ d ∈ digits ++ fraction, isAsciiDigit d = true) :
      DecimalText (String.ofList (digits ++ '.' :: fraction))
        (digitsValue (digits ++ fraction) / 10 ^ fraction.length)

/-- A platform whose decimal arithmetic is exact on plain decimal texts. -/
structure ExactDecimals [Platform] : Prop where
  parse : ∀ text value, DecimalText text value → Platform.parseFloat text = some value
  hertz : ∀ text value, DecimalText text value →
    Platform.textFrequency text = some (decimalFrequencyToHz value)

end Decimals

section Import

variable [Platform]

/-- `import_frequency_hz`. -/
def importFrequencyHz (value : String) : Option Int :=
  let value := trim value
  if value = "" then none
  else
    match (parseI64 value).filter (1000 < ·) with
    | some integer => some integer
    | none =>
        ((Platform.parseFloat value).filter (0 < ·)).map fun mhz =>
          saturatedHertz (roundHertz (mhz * 1000000))

end Import

theorem roundHertz_of_nonneg {value : ℚ} (h : 0 ≤ value) : roundHertz value = round value :=
  if_pos h

theorem decimalFrequencyToHz_of_nonneg {value : ℚ} (h : 0 ≤ value) :
    decimalFrequencyToHz value =
      if value < 1000000 then round (value * 1000000) else round value := by
  rw [decimalFrequencyToHz, abs_of_nonneg h, roundHertz_of_nonneg (by positivity),
    roundHertz_of_nonneg h]

theorem DecimalText.nonneg {text : String} {value : ℚ} (h : DecimalText text value) :
    0 ≤ value := by
  cases h <;> positivity

/-- The characters of a plain decimal are digits and points. -/
theorem DecimalText.mem {text : String} {value : ℚ} (h : DecimalText text value) {c : Char}
    (hc : c ∈ text.toList) : isAsciiDigit c = true ∨ c = '.' := by
  cases h with
  | whole hne h =>
      rw [String.toList_ofList] at hc
      exact Or.inl (h c hc)
  | point hne hfraction h =>
      rw [String.toList_ofList, List.mem_append, List.mem_cons] at hc
      obtain hdigit | hpoint | hdigit := hc
      · exact Or.inl (h c (List.mem_append_left _ hdigit))
      · exact Or.inr hpoint
      · exact Or.inl (h c (List.mem_append_right _ hdigit))

theorem DecimalText.trim {text : String} {value : ℚ} (h : DecimalText text value) :
    trim text = text := by
  rw [Log73.trim, trimChars_eq_self, String.ofList_toList]
  intro c hc
  apply isWhitespace_of_printable
  · cases h.mem hc with
    | inl hdigit => have := (isAsciiDigit_iff c).mp hdigit; omega
    | inr hpoint => rw [hpoint]; decide
  · cases h.mem hc with
    | inl hdigit => have := (isAsciiDigit_iff c).mp hdigit; omega
    | inr hpoint => rw [hpoint]; decide

theorem DecimalText.ne_empty {text : String} {value : ℚ} (h : DecimalText text value) :
    text ≠ "" := by
  rw [Ne, ← String.toList_eq_nil_iff]
  cases h with
  | whole hne h => rwa [String.toList_ofList]
  | point hne hfraction h => simp

/-- Digits are read as an integer as far as 64 bits hold it. -/
theorem parseI64_digits {digits : List Char} (hne : digits ≠ [])
    (h : ∀ d ∈ digits, isAsciiDigit d = true) :
    parseI64 (String.ofList digits) =
      if (digitsValue digits : Int) ≤ i64Max then some (digitsValue digits : Int) else none := by
  have hparse : parseDigits digits = some (digitsValue digits) := by
    rw [parseDigits, if_neg]
    simpa [hne] using h
  have hread : parseI64 (String.ofList digits) =
      (some (digitsValue digits : Int)).filter fun value => i64Min ≤ value && value ≤ i64Max := by
    rw [parseI64, parseSigned, String.toList_ofList]
    congr 1
    split
    · next cs => exact absurd (h '-' List.mem_cons_self) (by decide)
    · next cs => exact absurd (h '+' List.mem_cons_self) (by decide)
    · rw [hparse]
      rfl
  have hmin : i64Min ≤ (digitsValue digits : Int) := by
    rw [i64Min]
    omega
  rw [hread, Option.filter_some]
  by_cases hmax : (digitsValue digits : Int) ≤ i64Max
  · simp [hmin, hmax]
  · simp [hmax]

theorem parseI64_point {digits : List Char} (h : ∀ d ∈ digits, isAsciiDigit d = true)
    (fraction : List Char) : parseI64 (String.ofList (digits ++ '.' :: fraction)) = none := by
  have hnone : parseDigits (digits ++ '.' :: fraction) = none := by
    rw [parseDigits, if_pos]
    simp [show isAsciiDigit '.' = false from by decide]
  rw [parseI64, parseSigned, String.toList_ofList]
  split
  · next cs heq =>
      cases digits with
      | nil => cases heq
      | cons d digits =>
          have hd := h d List.mem_cons_self
          rw [(List.cons_eq_cons.mp heq).1] at hd
          exact absurd hd (by decide)
  · next cs heq =>
      cases digits with
      | nil => cases heq
      | cons d digits =>
          have hd := h d List.mem_cons_self
          rw [(List.cons_eq_cons.mp heq).1] at hd
          exact absurd hd (by decide)
  · rw [hnone]
    rfl

/-- Hertz within 64 bits are kept. -/
theorem saturatedHertz_eq {hertz : Int} (h : 0 ≤ hertz) :
    saturatedHertz hertz = if hertz ≤ i64Max then hertz else i64Max := by
  rw [saturatedHertz]
  have hmin : i64Min ≤ hertz := le_trans (by decide) h
  split
  · next hmax => rw [min_eq_right hmax, max_eq_right hmin]
  · next hmax =>
      rw [min_eq_left (not_le.mp hmax |>.le)]
      decide

section Texts

variable [Platform] (hexact : ExactDecimals)

include hexact

theorem frequencyHz_point {digits fraction : List Char} {value : ℚ}
    (h : DecimalText (String.ofList (digits ++ '.' :: fraction)) value) :
    frequencyHz (some (.string (String.ofList (digits ++ '.' :: fraction)))) =
      some (saturatedHertz (decimalFrequencyToHz value)) := by
  rw [frequencyHz, if_pos (by simp), hexact.hertz _ _ h, Option.map_some]

/-- What the importer makes of a text that has no point. -/
theorem importFrequencyHz_whole {digits : List Char} (hne : digits ≠ [])
    (h : ∀ d ∈ digits, isAsciiDigit d = true) :
    importFrequencyHz (String.ofList digits) =
      if 1000 < digitsValue digits ∧ (digitsValue digits : Int) ≤ i64Max then
        some (digitsValue digits : Int)
      else if digitsValue digits = 0 then none
      else some (saturatedHertz ((digitsValue digits : Int) * 1000000)) := by
  have htext : DecimalText (String.ofList digits) (digitsValue digits) := .whole hne h
  rw [importFrequencyHz]
  rw [htext.trim, if_neg htext.ne_empty, parseI64_digits hne h, hexact.parse _ _ htext]
  by_cases hinteger : 1000 < digitsValue digits ∧ (digitsValue digits : Int) ≤ i64Max
  · rw [if_pos hinteger.2, if_pos hinteger]
    rw [Option.filter_some, if_pos (decide_eq_true (by exact_mod_cast hinteger.1))]
  · have hnone : (if (digitsValue digits : Int) ≤ i64Max then some (digitsValue digits : Int)
        else none).filter (1000 < ·) = none := by
      split
      · next hmax =>
          rw [Option.filter_some, if_neg]
          simp only [decide_eq_true_eq]
          exact fun hlarge => hinteger ⟨by omega, hmax⟩
      · rfl
    rw [hnone, if_neg hinteger]
    by_cases hzero : digitsValue digits = 0
    · simp [hzero]
    · have hpos : (0 : ℚ) < digitsValue digits := Nat.cast_pos.mpr (Nat.pos_of_ne_zero hzero)
      have hround : roundHertz ((digitsValue digits : ℚ) * 1000000) =
          (digitsValue digits : Int) * 1000000 := by
        rw [roundHertz_of_nonneg (by positivity)]
        exact_mod_cast round_intCast ((digitsValue digits : Int) * 1000000)
      simp [hzero, hpos, hround]

/-- What the importer makes of a text with a point. -/
theorem importFrequencyHz_point {digits fraction : List Char} {value : ℚ}
    (hdigits : ∀ d ∈ digits, isAsciiDigit d = true)
    (h : DecimalText (String.ofList (digits ++ '.' :: fraction)) value) :
    importFrequencyHz (String.ofList (digits ++ '.' :: fraction)) =
      if 0 < value then some (saturatedHertz (round (value * 1000000))) else none := by
  have hnonneg := h.nonneg
  rw [importFrequencyHz]
  rw [h.trim, if_neg h.ne_empty, parseI64_point hdigits, hexact.parse _ _ h, Option.filter_none,
    Option.filter_some]
  by_cases hpos : 0 < value
  · simp [hpos, roundHertz_of_nonneg (mul_nonneg hnonneg (by norm_num : (0 : ℚ) ≤ 1000000))]
  · simp [hpos]

end Texts

end Log73
