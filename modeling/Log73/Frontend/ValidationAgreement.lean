import Log73.Frontend.ConditionAgreement
import Log73.Library.Checks
import Log73.Library.Utf8

/-!
What the frontend accepts against what the backend accepts of it. The two validators
make the same tests on the submitted text, but only the backend limits its length, and
the form decides from the fields it is given whether a text is asked for at all.
-/

namespace Log73.Frontend

section Digits

theorem toNat_lt_of_le {c d : Char} (h : c ≤ d) (hd : d.toNat < 128) : c.toNat < 128 :=
  Nat.lt_of_le_of_lt (UInt32.le_iff_toNat_le.mp h) hd

/-- Digits are one byte and one code unit each. -/
theorem isValidRst_eq (value : String) {expectedLength : Nat}
    (hexpected : expectedLength = 2 ∨ expectedLength = 3) :
    Validation.isValidRst value expectedLength =
      (matchesRst value && length value == expectedLength) := by
  have hascii (h : ∀ c ∈ value.toList, c.toNat < 128) :
      value.utf8ByteSize = value.toList.length ∧ length value = value.toList.length := by
    have hsize := Utf8.utf8ByteSize_ascii h
    rw [String.ofList_toList] at hsize
    exact ⟨hsize, units_length fun c hc => (h c hc).trans (by decide)⟩
  rw [Bool.eq_iff_iff, Validation.isValidRst, matchesRst]
  cases hlist : value.toList with
  | nil => simp
  | cons c cs =>
      rw [hlist] at hascii
      simp only [Bool.and_eq_true, decide_eq_true_eq, List.all_eq_true, Bool.or_eq_true,
        beq_iff_eq, List.length_cons] at hascii ⊢
      have hone (hc : c ≤ '5') (hcs : ∀ d ∈ cs, '1' ≤ d ∧ d ≤ '9') :
          value.utf8ByteSize = cs.length + 1 ∧ length value = cs.length + 1 := by
        refine hascii fun d hd => ?_
        cases List.mem_cons.mp hd with
        | inl heq => exact toNat_lt_of_le (heq ▸ hc) (by decide)
        | inr hmem => exact toNat_lt_of_le (hcs d hmem).2 (by decide)
      constructor
      · intro h
        obtain ⟨⟨⟨hbytes, -⟩, -⟩, hc, hcs⟩ := h
        obtain ⟨hsize, hlength⟩ := hone hc.2 hcs
        exact ⟨⟨⟨hc, by omega⟩, hcs⟩, by omega⟩
      · intro h
        obtain ⟨⟨⟨hc, -⟩, hcs⟩, hunits⟩ := h
        obtain ⟨hsize, hlength⟩ := hone hc.2 hcs
        exact ⟨⟨⟨by omega, by omega⟩, by omega⟩, hc, hcs⟩

end Digits

section Tests

variable [Platform]

theorem kind_asSpec (input : FieldInput) (radioMode : String) :
    (Validation.parseFieldType (Validation.asSpec input) radioMode).kind =
      Validation.kindName input.kind := by
  have hcolon : ':' ∉ (Validation.kindName input.kind).toList := by
    cases input.kind <;> decide
  have hname : toUppercase (Log73.trim (Validation.kindName input.kind)) =
      Validation.kindName input.kind := by
    cases input.kind <;> rfl
  have hhead : ((splitOnChar ':' (Validation.asSpec input).toList).map String.ofList).head? =
      some (Validation.kindName input.kind) := by
    rw [Validation.asSpec]
    cases input.maxLength with
    | none => simp [splitOnChar_eq_singleton hcolon]
    | some maxLength =>
        have hlist : (Validation.kindName input.kind ++ ":" ++ toString maxLength).toList =
            (Validation.kindName input.kind).toList ++ ':' :: (toString maxLength).toList := by
          simp
        simp only [hlist, splitOnChar_append hcolon, List.map_cons, String.ofList_toList,
          List.head?_cons]
  rw [Validation.parseFieldType]
  simp only [hhead, Option.getD_some, hname]

theorem toUpperCase_kindText (kind : FieldInputKind) :
    toUpperCase (kindText kind) = Validation.kindName kind := by
  cases kind <;> rfl

variable [RegexEngine]

/-- The tests of a field apart from the length: its kind, its values and its pattern. -/
def PassesTests (field : ExchangeField) (value radioMode : String) : Prop :=
  Validation.validateKind field.label
      (Validation.parseFieldType (Validation.asSpec field.input) radioMode) value radioMode = .ok ()
    ∧ ∃ verdict, Validation.matchesRegex field.label field.validation.pattern value = .ok verdict
      ∧ Validation.validationMatches field.validation.values field.validation.pattern
        (field.validation.matchMode = .any) value verdict = true

/-- The greatest number of characters the backend takes. -/
def maxLength (field : ExchangeField) (radioMode : String) : Nat :=
  (Validation.parseFieldType (Validation.asSpec field.input) radioMode).maxLength

theorem validateTypedField_ok_iff (field : ExchangeField) {value : String}
    (hvalue : Callsign.normalize value = value) (radioMode : String) :
    Validation.validateTypedField field.label (Validation.asSpec field.input) value
        field.validation.values field.validation.pattern (field.validation.matchMode = .any)
        radioMode = .ok () ↔
      value ≠ "" ∧ value.length ≤ maxLength field radioMode
        ∧ PassesTests field value radioMode := by
  have hnormal : toUppercase (Log73.trim value) = value := hvalue
  rw [Validation.validateTypedField, hnormal, PassesTests, maxLength]
  rw [Checks.ite_error_eq_ok, Checks.ite_error_eq_ok, Nat.not_lt]
  refine and_congr (not_congr (by simp)) (and_congr_right fun _ => ?_)
  constructor
  · intro h
    obtain ⟨⟨⟩, hkind, hrest⟩ := Checks.bind_eq_ok.mp h
    obtain ⟨verdict, hverdict, hmatch⟩ := Checks.bind_eq_ok.mp hrest
    exact ⟨hkind, verdict, hverdict, Checks.ite_eq_ok.mp hmatch⟩
  · intro h
    obtain ⟨hkind, verdict, hverdict, hmatch⟩ := h
    exact Checks.bind_eq_ok.mpr ⟨(), hkind,
      Checks.bind_eq_ok.mpr ⟨verdict, hverdict, Checks.ite_eq_ok.mpr hmatch⟩⟩

omit [RegexEngine] in
/-- Both sides test the kind of a field alike. -/
theorem validateKind_ok_iff (field : ExchangeField) {value radioMode mode : String}
    (hvalue : value ≠ "") (hmode : modeIsCw radioMode = Validation.modeIsCw mode) :
    validateKind field value radioMode = .ok () ↔
      Validation.validateKind field.label
        (Validation.parseFieldType (Validation.asSpec field.input) mode) value mode = .ok () := by
  have hexpected : (if Validation.modeIsCw mode then 3 else 2) = 2
      ∨ (if Validation.modeIsCw mode then 3 else 2) = 3 := by
    split
    · exact Or.inr rfl
    · exact Or.inl rfl
  rw [validateKind, Validation.validateKind, kind_asSpec, toUpperCase_kindText, hmode]
  dsimp only
  by_cases hrst : Validation.kindName field.input.kind = "RST"
  · rw [if_pos hrst, if_pos hrst, Checks.ite_error_eq_ok, Checks.ite_error_eq_ok,
      isValidRst_eq value hexpected]
    simp
  · have hempty : value.toList.isEmpty = false := by simpa using hvalue
    rw [if_neg hrst, if_neg hrst, Checks.ite_error_eq_ok, Checks.ite_error_eq_ok, matchesDigits,
      hempty, Bool.not_false, Bool.true_and]

/-- A field and a typed value whose comparison leaves no room for the small differences of the two
languages: what is trimmed, the folding of letters outside ASCII in the value sets, and the case in
which a pattern sees the value. -/
structure Aligned (field : ExchangeField) (value radioMode : String) : Prop where
  kept : Log73.trim (submittedValue value) = submittedValue value
  mode : Plain radioMode
  pattern : field.validation.pattern ≠ some ""
  values : ∀ validValue ∈ field.validation.values,
    (toUpperCase validValue = submittedValue value ↔
      toAsciiUppercase validValue = submittedValue value)
  regex : ∀ pattern regex, field.validation.pattern = some pattern →
    RegexEngine.compile pattern = .ok regex → regex (trim value) = regex (submittedValue value)

section Submitted

omit [Platform] [RegexEngine] in
theorem trim_trim_value (value : String) : trim (trim value) = trim value := by
  rw [trim, trim, String.toList_ofList, trimChars, trimChars]
  exact congrArg String.ofList (Trimming.trimWith_trimWith _)

variable {field : ExchangeField} {value radioMode : String} (h : Aligned field value radioMode)
include h

theorem normalize_submittedValue (law : UppercaseLaw) :
    Callsign.normalize (submittedValue value) = submittedValue value := by
  rw [Callsign.normalize, h.kept]
  exact toUppercase_idem law _

theorem matchesRegex_iff (verdict : Bool) :
    matchesRegex field (trim value) = .ok verdict ↔
      Validation.matchesRegex field.label field.validation.pattern (submittedValue value) =
        .ok verdict := by
  rw [matchesRegex]
  unfold Validation.matchesRegex
  cases hpattern : field.validation.pattern with
  | none => exact Iff.rfl
  | some pattern =>
      have hne : pattern ≠ "" := fun heq => h.pattern (heq ▸ hpattern)
      dsimp only
      rw [if_neg hne]
      cases hcompile : RegexEngine.compile pattern with
      | error _ => exact iff_of_false (fun heq => by cases heq) (fun heq => by cases heq)
      | ok regex =>
          dsimp only
          rw [h.regex pattern regex hpattern hcompile]

theorem any_values_eq (law : UppercaseLaw) :
    (field.validation.values.any fun validValue => toUpperCase validValue = submittedValue value) =
      field.validation.values.any (eqIgnoreAsciiCase · (submittedValue value)) := by
  have hupper : toAsciiUppercase (submittedValue value) = submittedValue value :=
    toAsciiUppercase_toUppercase law _
  rw [Bool.eq_iff_iff, List.any_eq_true, List.any_eq_true]
  refine exists_congr fun validValue => and_congr_right fun hmem => ?_
  rw [decide_eq_true_eq, h.values validValue hmem, eqIgnoreAsciiCase, hupper, beq_iff_eq]

theorem validationMatches_eq (law : UppercaseLaw) (verdict : Bool) :
    validationMatches field (submittedValue value) verdict =
      Validation.validationMatches field.validation.values field.validation.pattern
        (field.validation.matchMode = .any) (submittedValue value) verdict := by
  have hpattern : field.validation.pattern.any (· ≠ "") = !field.validation.pattern.isNone := by
    have hne := h.pattern
    cases hp : field.validation.pattern with
    | none => rfl
    | some pattern => simpa [hp] using hne
  rw [validationMatches, Validation.validationMatches, any_values_eq h law, hpattern]
  cases field.validation.values.isEmpty <;> cases field.validation.pattern.isNone <;>
    cases decide (field.validation.matchMode = .any) <;> rfl

/-- The frontend accepts what passes the tests on the submitted text. -/
theorem validateConfiguredField_ok_iff (law : UppercaseLaw) {mode : String}
    (hmode : modeIsCw radioMode = Validation.modeIsCw mode) (hvalue : submittedValue value ≠ "") :
    validateConfiguredField field value radioMode = .ok () ↔
      PassesTests field (submittedValue value) mode := by
  have hblank : trim value ≠ "" := mt (toUppercase_eq_empty law).mpr hvalue
  have hsubmitted : toUpperCase (trim value) = submittedValue value := rfl
  rw [validateConfiguredField, if_neg hblank, validateSingleValue, trim_trim_value, hsubmitted,
    PassesTests, ← validateKind_ok_iff field hvalue hmode]
  constructor
  · intro hok
    obtain ⟨⟨⟩, hkind, hrest⟩ := Checks.bind_eq_ok.mp hok
    obtain ⟨verdict, hverdict, hmatch⟩ := Checks.bind_eq_ok.mp hrest
    refine ⟨hkind, verdict, (matchesRegex_iff h verdict).mp hverdict, ?_⟩
    rw [← validationMatches_eq h law]
    by_contra hfalse
    rw [if_neg hfalse] at hmatch
    split at hmatch <;> cases hmatch
  · intro hpasses
    obtain ⟨hkind, verdict, hverdict, hmatch⟩ := hpasses
    rw [← validationMatches_eq h law] at hmatch
    exact Checks.bind_eq_ok.mpr ⟨(), hkind, Checks.bind_eq_ok.mpr
      ⟨verdict, (matchesRegex_iff h verdict).mpr hverdict, if_pos hmatch⟩⟩

end Submitted

/-- A text that is blank is accepted where nothing is required. -/
theorem validateConfiguredField_blank (field : ExchangeField) {value : String} (radioMode : String)
    (hblank : trim value = "") :
    validateConfiguredField field value radioMode = .ok () ↔ field.validation.required = false := by
  rw [validateConfiguredField, if_pos hblank]
  cases field.validation.required with
  | false => exact iff_of_true rfl rfl
  | true => exact iff_of_false (fun h => by cases h) (fun h => by cases h)

end Tests

section Agreement

variable [Platform] [Browser] [RegexEngine]

/-- Whether a field applies, as the frontend decides it. -/
def fieldApplies (field : ExchangeField) (conditionFields conditionMeta : Map) : Bool :=
  field.onlyWhen.all fun condition => conditionApplies condition conditionFields conditionMeta

/-- The form holds what the contact holds, under the names that a condition reads. -/
def Shown (condition : ScoringCondition) (form formMeta fields metadata : Map) : Prop :=
  ∀ name ∈ conditionNames condition,
    rawAdifValue form (normalizeConditionValue name) =
        rawAdifValue fields (normalizeConditionValue name)
      ∧ SortedAssoc.get? formMeta name = SortedAssoc.get? metadata name

omit [RegexEngine] in
theorem conditionApplies_shown {condition : ScoringCondition} {form formMeta fields metadata : Map}
    (h : Shown condition form formMeta fields metadata) :
    conditionApplies condition form formMeta = conditionApplies condition fields metadata := by
  have hlookup : ∀ name ∈ conditionNames condition,
      lookupConditionValue name form formMeta = lookupConditionValue name fields metadata := by
    intro name hname
    rw [lookupConditionValue, lookupConditionValue, (h name hname).1, (h name hname).2]
  have hfield := hlookup condition.field List.mem_cons_self
  have hall (names : Option String) (test : String → Bool)
      (hnames : ∀ name ∈ names, name ∈ conditionNames condition) :
      (names.all fun name => test (lookupConditionValue name form formMeta)) =
        names.all fun name => test (lookupConditionValue name fields metadata) := by
    cases names with
    | none => rw [Option.all_none, Option.all_none]
    | some name => rw [Option.all_some, Option.all_some, hlookup name (hnames name rfl)]
  have hmatch (value : String) := hall condition.matchesField
    (fun other => other != "" && decide (other = value)) fun _ => mem_conditionNames_of_matches
  have hdiffer (value : String) := hall condition.notMatchesField
    (fun other => other != "" && other != value) fun _ => mem_conditionNames_of_differs
  rw [conditionApplies, conditionApplies, hfield]
  dsimp only
  rw [hmatch, hdiffer]

/-- Where the backend takes what the form accepts. A text that both ask for is not too long, and the
form insists on one; a text that only the form asks for is blank or fails a test; and where only the
backend asks for one, the text is not blank. -/
structure Fits (field : ExchangeField) (contact : Contact) (value mode : String)
    (form formMeta : Map) : Prop where
  length : fieldApplies field form formMeta = true →
    Validation.exchangeFieldApplies field contact = true → submittedValue value ≠ "" →
      PassesTests field (submittedValue value) mode →
        (submittedValue value).length ≤ maxLength field mode
  required : fieldApplies field form formMeta = true →
    Validation.exchangeFieldApplies field contact = true → submittedValue value = "" →
      field.validation.required = true
  unasked : fieldApplies field form formMeta = true →
    Validation.exchangeFieldApplies field contact = false → submittedValue value ≠ "" →
      ¬ PassesTests field (submittedValue value) mode
  missed : fieldApplies field form formMeta = false →
    Validation.exchangeFieldApplies field contact = true → submittedValue value ≠ ""

omit [Browser] in
theorem exchangeField_ok_iff (law : UppercaseLaw) {field : ExchangeField} {contact : Contact}
    {value radioMode : String} (mode : String) (haligned : Aligned field value radioMode)
    (hcontact : contactAdifValue contact field.adif = some (.string (submittedValue value)))
    (hvalue : submittedValue value ≠ "") :
    Validation.validateExchangeField field contact mode = .ok () ↔
      Validation.exchangeFieldApplies field contact = true
        ∧ (submittedValue value).length ≤ maxLength field mode
        ∧ PassesTests field (submittedValue value) mode := by
  have hread : (Validation.jsonTrimmedString (contactAdifValue contact field.adif)).getD "" =
      submittedValue value := by
    rw [hcontact, Validation.jsonTrimmedString, haligned.kept, Option.getD_some]
  have hsome : ¬ (submittedValue value).isEmpty = true := mt String.isEmpty_iff.mp hvalue
  rw [Validation.validateExchangeField, hread]
  cases Validation.exchangeFieldApplies field contact with
  | false =>
      rw [Bool.not_false, if_pos rfl, if_neg hsome]
      exact iff_of_false (fun h => by cases h) fun h => Bool.false_ne_true h.1
  | true =>
      rw [Bool.not_true, if_neg Bool.false_ne_true, if_neg hsome, and_iff_right rfl,
        validateTypedField_ok_iff field (normalize_submittedValue haligned law),
        and_iff_right hvalue]

omit [Browser] [RegexEngine] in
theorem jsonTrimmedString_blank {contact : Contact} {field : ExchangeField} {value : String}
    (hcontact : contactAdifValue contact field.adif = some (.string (submittedValue value)))
    (hvalue : submittedValue value = "") :
    (Validation.jsonTrimmedString (contactAdifValue contact field.adif)).getD "" = "" := by
  rw [hcontact, hvalue]
  rfl

omit [Browser] in
/-- A blank text is taken where the field does not apply. -/
theorem exchangeField_blank {field : ExchangeField} {contact : Contact} {value : String}
    (mode : String)
    (hcontact : contactAdifValue contact field.adif = some (.string (submittedValue value)))
    (hvalue : submittedValue value = "") :
    Validation.validateExchangeField field contact mode = .ok () ↔
      Validation.exchangeFieldApplies field contact = false := by
  rw [Validation.validateExchangeField, jsonTrimmedString_blank hcontact hvalue]
  cases Validation.exchangeFieldApplies field contact with
  | false => exact iff_of_true rfl rfl
  | true => exact iff_of_false (fun h => by cases h) (fun h => by cases h)

theorem validateExchangeField_eq (field : ExchangeField) (value radioMode : String)
    (conditionFields conditionMeta : Map) :
    validateExchangeField field value radioMode conditionFields conditionMeta =
      if fieldApplies field conditionFields conditionMeta then
        validateConfiguredField field value radioMode
      else if trim value = "" then .ok () else .error (field.label ++ " must be blank.") := by
  unfold validateExchangeField fieldApplies
  cases field.onlyWhen with
  | none => rfl
  | some condition =>
      rw [Option.all_some]
      dsimp only
      cases conditionApplies condition conditionFields conditionMeta with
      | false => rw [Bool.not_false, if_pos rfl, if_neg Bool.false_ne_true]
      | true => rw [Bool.not_true, if_neg Bool.false_ne_true, if_pos rfl]

omit [Browser] [RegexEngine] in
/-- The mode of the contact decides about the length of a report as the radio mode does. -/
theorem modeIsCw_adifMode (law : UppercaseLaw) {radioMode : String} (hplain : Plain radioMode) :
    modeIsCw radioMode = Validation.modeIsCw (adifModeForLoggerMode radioMode) := by
  have hnormal : normalizeLoggerMode (some radioMode) = Callsign.normalize radioMode := by
    rw [normalizeLoggerMode, Option.getD_some, trim_eq hplain]
    rfl
  have hinner : normalizeLoggerMode (some (Callsign.normalize radioMode)) =
      Callsign.normalize radioMode := by
    rw [normalizeLoggerMode, Option.getD_some, trim_eq (hplain.normalize law), trim_normalize law]
    exact toUppercase_idem law _
  have hbackend : Validation.normalizeLoggerMode (Callsign.normalize radioMode) =
      Callsign.normalize radioMode := normalize_idem law radioMode
  rw [adifModeForLoggerMode, modeIsCw, modeIsCw, hnormal, hinner]
  by_cases hcw : Callsign.normalize radioMode = "CW" ∨ Callsign.normalize radioMode = "CW-R"
  · have hor : (decide (Callsign.normalize radioMode = "CW")
        || decide (Callsign.normalize radioMode = "CW-R")) = true := by simpa using hcw
    rw [if_pos hor, hor]
    rfl
  · have hor : (decide (Callsign.normalize radioMode = "CW")
        || decide (Callsign.normalize radioMode = "CW-R")) = false := by simpa using hcw
    rw [hor, if_neg Bool.false_ne_true]
    split
    · rfl
    · rw [Validation.modeIsCw, hbackend, hor]

section Callsigns

omit [Platform] [Browser] [RegexEngine] in
theorem toNat_of_isCallsignCharacter {c : Char} (h : (isCallsignCharacter c || c = '/') = true) :
    47 ≤ c.toNat ∧ c.toNat ≤ 57 ∨ 65 ≤ c.toNat ∧ c.toNat ≤ 90 := by
  have hle {a b : Char} : a ≤ b ↔ a.toNat ≤ b.toNat := UInt32.le_iff_toNat_le
  simp only [isCallsignCharacter, isAsciiUppercase, isAsciiDigit, Bool.or_eq_true,
    Bool.and_eq_true, decide_eq_true_eq, hle] at h
  obtain (⟨h1, h2⟩ | ⟨h1, h2⟩) | rfl := h
  · exact Or.inr ⟨h1, h2⟩
  · exact Or.inl ⟨(by decide : 47 ≤ '0'.toNat).trans h1, h2⟩
  · exact Or.inl (by decide)

omit [Browser] [RegexEngine]

/-- What a callsign passes that the frontend accepts for logging. -/
theorem of_validateCallsign {value : String} (h : validateCallsign value false = .ok ()) :
    submittedValue value ≠ "" ∧ (submittedValue value).length ≤ maxCallsignLength
      ∧ checkCallsignStructure (submittedValue value) true = none
      ∧ (submittedValue value).toList.contains '?' = false
      ∧ isCallsignLike ((parseBase (submittedValue value).toList).getD []) = true := by
  have hnormal : normalizeCallsign value = submittedValue value := rfl
  rw [validateCallsign, hnormal, Checks.ite_error_eq_ok, Checks.ite_error_eq_ok, Nat.not_lt] at h
  obtain ⟨hne, hlength, h⟩ := h
  refine ⟨hne, hlength, ?_⟩
  cases hstructure : checkCallsignStructure (submittedValue value) true with
  | some error =>
      rw [hstructure] at h
      cases error with
      | invalidCharacter => cases h
      | tooManySlashes | edgeSlash =>
          dsimp only at h
          split at h <;> cases h
  | none =>
      rw [hstructure] at h
      dsimp only at h
      rw [Checks.ite_error_eq_ok, Checks.ite_error_eq_ok] at h
      simpa using h

omit [Platform] in
theorem of_checkCallsignStructure {text : String}
    (h : checkCallsignStructure text true = none) :
    (∀ c ∈ text.toList, (isCallsignCharacter c || c = '/' || (true && c = '?')) = true)
      ∧ ¬ 1 < text.toList.count '/'
      ∧ ¬ (startsWith text "/" || endsWith text "/") = true := by
  rw [checkCallsignStructure] at h
  split at h
  · cases h
  · next hchars =>
      split at h
      · cases h
      · next hslashes =>
          split at h
          · cases h
          · next hedges =>
              refine ⟨?_, ?_, hedges⟩
              · rw [Bool.not_eq_true', Bool.not_eq_false, List.all_eq_true] at hchars
                exact hchars
              · rwa [List.count_eq_length_filter]

omit [Platform] in
theorem mem_of_mem_parseBase {cs : List Char} {c : Char}
    (h : c ∈ (Callsign.parseBase cs).getD []) : c ∈ cs := by
  rw [Callsign.parseBase] at h
  cases hsplit : Callsign.splitMiddleSlash cs with
  | none =>
      rw [hsplit] at h
      exact h
  | invalid =>
      rw [hsplit] at h
      cases h
  | pair left right =>
      obtain ⟨heq, -, -⟩ := eq_of_splitMiddleSlash hsplit
      have hor : c ∈ left ∨ c ∈ right := by
        rw [hsplit] at h
        unfold Callsign.resolvePair at h
        grind
      rw [heq, List.mem_append, List.mem_cons]
      exact hor.imp_right Or.inr

/-- Text of callsign characters is neither trimmed nor changed by folding. -/
theorem normalize_of_callsign {value : String}
    (h : ∀ c ∈ value.toList, (isCallsignCharacter c || c = '/') = true) :
    Log73.trim value = value ∧ Callsign.normalize value = value := by
  have htrim : Log73.trim value = value := by
    rw [Log73.trim, trimChars_eq_self, String.ofList_toList]
    intro c hc
    have hcode := toNat_of_isCallsignCharacter (h c hc)
    rw [Bool.eq_false_iff, Ne]
    simp only [Log73.isWhitespace, Bool.or_eq_true, Bool.and_eq_true, decide_eq_true_eq]
    omega
  refine ⟨htrim, ?_⟩
  rw [Callsign.normalize, htrim, toUppercase, List.flatMap_congr (g := fun c => [c]),
    List.flatMap_singleton', String.ofList_toList]
  intro c hc
  have hcode := toNat_of_isCallsignCharacter (h c hc)
  rw [upperChar, if_pos (by omega)]
  congr 1
  apply Char.toNat_inj.mp
  rw [toNat_toUpper, if_neg (by omega)]

/-- A callsign that the frontend accepts for logging is accepted by the backend. -/
theorem callsign_accepted {value : String} (h : validateCallsign value false = .ok ()) :
    Validation.validateCallsign "callsign" (submittedValue value) false = .ok () := by
  obtain ⟨hne, hlength, hstructure, hquery, hlike⟩ := of_validateCallsign h
  generalize submittedValue value = text at hne hlength hstructure hquery hlike ⊢
  have hchars : ∀ c ∈ text.toList, (isCallsignCharacter c || c = '/') = true := by
    intro c hc
    have hall := (of_checkCallsignStructure hstructure).1 c hc
    have hne : c ≠ '?' := fun heq => by
      rw [List.contains_eq_mem, decide_eq_false_iff_not] at hquery
      exact hquery (heq ▸ hc)
    simpa [hne] using hall
  obtain ⟨-, hslashes, hedges⟩ := of_checkCallsignStructure hstructure
  obtain ⟨htrim, hnormal⟩ := normalize_of_callsign hchars
  have hcode {c : Char} (hc : c ∈ text.toList) := toNat_of_isCallsignCharacter (hchars c hc)
  have hrequired : Validation.validateRequiredText "callsign" text Validation.maxCallsignLen =
      .ok () := by
    rw [Validation.validateRequiredText, htrim, Checks.ite_error_eq_ok, Checks.ite_error_eq_ok,
      Checks.ite_error_eq_ok, Nat.not_lt]
    refine ⟨by simpa using hne, hlength, ?_, rfl⟩
    rw [List.any_eq_true]
    intro hcontrol
    obtain ⟨c, hc, hcontrol⟩ := hcontrol
    have := hcode hc
    simp only [isControl, Bool.or_eq_true, Bool.and_eq_true, decide_eq_true_eq] at hcontrol
    omega
  have hcheck : Callsign.checkStructure text false = .ok () := by
    rw [Callsign.checkStructure, Checks.ite_error_eq_ok, Checks.ite_error_eq_ok,
      Checks.ite_error_eq_ok]
    refine ⟨?_, hslashes, hedges, rfl⟩
    rw [Bool.not_eq_true', Bool.not_eq_false, List.all_eq_true]
    intro c hc
    rw [Bool.false_and, Bool.or_false]
    exact hchars c hc
  have hbase : Callsign.isCallsignLike ((Callsign.parseBase text.toList).getD []) = true := by
    have hbasic {cs : List Char} (h : ∀ c ∈ cs, c ∈ text.toList) : ∀ c ∈ cs, c.toNat < 65536 := by
      intro c hc
      have := hcode (h c hc)
      omega
    have hparse : parseBase text.toList = Callsign.parseBase text.toList := by
      rw [parseBase_eq, Callsign.parseBase]
      cases hsplit : Callsign.splitMiddleSlash text.toList with
      | none => rfl
      | invalid => rfl
      | pair left right =>
          obtain ⟨heq, -, -⟩ := eq_of_splitMiddleSlash hsplit
          dsimp only
          rw [resolvePair_eq]
          · exact hbasic fun c hc => heq ▸ List.mem_append_left _ hc
          · exact hbasic fun c hc => heq ▸ List.mem_append_right _ (List.mem_cons_of_mem _ hc)
    rw [hparse, isCallsignLike_eq (hbasic fun c hc => mem_of_mem_parseBase hc)] at hlike
    exact hlike
  rw [Validation.validateCallsign, hnormal]
  refine Checks.bind_eq_ok.mpr ⟨(), hrequired, Checks.bind_eq_ok.mpr ⟨(), ?_, ?_⟩⟩
  · rw [Checks.mapError_eq_ok]
    exact hcheck
  · rw [Validation.validateBase, hbase]
    rfl

end Callsigns

theorem exchange_accepted_iff (law : UppercaseLaw) {field : ExchangeField} {contact : Contact}
    {value radioMode : String} {form formMeta : Map}
    (haligned : fieldApplies field form formMeta = true → submittedValue value ≠ "" →
      Aligned field value radioMode)
    (hcontact : contactAdifValue contact field.adif = some (.string (submittedValue value))) :
    (validateExchangeField field value radioMode form formMeta = .ok () →
      Validation.validateExchangeField field contact (adifModeForLoggerMode radioMode) = .ok ()) ↔
    Fits field contact value (adifModeForLoggerMode radioMode) form formMeta := by
  have hempty : submittedValue value = "" ↔ trim value = "" := toUppercase_eq_empty law
  rw [validateExchangeField_eq]
  by_cases hvalue : submittedValue value = ""
  · rw [exchangeField_blank _ hcontact hvalue, if_pos (hempty.mp hvalue)]
    cases happlies : Validation.exchangeFieldApplies field contact with
    | false =>
        refine iff_of_true (fun _ => rfl) ⟨?_, ?_, fun _ _ hne => absurd hvalue hne, ?_⟩
        all_goals
          intro _ hasked
          rw [happlies] at hasked
          cases hasked
    | true =>
        cases hform : fieldApplies field form formMeta with
        | false =>
            rw [if_neg Bool.false_ne_true]
            exact iff_of_false (fun h => Bool.noConfusion (h rfl)) fun h =>
              h.missed hform happlies hvalue
        | true =>
            rw [if_pos rfl, validateConfiguredField_blank field radioMode (hempty.mp hvalue)]
            constructor
            · intro h
              refine ⟨fun _ _ hne => absurd hvalue hne, fun _ _ _ => ?_,
                fun _ _ hne => absurd hvalue hne, fun hnot => by cases hform.symm.trans hnot⟩
              cases hrequired : field.validation.required with
              | false => cases h hrequired
              | true => rfl
            · intro h hnot
              cases (h.required hform happlies hvalue).symm.trans hnot
  · cases hform : fieldApplies field form formMeta with
    | false =>
        rw [if_neg Bool.false_ne_true, if_neg (mt hempty.mpr hvalue)]
        refine iff_of_true (fun h => by cases h) ⟨?_, ?_, ?_, fun _ _ => hvalue⟩
        all_goals
          intro hasked
          cases hform.symm.trans hasked
    | true =>
        have haligned := haligned hform hvalue
        rw [if_pos rfl, exchangeField_ok_iff law _ haligned hcontact hvalue,
          validateConfiguredField_ok_iff haligned law (modeIsCw_adifMode law haligned.mode) hvalue]
        constructor
        · intro h
          refine ⟨fun _ _ _ hpasses => (h hpasses).2.1, fun _ _ heq => absurd heq hvalue,
            fun _ hnot _ hpasses => ?_, fun hnot => by cases hform.symm.trans hnot⟩
          cases hnot.symm.trans (h hpasses).1
        · intro h hpasses
          cases happlies : Validation.exchangeFieldApplies field contact with
          | false => exact absurd hpasses (h.unasked hform happlies hvalue)
          | true => exact ⟨rfl, h.length hform happlies hvalue hpasses, hpasses⟩

end Agreement

end Log73.Frontend

namespace Log73

attribute [local instance] asciiPlatform matchAll

namespace Frontend

attribute [local instance] plainBrowser

/-- A serial number of at most three digits, as several contests ask for. -/
def sentSerial : ExchangeField where
  label := "Serial Sent"
  input := { kind := .serial, maxLength := some 3 }
  adif := "STX"
  direction := .sent

/-- A province that only contacts in one mode are asked for. -/
def provinceOfRtty : ExchangeField where
  label := "Province"
  input := { kind := .string }
  adif := "STATE"
  onlyWhen := some { field := "MODE", values := ["RTTY"] }
  direction := .received

/-- The form knows the entities of both stations only, so that a field that depends on the mode is
never asked for; the backend then misses it. -/
example :
    validateExchangeField provinceOfRtty "" "RTTY" [("DXCC", .number (.int 1)),
        ("MY_DXCC", .number (.int 1))] [] = .ok ()
      ∧ Validation.validateExchangeField provinceOfRtty
        (buildContact [] [("MODE", .string "RTTY"), ("STATE", .string "")]) "RTTY" =
        .error "Province is required" := by
  constructor
  · decide +kernel
  · decide +kernel

end Frontend

end Log73
