import Log73.Frontend.DupeAgreement
import Log73.Frontend.Validation

/-!
The conditions of exchange fields as the frontend and the backend read them. The
frontend compares texts that are trimmed and in uppercase; the backend compares them
without regard to the case of ASCII letters. The two comparisons drift apart at texts with
blanks around them and at letters outside ASCII only.
-/

namespace Log73.Frontend

open SortedAssoc

section Readings

/-- A value that both sides print alike: plain text, a safe integer, or no scalar but a
number with a fraction. -/
def PrintsAlike : Value → Prop
  | .string s => Plain s
  | .number (.int value) => value.natAbs ≤ 9007199254740992
  | .number (.float _) => False
  | _ => True

/-- The names under which a condition reads the contact. -/
def conditionNames (condition : ScoringCondition) : List String :=
  condition.field :: (condition.matchesField.toList ++ condition.notMatchesField.toList)

theorem mem_conditionNames_of_matches {condition : ScoringCondition} {field : String}
    (h : field ∈ condition.matchesField) : field ∈ conditionNames condition :=
  List.mem_cons_of_mem _ (List.mem_append_left _ (Option.mem_toList.mpr h))

theorem mem_conditionNames_of_differs {condition : ScoringCondition} {field : String}
    (h : field ∈ condition.notMatchesField) : field ∈ conditionNames condition :=
  List.mem_cons_of_mem _ (List.mem_append_right _ (Option.mem_toList.mpr h))

theorem toAsciiUppercase_eq_empty {s : String} : toAsciiUppercase s = "" ↔ s = "" := by
  rw [← String.toList_eq_nil_iff, toAsciiUppercase, String.toList_ofList, List.map_eq_nil_iff,
    String.toList_eq_nil_iff]

theorem eqIgnoreAsciiCase_comm (a b : String) : eqIgnoreAsciiCase a b = eqIgnoreAsciiCase b a :=
  Bool.beq_comm

theorem trim_trim (s : String) : Log73.trim (Log73.trim s) = Log73.trim s := by
  rw [Log73.trim, Log73.trim, String.toList_ofList, trimChars_trimChars]

theorem trim_toString (value : Int) : Log73.trim (toString value) = toString value := by
  rw [Log73.trim, trimChars_eq_self, String.ofList_toList]
  intro c hmem
  cases mem_toString_int hmem with
  | inl hsign =>
      rw [hsign]
      rfl
  | inr hdigit =>
      have hcode := (isAsciiDigit_iff c).mp hdigit
      rw [Bool.eq_false_iff]
      simp only [Log73.isWhitespace, ne_eq, Bool.or_eq_true, Bool.and_eq_true, decide_eq_true_eq]
      omega

theorem ascii_toAsciiUppercase {s : String} : Ascii (toAsciiUppercase s) ↔ Ascii s := by
  simp only [Ascii, toAsciiUppercase, String.toList_ofList, List.forall_mem_map]
  refine forall_congr' fun c => imp_congr_right fun _ => ?_
  rw [toNat_toUpper]
  split
  · omega
  · rfl

theorem trim_toAsciiUppercase (s : String) :
    Log73.trim (toAsciiUppercase s) = toAsciiUppercase (Log73.trim s) := by
  rw [Log73.trim, toAsciiUppercase, toAsciiUppercase, Log73.trim, String.toList_ofList,
    String.toList_ofList, trimChars_map_toUpper]

variable [Platform]

/-- Both sides look for a field under the same names. The names of the contact that are the one
asked for have no blanks around them; a name outside ASCII has no uppercase in ASCII; and nothing is
stored under a blank name. -/
structure Spelled (field : String) (fields metadata : Map) : Prop where
  trimmed : ∀ entry ∈ fields, normalizeAdifFieldName entry.1 = normalizeAdifFieldName field →
    Log73.trim entry.1 = entry.1
  upper : Ascii field ∨ ¬ Ascii (toUppercase (Log73.trim field))
  unnamed : Log73.trim field = "" →
    (∀ entry ∈ fields, Log73.trim entry.1 ≠ "") ∧ get? metadata field = none

/-- A contact and a condition whose texts mean the same to both sides. -/
structure Readable (condition : ScoringCondition) (fields metadata : Map) : Prop where
  names : ∀ field ∈ conditionNames condition, Plain field
  ascii : ∀ entry ∈ fields, Ascii entry.1
  distinct : (fields.map fun entry => toUpperCase entry.1).Nodup
  fields : ∀ entry ∈ fields, PrintsAlike entry.2
  metadata : ∀ entry ∈ metadata, PrintsAlike entry.2
  candidates : ∀ candidate ∈ condition.values ++ condition.excludeValues, Plain candidate

/-- What may have been found prints alike. -/
def FoundAlike (found : Option Value) : Prop := ∀ value, found = some value → PrintsAlike value

/-- The text of a value is trimmed on both sides. -/
theorem jsonTrimmedString_spec {found : Option Value} (h : FoundAlike found) {text : String}
    (htext : Validation.jsonTrimmedString found = some text) :
    Plain text ∧ Log73.trim text = text := by
  cases found with
  | none => cases htext
  | some value =>
      have hvalue := h value rfl
      cases value with
      | string s =>
          obtain rfl := Option.some.inj htext
          exact ⟨Plain.trim hvalue, trim_trim s⟩
      | number n =>
          cases n with
          | int value =>
              obtain rfl := Option.some.inj htext
              exact ⟨(basic_toString value).1, trim_toString value⟩
          | float _ => cases hvalue
      | bool b =>
          obtain rfl := Option.some.inj htext
          cases b <;> exact ⟨by decide, by decide⟩
      | null | array _ | object _ => cases htext

variable [Browser]

theorem scalarString_eq {found : Option Value} (h : FoundAlike found) :
    found.bind scalarString = (Validation.jsonTrimmedString found).map toUppercase := by
  cases found with
  | none => rfl
  | some value =>
      have hvalue := h value rfl
      rw [Option.bind_some]
      cases value with
      | string s =>
          have htrim : trim s = Log73.trim s := trim_eq hvalue
          rw [scalarString, jsonString, Validation.jsonTrimmedString, Option.map_some,
            Option.map_some, toUpperCase, htrim]
      | number n =>
          cases n with
          | int value =>
              have htext : numberText (.int value) = toString value := if_pos hvalue
              have htrim : trim (toString value) = toString value :=
                (trim_eq (basic_toString value).1).trans (trim_toString value)
              rw [scalarString, jsonString, Validation.jsonTrimmedString, Option.map_some,
                Option.map_some, toUpperCase, htext, htrim, Number.toText]
          | float _ => cases hvalue
      | bool b =>
          have htrim : trim (toString b) = toString b := by cases b <;> decide
          rw [scalarString, jsonString, Validation.jsonTrimmedString, Option.map_some,
            Option.map_some, toUpperCase, htrim]
      | null | array _ | object _ =>
          simp [scalarString, jsonString, Validation.jsonTrimmedString]

end Readings

/-- Renamed entries are found as the first entry whose new name is the one asked for. -/
theorem get?_rename {κ ν : Type} [DecidableEq κ] (rename : κ → κ) (m : List (κ × ν)) (k : κ) :
    get? (m.map fun entry => (rename entry.1, entry.2)) k =
      (m.find? fun entry => rename entry.1 = k).map Prod.snd := by
  induction m with
  | nil => rfl
  | cons entry m ih =>
      rw [List.map_cons, get?_cons, List.find?_cons, ih]
      by_cases heq : rename entry.1 = k
      · rw [if_pos heq, decide_eq_true heq]
        rfl
      · rw [if_neg heq, decide_eq_false heq]

theorem find?_congr {α : Type} {p q : α → Bool} {l : List α} (h : ∀ a ∈ l, q a = p a) :
    l.find? p = l.find? q := by
  induction l with
  | nil => rfl
  | cons a l ih =>
      rw [List.find?_cons, List.find?_cons, h a List.mem_cons_self,
        ih fun b hb => h b (List.mem_cons_of_mem a hb)]

theorem find?_reverse {α : Type} {p : α → Bool} {l : List α}
    (h : ∀ a ∈ l, ∀ b ∈ l, p a = true → p b = true → a = b) : l.reverse.find? p = l.find? p := by
  cases hfind : l.find? p with
  | none =>
      rw [List.find?_eq_none] at hfind ⊢
      exact fun a ha => hfind a (List.mem_reverse.mp ha)
  | some a =>
      have ha := List.mem_of_find?_eq_some hfind
      have hp := List.find?_some hfind
      cases hlast : l.reverse.find? p with
      | none => exact absurd hp (List.find?_eq_none.mp hlast a (List.mem_reverse.mpr ha))
      | some b =>
          have hb := List.mem_reverse.mp (List.mem_of_find?_eq_some hlast)
          rw [h b hb a ha (List.find?_some hlast) hp]

section Lookups

variable [Platform] {condition : ScoringCondition} {fields metadata : Map}
  (h : Readable condition fields metadata)

include h

theorem normalizeConditionValue_field {field : String} (hmem : field ∈ conditionNames condition) :
    normalizeConditionValue field = toUppercase (Log73.trim field) := by
  have htrim : trim field = Log73.trim field := trim_eq (h.names field hmem)
  rw [normalizeConditionValue, htrim]
  rfl

/-- An entry of the contact has the name asked for to both sides or to neither. -/
theorem named_iff {field : String} (hspelled : Spelled field fields metadata)
    {entry : String × Value} (hentry : entry ∈ fields) :
    normalizeAdifFieldName entry.1 = normalizeAdifFieldName field ↔
      toUpperCase entry.1 = toUppercase (Log73.trim field) := by
  have hascii := h.ascii entry hentry
  have hupper : toUpperCase entry.1 = toAsciiUppercase entry.1 := toUppercase_ascii hascii
  rw [hupper]
  cases hspelled.upper with
  | inl hfield =>
      rw [toUppercase_ascii hfield.trim]
      constructor
      · intro hname
        have htrim := hspelled.trimmed entry hentry hname
        rwa [normalizeAdifFieldName, htrim] at hname
      · intro hname
        rw [normalizeAdifFieldName, ← trim_toAsciiUppercase, hname,
          trim_toAsciiUppercase, trim_trim]
        rfl
  | inr hfield =>
      constructor
      · intro hname
        have htrimmed : Ascii (normalizeAdifFieldName field) :=
          hname ▸ ascii_toAsciiUppercase.mpr hascii.trim
        have hplain := ascii_toAsciiUppercase.mp htrimmed
        rw [toUppercase_ascii hplain] at hfield
        exact absurd (ascii_toAsciiUppercase.mpr hplain) hfield
      · exact fun hname => absurd (hname ▸ ascii_toAsciiUppercase.mpr hascii) hfield

/-- Both sides find the same field of the contact. -/
theorem rawAdifValue_eq {field : String} (hspelled : Spelled field fields metadata) :
    rawAdifValue fields (toUppercase (Log73.trim field)) =
      contactAdifValue (buildContact metadata fields) field := by
  have hsame : fields.find? (fun entry => toUpperCase entry.1 = toUppercase (Log73.trim field)) =
      fields.find? (fun entry => normalizeAdifFieldName entry.1 = normalizeAdifFieldName field) :=
    find?_congr fun entry hentry => by simp only [named_iff h hspelled hentry]
  have honce : ∀ a ∈ fields, ∀ b ∈ fields,
      decide (normalizeAdifFieldName a.1 = normalizeAdifFieldName field) = true →
      decide (normalizeAdifFieldName b.1 = normalizeAdifFieldName field) = true → a = b := by
    intro a ha b hb hnamed hnamed'
    refine List.inj_on_of_nodup_map h.distinct ha hb ?_
    rw [(named_iff h hspelled ha).mp (of_decide_eq_true hnamed),
      (named_iff h hspelled hb).mp (of_decide_eq_true hnamed')]
  rw [contactAdifValue, contactAdif_buildContact, Option.bind_some, normalizeContactAdif,
    get?_insertAll, get?_nil, Option.or_none, ← List.map_reverse, get?_rename,
    find?_reverse honce, rawAdifValue, hsame]

theorem foundAlike_adif {field : String} (hspelled : Spelled field fields metadata) :
    FoundAlike (contactAdifValue (buildContact metadata fields) field) := by
  intro value hvalue
  rw [← rawAdifValue_eq h hspelled, rawAdifValue, Option.map_eq_some_iff] at hvalue
  obtain ⟨entry, hfind, rfl⟩ := hvalue
  exact h.fields entry (List.mem_of_find?_eq_some hfind)

theorem foundAlike_meta (field : String) :
    FoundAlike (contactMetaValue (buildContact metadata fields) field) := by
  intro value hvalue
  rw [contactMetaValue, contactMeta_buildContact, Option.bind_some] at hvalue
  exact h.metadata _ (mem_of_get? hvalue)

theorem conditionValue_spec {field : String} (hspelled : Spelled field fields metadata) :
    Plain (Validation.conditionValue (buildContact metadata fields) field)
      ∧ Log73.trim (Validation.conditionValue (buildContact metadata fields) field) =
        Validation.conditionValue (buildContact metadata fields) field := by
  rw [Validation.conditionValue]
  cases htext : Option.or _ _ with
  | none => exact ⟨by decide, by decide⟩
  | some text =>
      rw [Option.getD_some]
      cases Option.or_eq_some_iff.mp htext with
      | inl hadif => exact jsonTrimmedString_spec (foundAlike_adif h hspelled) hadif
      | inr hmeta => exact jsonTrimmedString_spec (foundAlike_meta h field) hmeta.2

/-- Nothing is read under a blank name. -/
theorem conditionValue_blank {field : String} (hspelled : Spelled field fields metadata)
    (hblank : Log73.trim field = "") :
    Validation.conditionValue (buildContact metadata fields) field = "" := by
  obtain ⟨hfields, hmetadata⟩ := hspelled.unnamed hblank
  have hadif : contactAdifValue (buildContact metadata fields) field = none := by
    rw [← rawAdifValue_eq h hspelled, rawAdifValue, Option.map_eq_none_iff, List.find?_eq_none]
    intro entry hentry hnamed
    have hname := (named_iff h hspelled hentry).mpr (of_decide_eq_true hnamed)
    have hempty : normalizeAdifFieldName field = "" := by
      rw [normalizeAdifFieldName, hblank]
      rfl
    exact hfields entry hentry (toAsciiUppercase_eq_empty.mp (hname.trans hempty))
  have hmeta : contactMetaValue (buildContact metadata fields) field = none := by
    rw [contactMetaValue, contactMeta_buildContact, Option.bind_some, hmetadata]
  rw [Validation.conditionValue, hadif, hmeta]
  rfl

variable [Browser]

/-- The text of a field is the same on both sides, in uppercase for the frontend. -/
theorem lookupConditionValue_eq (law : UppercaseLaw) {field : String}
    (hmem : field ∈ conditionNames condition) (hspelled : Spelled field fields metadata) :
    lookupConditionValue field fields metadata =
      toUppercase (Validation.conditionValue (buildContact metadata fields) field) := by
  rw [lookupConditionValue, normalizeConditionValue_field h hmem]
  by_cases hblank : Log73.trim field = ""
  · rw [conditionValue_blank h hspelled hblank, hblank]
    rfl
  · have hmeta : get? metadata field = contactMetaValue (buildContact metadata fields) field := by
      rw [contactMetaValue, contactMeta_buildContact, Option.bind_some]
    rw [if_neg (mt (toUppercase_eq_empty law).mp hblank), rawAdifValue_eq h hspelled, hmeta,
      scalarString_eq (foundAlike_adif h hspelled), scalarString_eq (foundAlike_meta h field),
      Validation.conditionValue, ← Option.map_or]
    cases Option.or _ _ with
    | none => rfl
    | some text => rfl

end Lookups

section Tests

/-- The tests of a condition, met under one notion of two texts being the same. -/
structure Meets (same : String → Prop) (read : String → String) (condition : ScoringCondition) :
    Prop where
  listed : condition.values = [] ∨ ∃ candidate ∈ condition.values, same candidate
  allowed : ∀ candidate ∈ condition.excludeValues, ¬ same candidate
  matching : ∀ field ∈ condition.matchesField, same (read field)
  differing : ∀ field ∈ condition.notMatchesField, read field ≠ "" ∧ ¬ same (read field)

theorem Meets.congr {same other : String → Prop} {read : String → String}
    {condition : ScoringCondition} (h : Meets same read condition)
    (hcandidates : ∀ candidate ∈ condition.values ++ condition.excludeValues,
      (same candidate ↔ other candidate))
    (hread : ∀ field ∈ conditionNames condition, (same (read field) ↔ other (read field))) :
    Meets other read condition where
  listed := h.listed.imp_right fun ⟨candidate, hmem, hsame⟩ =>
    ⟨candidate, hmem, (hcandidates candidate (List.mem_append_left _ hmem)).mp hsame⟩
  allowed candidate hmem hsame :=
    h.allowed candidate hmem ((hcandidates candidate (List.mem_append_right _ hmem)).mpr hsame)
  matching field hmem :=
    (hread field (mem_conditionNames_of_matches hmem)).mp (h.matching field hmem)
  differing field hmem := ⟨(h.differing field hmem).1,
    mt (hread field (mem_conditionNames_of_differs hmem)).mpr (h.differing field hmem).2⟩

/-- The backend: the texts differ in the case of ASCII letters at most. -/
def SameLetters (value text : String) : Prop := eqIgnoreAsciiCase text value = true

variable [Platform]

/-- The frontend: the text without blanks around it is the other in uppercase. -/
def SameUppercase (value text : String) : Prop := normalizeConditionValue text = value

/-- A text that the backend does not take for its uppercase: it has blanks around it, or a character
outside ASCII that uppercase changes. -/
def Drifts (text : String) : Prop :=
  Log73.trim text ≠ text ∨ ∃ c ∈ text.toList, 128 ≤ c.toNat ∧ upperChar c ≠ [c]

section

variable (read : String → String) (condition : ScoringCondition)

/-- The text that a condition is about, in uppercase. -/
def sourceValue : String := toUppercase (read condition.field)

/-- A test fails on both sides, whatever drifts. -/
inductive Refused : Prop
  | unlisted (h : condition.values ≠ [])
      (hnone : ∀ candidate ∈ condition.values,
        ¬ SameUppercase (sourceValue read condition) candidate)
  | excluded {candidate : String} (h : candidate ∈ condition.excludeValues)
      (hsame : SameUppercase (sourceValue read condition) candidate) (hkept : ¬ Drifts candidate)
  | unlike {field : String} (h : field ∈ condition.matchesField)
      (hother : ¬ SameUppercase (sourceValue read condition) (read field))
  | blank {field : String} (h : field ∈ condition.notMatchesField) (hblank : read field = "")
  | like {field : String} (h : field ∈ condition.notMatchesField)
      (hsame : SameUppercase (sourceValue read condition) (read field))
      (hkept : ¬ Drifts (read field))

/-- A text that has to be the same drifts: every candidate that is, or the matching field's. -/
def RequiredDrifts : Prop :=
  (condition.values ≠ [] ∧
      ∀ candidate ∈ condition.values,
        SameUppercase (sourceValue read condition) candidate → Drifts candidate)
    ∨ ∃ field ∈ condition.matchesField, Drifts (read field)

/-- A text that must not be the same is so in uppercase, and drifts. -/
def ForbiddenDrifts : Prop :=
  (∃ candidate ∈ condition.excludeValues,
      SameUppercase (sourceValue read condition) candidate ∧ Drifts candidate)
    ∨ ∃ field ∈ condition.notMatchesField,
      SameUppercase (sourceValue read condition) (read field) ∧ Drifts (read field)

end

variable {read : String → String} {condition : ScoringCondition}

/-- The tests in uppercase hold where nothing is refused and no forbidden text drifts. -/
theorem meets_uppercase_iff : Meets (SameUppercase (sourceValue read condition)) read condition ↔
    ¬ Refused read condition ∧ ¬ ForbiddenDrifts read condition := by
  constructor
  · intro h
    constructor
    · rintro (⟨hsome, hnone⟩ | ⟨hmem, hsame, -⟩ | ⟨hmem, hother⟩ | ⟨hmem, hblank⟩ |
        ⟨hmem, hsame, -⟩)
      · obtain ⟨candidate, hmem, hsame⟩ := h.listed.resolve_left hsome
        exact hnone candidate hmem hsame
      · exact h.allowed _ hmem hsame
      · exact hother (h.matching _ hmem)
      · exact (h.differing _ hmem).1 hblank
      · exact (h.differing _ hmem).2 hsame
    · rintro (⟨candidate, hmem, hsame, -⟩ | ⟨field, hmem, hsame, -⟩)
      · exact h.allowed candidate hmem hsame
      · exact (h.differing field hmem).2 hsame
  · intro ⟨hrefused, hdrifts⟩
    constructor
    · by_contra hnone
      rw [not_or] at hnone
      exact hrefused (.unlisted hnone.1 fun candidate hmem hsame =>
        hnone.2 ⟨candidate, hmem, hsame⟩)
    · intro candidate hmem hsame
      by_cases hkept : Drifts candidate
      · exact hdrifts (Or.inl ⟨candidate, hmem, hsame, hkept⟩)
      · exact hrefused (.excluded hmem hsame hkept)
    · exact fun field hmem => by_contra fun hother => hrefused (.unlike hmem hother)
    · refine fun field hmem => ⟨fun hblank => hrefused (.blank hmem hblank), fun hsame => ?_⟩
      by_cases hkept : Drifts (read field)
      · exact hdrifts (Or.inr ⟨field, hmem, hsame, hkept⟩)
      · exact hrefused (.like hmem hsame hkept)

/-- The tests by letters hold where nothing is refused and no required text drifts. -/
theorem meets_letters_iff :
    Meets (fun text => SameUppercase (sourceValue read condition) text ∧ ¬ Drifts text) read
        condition ↔
      ¬ Refused read condition ∧ ¬ RequiredDrifts read condition := by
  constructor
  · intro h
    constructor
    · rintro (⟨hsome, hnone⟩ | ⟨hmem, hsame, hkept⟩ | ⟨hmem, hother⟩ | ⟨hmem, hblank⟩ |
        ⟨hmem, hsame, hkept⟩)
      · obtain ⟨candidate, hmem, hsame, -⟩ := h.listed.resolve_left hsome
        exact hnone candidate hmem hsame
      · exact h.allowed _ hmem ⟨hsame, hkept⟩
      · exact hother (h.matching _ hmem).1
      · exact (h.differing _ hmem).1 hblank
      · exact (h.differing _ hmem).2 ⟨hsame, hkept⟩
    · rintro (⟨hsome, hall⟩ | ⟨field, hmem, hdrifts⟩)
      · obtain ⟨candidate, hmem, hsame, hkept⟩ := h.listed.resolve_left hsome
        exact hkept (hall candidate hmem hsame)
      · exact (h.matching field hmem).2 hdrifts
  · intro ⟨hrefused, hdrifts⟩
    constructor
    · by_contra hnone
      rw [not_or] at hnone
      refine hdrifts (Or.inl ⟨hnone.1, fun candidate hmem hsame => ?_⟩)
      by_contra hkept
      exact hnone.2 ⟨candidate, hmem, hsame, hkept⟩
    · exact fun candidate hmem hsame => hrefused (.excluded hmem hsame.1 hsame.2)
    · intro field hmem
      constructor
      · by_contra hother
        exact hrefused (.unlike hmem hother)
      · exact fun hkept => hdrifts (Or.inr ⟨field, hmem, hkept⟩)
    · exact fun field hmem => ⟨fun hblank => hrefused (.blank hmem hblank),
        fun hsame => hrefused (.like hmem hsame.1 hsame.2)⟩

end Tests

section Agreement

/-- The clauses as either side writes them, over its own tests of two texts. -/
theorem clauses_iff {condition : ScoringCondition} {same : String → Prop} {read : String → String}
    (hnone : ¬ same "") {test blank other : String → Bool}
    (htest : ∀ candidate, test candidate = true ↔ same candidate)
    (hblank : ∀ field ∈ conditionNames condition, blank field = true ↔ read field = "")
    (hother : ∀ field ∈ conditionNames condition, other field = true ↔ same (read field)) :
    (if !condition.values.isEmpty && !condition.values.any test then false
      else if condition.excludeValues.any test then false
      else (condition.matchesField.all fun field => !blank field && other field)
        && condition.notMatchesField.all fun field => !blank field && !other field) = true ↔
    Meets same read condition := by
  have hlisted : ¬ (!condition.values.isEmpty && !condition.values.any test) = true ↔
      condition.values = [] ∨ ∃ candidate ∈ condition.values, same candidate := by
    simp only [Bool.not_eq_true, Bool.and_eq_false_iff, Bool.not_eq_false', List.isEmpty_iff,
      List.any_eq_true, htest]
  have hallowed : ¬ condition.excludeValues.any test = true ↔
      ∀ candidate ∈ condition.excludeValues, ¬ same candidate := by
    simp only [Bool.not_eq_true, List.any_eq_false, htest]
  have hmatching : (condition.matchesField.all fun field => !blank field && other field) = true ↔
      ∀ field ∈ condition.matchesField, same (read field) := by
    rw [Option.all_eq_true]
    refine forall_congr' fun field => forall_congr' fun hmem => ?_
    have hfield := mem_conditionNames_of_matches hmem
    rw [Bool.and_eq_true, Bool.not_eq_true', hother field hfield, and_iff_right_iff_imp]
    intro hsame
    rw [Bool.eq_false_iff, Ne, hblank field hfield]
    exact fun hempty => hnone (hempty ▸ hsame)
  have hdiffering :
      (condition.notMatchesField.all fun field => !blank field && !other field) = true ↔
      ∀ field ∈ condition.notMatchesField, read field ≠ "" ∧ ¬ same (read field) := by
    rw [Option.all_eq_true]
    refine forall_congr' fun field => forall_congr' fun hmem => ?_
    have hfield := mem_conditionNames_of_differs hmem
    rw [Bool.and_eq_true, Bool.not_eq_true', Bool.not_eq_true', Bool.eq_false_iff,
      Bool.eq_false_iff, Ne, Ne, hblank field hfield, hother field hfield]
  have hguard {failed : Prop} [Decidable failed] {rest : Bool} :
      (if failed then false else rest) = true ↔ ¬ failed ∧ rest = true := by
    by_cases hfailed : failed <;> simp [hfailed]
  rw [hguard, hguard, hlisted, hallowed, Bool.and_eq_true, hmatching, hdiffering]
  exact ⟨fun h => ⟨h.1, h.2.1, h.2.2.1, h.2.2.2⟩,
    fun h => ⟨h.listed, h.allowed, h.matching, h.differing⟩⟩

theorem not_sameLetters_empty {value : String} (hvalue : value ≠ "") : ¬ SameLetters value "" := by
  intro hsame
  have hempty : toAsciiUppercase "" = toAsciiUppercase value := beq_iff_eq.mp hsame
  exact hvalue (toAsciiUppercase_eq_empty.mp hempty.symm)

variable [Platform]

theorem contactMatchesCondition_iff (contact : Contact) (condition : ScoringCondition) :
    Validation.contactMatchesCondition contact condition = true ↔
      sourceValue (Validation.conditionValue contact) condition ≠ ""
        ∧ Meets (SameLetters (sourceValue (Validation.conditionValue contact) condition))
          (Validation.conditionValue contact) condition := by
  rw [Validation.contactMatchesCondition, ← sourceValue]
  generalize sourceValue (Validation.conditionValue contact) condition = value
  by_cases hvalue : value = ""
  · rw [hvalue]
    exact iff_of_false (by simp) fun h => h.1 rfl
  · rw [if_neg (by simpa using hvalue), and_iff_right hvalue]
    apply clauses_iff (not_sameLetters_empty hvalue)
    · exact fun candidate => Iff.rfl
    · exact fun field _ => String.isEmpty_iff
    · intro field _
      rw [eqIgnoreAsciiCase_comm]
      rfl

variable [Browser]

/-- The frontend over the texts that the backend reads. -/
theorem conditionApplies_iff (law : UppercaseLaw) {condition : ScoringCondition}
    {fields metadata : Map} (h : Readable condition fields metadata)
    (hspelled : ∀ field ∈ conditionNames condition, Spelled field fields metadata) :
    conditionApplies condition fields metadata = true ↔
      sourceValue (Validation.conditionValue (buildContact metadata fields)) condition ≠ ""
        ∧ Meets (SameUppercase
            (sourceValue (Validation.conditionValue (buildContact metadata fields)) condition))
          (Validation.conditionValue (buildContact metadata fields)) condition := by
  have hlookup {field : String} (hmem : field ∈ conditionNames condition) :=
    lookupConditionValue_eq h law hmem (hspelled field hmem)
  have hread {field : String} (hmem : field ∈ conditionNames condition) :
      lookupConditionValue field fields metadata = normalizeConditionValue
        (Validation.conditionValue (buildContact metadata fields) field) := by
    have hspec := conditionValue_spec h (hspelled field hmem)
    have htrim := trim_eq hspec.1
    rw [hlookup hmem, normalizeConditionValue, toUpperCase, htrim, hspec.2]
  rw [conditionApplies, hlookup List.mem_cons_self, ← sourceValue]
  generalize sourceValue (Validation.conditionValue (buildContact metadata fields)) condition =
    value
  by_cases hvalue : value = ""
  · rw [if_pos hvalue]
    exact iff_of_false Bool.false_ne_true fun h => h.1 hvalue
  · rw [if_neg hvalue, and_iff_right hvalue]
    apply clauses_iff
    · exact fun hsame => hvalue hsame.symm
    · exact fun candidate => decide_eq_true_iff
    · intro field hmem
      rw [beq_iff_eq, hlookup hmem, toUppercase_eq_empty law]
    · intro field hmem
      rw [decide_eq_true_iff, hread hmem]
      rfl

section Comparison

omit [Browser]

theorem toUppercase_of_not_drifts {text : String}
    (h : ∀ c ∈ text.toList, 128 ≤ c.toNat → upperChar c = [c]) :
    toUppercase text = toAsciiUppercase text := by
  have hupper : ∀ c ∈ text.toList, upperChar c = [c.toUpper] := by
    intro c hc
    by_cases hascii : c.toNat < 128
    · exact if_pos hascii
    · have hself : c.toUpper = c := by
        apply Char.toNat_inj.mp
        rw [toNat_toUpper, if_neg (by omega)]
      rw [h c hc (Nat.le_of_not_lt hascii), hself]
  rw [toUppercase, toAsciiUppercase, List.flatMap_congr hupper, List.map_eq_flatMap]

omit [Platform] in
theorem trim_eq_self_of_letters {text value : String} (hletters : toAsciiUppercase text = value)
    (hvalue : Log73.trim value = value) : Log73.trim text = text := by
  have hsame : toAsciiUppercase (Log73.trim text) = toAsciiUppercase text := by
    rw [← trim_toAsciiUppercase, hletters, hvalue]
  have hlength := congrArg (fun s : String => s.toList.length) hsame
  simp only [toAsciiUppercase, Log73.trim, String.toList_ofList, List.length_map] at hlength
  obtain ⟨before, behind, -, -, htext⟩ := exists_trimChars text.toList
  have hsublist : (Log73.trimChars text.toList).Sublist text.toList := by
    conv_rhs => rw [htext]
    exact (List.sublist_append_left _ _).trans (List.sublist_append_right _ _)
  rw [Log73.trim, hsublist.eq_of_length hlength, String.ofList_toList]

/-- The backend takes a text for the value exactly if the frontend does and it does not drift. -/
theorem sameLetters_iff (law : UppercaseLaw) {value text : String}
    (hvalue : Callsign.normalize value = value) (htext : Plain text) :
    SameLetters value text ↔ SameUppercase value text ∧ ¬ Drifts text := by
  have hupper : toAsciiUppercase value = value := by
    rw [← hvalue]
    exact toAsciiUppercase_toUppercase law _
  have htrim : trim text = Log73.trim text := trim_eq htext
  rw [SameLetters, eqIgnoreAsciiCase, beq_iff_eq, hupper, SameUppercase, normalizeConditionValue,
    htrim, Drifts, not_or, not_not]
  constructor
  · intro hletters
    have htrimmed := trim_eq_self_of_letters hletters (hvalue ▸ trim_normalize law value)
    have hkept : ∀ c ∈ text.toList, 128 ≤ c.toNat → upperChar c = [c] := by
      intro c hc hlarge
      have hself : c.toUpper = c := by
        apply Char.toNat_inj.mp
        rw [toNat_toUpper, if_neg (by omega)]
      have hmem : c ∈ (Callsign.normalize value).toList := by
        rw [hvalue, ← hletters, toAsciiUppercase, String.toList_ofList]
        exact List.mem_map.mpr ⟨c, hc, hself⟩
      rw [Callsign.normalize, toUppercase, String.toList_ofList] at hmem
      obtain ⟨d, -, hd⟩ := List.mem_flatMap.mp hmem
      exact ((upperChar_spec law d).2 c hd).1
    refine ⟨?_, htrimmed, ?_⟩
    · rw [htrimmed, ← hletters]
      exact toUppercase_of_not_drifts hkept
    · rintro ⟨c, hc, hlarge, hne⟩
      exact hne (hkept c hc hlarge)
  · rintro ⟨hsame, htrimmed, hkept⟩
    rw [htrimmed] at hsame
    rw [← hsame]
    refine (toUppercase_of_not_drifts fun c hc hlarge => ?_).symm
    by_contra hne
    exact hkept ⟨c, hc, hlarge, hne⟩

end Comparison

section Verdicts

variable {condition : ScoringCondition} {fields metadata : Map}
  (h : Readable condition fields metadata)
  (hspelled : ∀ field ∈ conditionNames condition, Spelled field fields metadata)

include h hspelled

omit [Browser] in
theorem normalize_conditionValue (law : UppercaseLaw) :
    Callsign.normalize
        (sourceValue (Validation.conditionValue (buildContact metadata fields)) condition) =
      sourceValue (Validation.conditionValue (buildContact metadata fields)) condition := by
  obtain ⟨-, htrim⟩ := conditionValue_spec h (hspelled _ List.mem_cons_self)
  have hidem := normalize_idem law
    (Validation.conditionValue (buildContact metadata fields) condition.field)
  rwa [Callsign.normalize.eq_1 (Validation.conditionValue _ _), htrim] at hidem

/-- The frontend is led astray by forbidden texts only. -/
theorem conditionApplies_texts (law : UppercaseLaw) :
    conditionApplies condition fields metadata = true ↔
      sourceValue (Validation.conditionValue (buildContact metadata fields)) condition ≠ ""
        ∧ ¬ Refused (Validation.conditionValue (buildContact metadata fields)) condition
        ∧ ¬ ForbiddenDrifts (Validation.conditionValue (buildContact metadata fields))
          condition := by
  rw [conditionApplies_iff law h hspelled, meets_uppercase_iff]

omit [Browser] in
/-- The backend misses the texts that drift. -/
theorem contactMatchesCondition_texts (law : UppercaseLaw) :
    Validation.contactMatchesCondition (buildContact metadata fields) condition = true ↔
      sourceValue (Validation.conditionValue (buildContact metadata fields)) condition ≠ ""
        ∧ ¬ Refused (Validation.conditionValue (buildContact metadata fields)) condition
        ∧ ¬ RequiredDrifts (Validation.conditionValue (buildContact metadata fields))
          condition := by
  have hvalue := normalize_conditionValue h hspelled law
  have hread (field : String) (hmem : field ∈ conditionNames condition) :=
    sameLetters_iff law hvalue (conditionValue_spec h (hspelled field hmem)).1
  have hcandidates (candidate : String)
      (hmem : candidate ∈ condition.values ++ condition.excludeValues) :=
    sameLetters_iff law hvalue (h.candidates candidate hmem)
  rw [contactMatchesCondition_iff, ← meets_letters_iff]
  refine and_congr_right fun _ => ⟨fun hmeets => hmeets.congr hcandidates hread, fun hmeets => ?_⟩
  exact hmeets.congr (fun candidate hmem => (hcandidates candidate hmem).symm)
    fun field hmem => (hread field hmem).symm

end Verdicts

omit [Platform] [Browser] in
theorem blocked_iff {blank refused required forbidden : Prop} :
    (¬ blank ∧ ¬ refused ∧ ¬ forbidden ↔ ¬ blank ∧ ¬ refused ∧ ¬ required) ↔
      blank ∨ refused ∨ (required ↔ forbidden) := by
  by_cases hblank : blank
  · simp [hblank]
  · by_cases hrefused : refused
    · simp [hrefused]
    · simp [hblank, hrefused, not_iff_not, iff_comm]

/-- The two sides say the same of a condition exactly where the value is blank, a test fails on both
of them, or the texts that have to be the value and those that must not be drift together. -/
theorem conditions_agree_iff (law : UppercaseLaw) {condition : ScoringCondition}
    {fields metadata : Map} (h : Readable condition fields metadata)
    (hspelled : ∀ field ∈ conditionNames condition, Spelled field fields metadata) :
    (conditionApplies condition fields metadata =
        Validation.contactMatchesCondition (buildContact metadata fields) condition) ↔
      sourceValue (Validation.conditionValue (buildContact metadata fields)) condition = ""
        ∨ Refused (Validation.conditionValue (buildContact metadata fields)) condition
        ∨ (RequiredDrifts (Validation.conditionValue (buildContact metadata fields)) condition ↔
          ForbiddenDrifts (Validation.conditionValue (buildContact metadata fields))
            condition) := by
  rw [Bool.eq_iff_iff, conditionApplies_texts h hspelled law,
    contactMatchesCondition_texts h hspelled law]
  exact blocked_iff

end Agreement

end Log73.Frontend

namespace Log73

/-- A platform that knows the uppercase of one letter outside ASCII. -/
@[reducible] def accentPlatform : Platform where
  upper c := if c = 'é' then ['É'] else [c]
  floatText _ := ""
  parseFloat _ := none
  haversineKilometers _ _ := 0
  floatFrequency _ := 0
  textFrequency _ := none

attribute [local instance] accentPlatform

namespace Frontend

attribute [local instance] plainBrowser

theorem uppercaseLaw_accent : UppercaseLaw := by
  intro c hc
  by_cases haccent : c = 'é'
  · rw [haccent]
    decide
  · have hupper : Platform.upper c = [c] := if_neg haccent
    rw [hupper]
    refine ⟨List.cons_ne_nil _ _, fun d hd => ?_⟩
    obtain rfl := List.mem_singleton.mp hd
    exact ⟨(if_neg (by omega)).trans hupper, id, fun _ => rfl⟩

/-- The received text has to be the sent one. -/
def echoed : ScoringCondition where
  field := "STX_STRING"
  matchesField := some "SRX_STRING"

def bothTexts (sent received : String) : Map :=
  [("STX_STRING", .string sent), ("SRX_STRING", .string received)]

theorem mem_bothTexts {sent received : String} {entry : String × Value}
    (h : entry ∈ bothTexts sent received) :
    entry = ("STX_STRING", .string sent) ∨ entry = ("SRX_STRING", .string received) := by
  simpa only [bothTexts, List.mem_cons, List.not_mem_nil, or_false] using h

theorem readable_bothTexts {sent received : String} (hsent : Plain sent)
    (hreceived : Plain received) : Readable echoed (bothTexts sent received) [] where
  names := by decide
  ascii := by
    intro entry hmem
    cases mem_bothTexts hmem with
    | inl heq | inr heq =>
        rw [heq]
        dsimp only
        decide
  distinct := by
    simp only [bothTexts, List.map_cons, List.map_nil]
    decide
  fields := by
    intro entry hmem
    cases mem_bothTexts hmem with
    | inl heq => exact heq ▸ hsent
    | inr heq => exact heq ▸ hreceived
  metadata := fun _ hmem => absurd hmem List.not_mem_nil
  candidates := fun _ hmem => absurd hmem List.not_mem_nil

theorem spelled_bothTexts (sent received : String) {field : String}
    (hfield : field ∈ conditionNames echoed) : Spelled field (bothTexts sent received) [] := by
  have hnames : ∀ field ∈ conditionNames echoed, Ascii field ∧ Log73.trim field ≠ "" := by decide
  refine ⟨?_, Or.inl (hnames field hfield).1, fun hblank => absurd hblank (hnames field hfield).2⟩
  intro entry hmem _
  cases mem_bothTexts hmem with
  | inl heq | inr heq =>
      rw [heq]
      dsimp only
      decide

theorem not_conditions_agree_accent :
    UppercaseLaw ∧ Readable echoed (bothTexts "é" "é") []
      ∧ conditionApplies echoed (bothTexts "é" "é") [] = true
      ∧ Validation.contactMatchesCondition (buildContact [] (bothTexts "é" "é"))
        echoed = false := by
  refine ⟨uppercaseLaw_accent, readable_bothTexts (by decide) (by decide), ?_, ?_⟩
  · decide +kernel
  · decide +kernel

theorem conditions_agree_iff_echoed :
    (conditionApplies echoed (bothTexts "abbe" "ABBE") [] =
        Validation.contactMatchesCondition (buildContact [] (bothTexts "abbe" "ABBE")) echoed) ↔
      sourceValue (Validation.conditionValue (buildContact [] (bothTexts "abbe" "ABBE"))) echoed =
        ""
        ∨ Refused (Validation.conditionValue (buildContact [] (bothTexts "abbe" "ABBE"))) echoed
        ∨ (RequiredDrifts (Validation.conditionValue (buildContact [] (bothTexts "abbe" "ABBE")))
          echoed ↔
          ForbiddenDrifts (Validation.conditionValue (buildContact [] (bothTexts "abbe" "ABBE")))
            echoed) :=
  conditions_agree_iff uppercaseLaw_accent (readable_bothTexts (by decide) (by decide))
    fun _ hfield => spelled_bothTexts _ _ hfield

/-- Only the backend trims the names of a contact. -/
example : conditionApplies { field := "NOTE" } [(" NOTE", .string "x")] [] = false
    ∧ Validation.contactMatchesCondition (buildContact [] [(" NOTE", .string "x")])
      { field := "NOTE" } = true := by
  decide +kernel

end Frontend

end Log73
