import Log73.Cabrillo.Lines

/-!
The lines a Cabrillo text has in front of its contacts: none of them is read as a contact
unless a tag of the contest makes it one.
-/

namespace Log73.Cabrillo

open SortedAssoc

section Values

theorem mem_replaceCrLf {cs : List Char} {c : Char} (h : c ∈ replaceCrLf cs) : c ∈ cs := by
  fun_induction replaceCrLf cs with
  | case1 cs ih =>
      cases h with
      | head => exact List.mem_cons_of_mem _ List.mem_cons_self
      | tail _ hmem => exact List.mem_cons_of_mem _ (List.mem_cons_of_mem _ (ih hmem))
  | case2 d cs hne ih =>
      cases h with
      | head => exact List.mem_cons_self
      | tail _ hmem => exact List.mem_cons_of_mem _ (ih hmem)
  | case3 => cases h

theorem mem_replaceCrLf_of_mem {cs : List Char} {c : Char} (h : c ∈ cs) :
    c = '\r' ∨ c ∈ replaceCrLf cs := by
  fun_induction replaceCrLf cs with
  | case1 cs ih =>
      cases h with
      | head => exact Or.inl rfl
      | tail _ hmem =>
          cases hmem with
          | head => exact Or.inr List.mem_cons_self
          | tail _ hmem => exact (ih hmem).imp_right fun hrest => List.mem_cons_of_mem _ hrest
  | case2 d cs hne ih =>
      cases h with
      | head => exact Or.inr List.mem_cons_self
      | tail _ hmem => exact (ih hmem).imp_right fun hrest => List.mem_cons_of_mem _ hrest
  | case3 => cases h

/-- Only a blank value has no line. -/
theorem valueLines_eq_nil {value : String} : valueLines value = [] ↔ trim value = "" := by
  rw [valueLines, List.filter_eq_nil_iff, trim_eq_empty]
  constructor
  · intro h c hc
    cases mem_replaceCrLf_of_mem hc with
    | inl hreturn =>
        rw [hreturn]
        rfl
    | inr hmem =>
        by_cases hfeed : c = '\n'
        · rw [hfeed]
          rfl
        · obtain ⟨part, hpart, hin⟩ :
              ∃ part ∈ (replaceCrLf value.toList).splitOn '\n', c ∈ part := by
            rw [List.splitOn_eq_splitOnP]
            exact Words.exists_mem_splitOnP hmem (beq_eq_false_iff_ne.mpr hfeed)
          have hblank := h _ (List.mem_map_of_mem hpart)
          have hempty : trim (String.ofList part) = "" := by simpa using hblank
          exact trim_eq_empty.mp hempty c (by simpa using hin)
  · intro h line hline
    obtain ⟨part, hpart, rfl⟩ := List.mem_map.mp hline
    have hempty : trim (String.ofList part) = "" := by
      apply trim_eq_empty.mpr
      intro c hc
      rw [List.splitOn_eq_splitOnP] at hpart
      exact h c (mem_replaceCrLf (Words.mem_of_mem_splitOnP hpart (by simpa using hc)))
    rw [hempty]
    exact Bool.false_ne_true

theorem mem_of_mem_trim {s : String} {c : Char} (h : c ∈ (trim s).toList) : c ∈ s.toList := by
  rw [trim, String.toList_ofList, trimChars, List.mem_reverse] at h
  exact List.dropWhile_subset _ (List.mem_reverse.mp (List.dropWhile_subset _ h))

/-- A line of a value stays within its line, and is not blank. -/
theorem valueLines_spec {value line : String} (h : line ∈ valueLines value) :
    '\n' ∉ (trim line).toList ∧ trim line ≠ "" := by
  obtain ⟨hmem, hline⟩ := List.mem_filter.mp h
  obtain ⟨part, hpart, rfl⟩ := List.mem_map.mp hmem
  have htrim : trim (trim (String.ofList part)) = trim (String.ofList part) := by
    rw [trim, trim, String.toList_ofList, trimChars_trimChars]
  rw [htrim]
  refine ⟨?_, by simpa using hline⟩
  intro hfeed
  rw [List.splitOn_eq_splitOnP] at hpart
  have hin : '\n' ∈ part := by simpa using mem_of_mem_trim hfeed
  exact absurd (Words.not_sep_of_mem_splitOnP hpart '\n' hin) (by decide)

end Values

variable [Platform]

section Tags

theorem plainLine_headerLine {tag value : String} (h : '\n' ∉ (trim value).toList) :
    (∀ line ∈ headerLine tag value, PlainLine line) ↔
      (trim value ≠ "" → opensQsoLine (normalizedTag tag) = false) := by
  rw [headerLine]
  by_cases hempty : trim value = ""
  · rw [hempty]
    exact iff_of_true (fun line hmem => by cases hmem) fun hne => absurd rfl hne
  · rw [if_neg (by simpa using hempty), List.forall_mem_singleton, plainLine_header h]
    exact (imp_iff_right hempty).symm

/-- A value that is not blank is written, under its tag, on lines of its own. -/
theorem plainLine_headerValue {tag value : String} {maxLines : Option Nat} {lines : List String}
    (h : headerValue tag value maxLines = .ok lines) :
    (∀ line ∈ lines, PlainLine line) ↔
      (trim value ≠ "" → opensQsoLine (normalizedTag (normalizedTag tag)) = false) := by
  obtain ⟨parts, hparts, rfl⟩ := Checks.map_eq_ok.mp h
  rw [splitMultilineValue, Checks.ite_error_eq_ok] at hparts
  have hsplit := hparts.2
  by_cases hempty : trim value = ""
  · rw [if_pos (by simp [valueLines_eq_nil.mpr hempty])] at hsplit
    cases hsplit
    rw [hempty]
    exact iff_of_true (fun line hmem => by cases hmem) fun hne => absurd rfl hne
  · have hne := mt valueLines_eq_nil.mp hempty
    rw [if_neg (by simpa using hne)] at hsplit
    cases hsplit
    rw [imp_iff_right hempty]
    constructor
    · intro hplain
      cases hlines : valueLines value with
      | nil => exact absurd hlines hne
      | cons line rest =>
          have hline : line ∈ valueLines value := by
            rw [hlines]
            exact List.mem_cons_self
          have hspec := valueLines_spec hline
          apply (plainLine_headerLine hspec.1).mp _ hspec.2
          intro written hwritten
          exact hplain written (List.mem_flatMap.mpr ⟨line, hline, hwritten⟩)
    · intro htag written hwritten
      obtain ⟨line, hline, hmem⟩ := List.mem_flatMap.mp hwritten
      exact (plainLine_headerLine (valueLines_spec hline).1).mpr (fun _ => htag) written hmem

/-- The tag a header is written with, if it is written. -/
def writtenTag (tag : String) (value : Option String) : List String :=
  if isReservedTag tag || value.all fun value => (trim value).isEmpty then []
  else [normalizedTag (normalizedTag tag)]

/-- The tags of a contest that its log writes a header with. -/
def writtenTags (rules : ContestRules) (cabrillo : CabrilloRules) (exportValues logValues : Map) :
    List String :=
  cabrillo.fixedHeaders.flatMap (fun field => writtenTag field.name (some field.value))
    ++ rules.setupFields.flatMap (fun field => field.cabrilloHeader.toList.flatMap fun header =>
        writtenTag header (parameterValue logValues field))
    ++ cabrillo.exportFields.flatMap fun field =>
        writtenTag field.key (parameterValue exportValues field)

/-- None of these tags makes a header read as a contact. -/
def PlainTags (tags : List String) : Prop := ∀ tag ∈ tags, opensQsoLine tag = false

omit [Platform] in
theorem plainTags_append {tags tags' : List String} :
    PlainTags (tags ++ tags') ↔ PlainTags tags ∧ PlainTags tags' :=
  List.forall_mem_append

omit [Platform] in
theorem plainTags_flatMap {α : Type} {entries : List α} {tags : α → List String} :
    PlainTags (entries.flatMap tags) ↔ ∀ entry ∈ entries, PlainTags (tags entry) := by
  constructor
  · intro h entry hentry tag htag
    exact h tag (List.mem_flatMap.mpr ⟨entry, hentry, htag⟩)
  · intro h tag htag
    obtain ⟨entry, hentry, hmem⟩ := List.mem_flatMap.mp htag
    exact h entry hentry tag hmem

theorem plainTags_writtenTag {tag : String} {value : Option String} :
    PlainTags (writtenTag tag value) ↔
      (isReservedTag tag = false → ∀ text, value = some text → trim text ≠ "" →
        opensQsoLine (normalizedTag (normalizedTag tag)) = false) := by
  rw [writtenTag, PlainTags]
  cases isReservedTag tag with
  | true => exact iff_of_true (fun line hmem => by cases hmem) fun h => by cases h
  | false =>
      rw [imp_iff_right rfl, Bool.false_or]
      cases value with
      | none => exact iff_of_true (fun line hmem => by cases hmem) fun text h => by cases h
      | some text =>
          by_cases hempty : trim text = ""
          · rw [if_pos (by simpa using hempty)]
            refine iff_of_true (fun line hmem => by cases hmem) fun text' heq hne => ?_
            cases heq
            exact absurd hempty hne
          · rw [if_neg (by simpa using hempty), List.forall_mem_singleton]
            exact ⟨fun h text' _ _ => h, fun h => h text rfl hempty⟩

theorem plainLine_fixedHeaderLines {field : CabrilloFixedHeader} {lines : List String}
    (h : fixedHeaderLines field = .ok lines) :
    (∀ line ∈ lines, PlainLine line) ↔ PlainTags (writtenTag field.name (some field.value)) := by
  rw [plainTags_writtenTag]
  rw [fixedHeaderLines] at h
  cases hreserved : isReservedTag field.name with
  | true =>
      rw [hreserved, if_pos rfl] at h
      cases h
      exact iff_of_true (fun line hmem => by cases hmem) fun hfalse => by cases hfalse
  | false =>
      rw [hreserved, if_neg Bool.false_ne_true] at h
      rw [plainLine_headerValue h, imp_iff_right rfl]
      exact ⟨fun htag text heq => by cases heq; exact htag, fun htag => htag field.value rfl⟩

theorem plainLine_fieldLines {values : Map} {tag : String} {field : SetupField}
    {lines : List String} (h : fieldLines values tag field = .ok lines) :
    (∀ line ∈ lines, PlainLine line) ↔
      PlainTags (writtenTag tag (parameterValue values field)) := by
  rw [plainTags_writtenTag]
  rw [fieldLines] at h
  cases hreserved : isReservedTag tag with
  | true =>
      rw [hreserved, if_pos rfl] at h
      cases h
      exact iff_of_true (fun line hmem => by cases hmem) fun hfalse => by cases hfalse
  | false =>
      rw [hreserved, if_neg Bool.false_ne_true] at h
      rw [imp_iff_right rfl]
      cases hvalue : parameterValue values field with
      | none =>
          rw [hvalue] at h
          cases h
          exact iff_of_true (fun line hmem => by cases hmem) fun text heq => by cases heq
      | some value =>
          rw [hvalue] at h
          rw [plainLine_headerValue h]
          exact ⟨fun htag text heq => by cases heq; exact htag, fun htag => htag value rfl⟩

theorem plainLine_setupFieldLines {values : Map} {field : SetupField} {lines : List String}
    (h : setupFieldLines values field = .ok lines) :
    (∀ line ∈ lines, PlainLine line) ↔
      PlainTags (field.cabrilloHeader.toList.flatMap fun header =>
        writtenTag header (parameterValue values field)) := by
  rw [setupFieldLines] at h
  cases hheader : field.cabrilloHeader with
  | none =>
      rw [hheader] at h
      cases h
      exact iff_of_true (fun line hmem => by cases hmem) fun tag hmem => by cases hmem
  | some header =>
      rw [hheader] at h
      rw [plainLine_fieldLines h, Option.toList_some, List.flatMap_cons, List.flatMap_nil,
        List.append_nil]

omit [Platform] in
/-- A table of fields that each write their lines. -/
theorem plainLine_flatten {α : Type} {f : α → Except String (List String)} {tags : α → List String}
    (hstep : ∀ entry lines, f entry = .ok lines →
      ((∀ line ∈ lines, PlainLine line) ↔ PlainTags (tags entry)))
    {entries : List α} {written : List (List String)} (h : entries.mapM f = .ok written) :
    (∀ line ∈ written.flatten, PlainLine line) ↔ PlainTags (entries.flatMap tags) := by
  rw [plainTags_flatMap, List.forall_mem_flatten]
  induction Checks.mapM_eq_ok.mp h with
  | nil => exact iff_of_true (fun _ hmem => by cases hmem) fun _ hmem => by cases hmem
  | cons hentry hrest ih =>
      rw [List.forall_mem_cons, List.forall_mem_cons, hstep _ _ hentry,
        ih (Checks.mapM_eq_ok.mpr hrest)]

end Tags

section Texts

open Validation

theorem jsonTrimmedString_trim (hfloats : TrimmedFloats) {value : Option Value} {s : String}
    (h : jsonTrimmedString value = some s) : trim s = s := by
  have hplain {s : String} (hs : ∀ c ∈ s.toList, isWhitespace c = false) : trim s = s := by
    rw [trim, trimChars_eq_self hs, String.ofList_toList]
  cases value with
  | none => cases h
  | some value =>
      cases value with
      | string text =>
          cases h
          rw [trim, trim, String.toList_ofList, trimChars_trimChars]
      | number n =>
          cases h
          cases n with
          | float value => exact hfloats value
          | int value =>
              apply hplain
              intro c hc
              cases mem_toString_int hc with
              | inl hsign =>
                  rw [hsign]
                  rfl
              | inr hdigit =>
                  have := (isAsciiDigit_iff c).mp hdigit
                  exact isWhitespace_of_printable (by omega) (by omega)
      | bool b =>
          cases h
          cases b <;> rfl
      | null | array _ | object _ => cases h

/-- The token of a callsign that passed validation. -/
theorem tokenString_callsign (hfloats : TrimmedFloats) {label : String} {contact : Contact}
    {name token : String} (htoken : tokenString (contactAdifValue contact name) = some token)
    (h : validateCallsign label (Validation.trimmedField contact name) false = .ok ()) :
    CallsignText token ∧ token ≠ "" := by
  obtain ⟨text, htext, rfl⟩ := Option.map_eq_some_iff.mp htoken
  have hfield : Validation.trimmedField contact name = text := by
    rw [Validation.trimmedField,
      show jsonTrimmedString (contactAdifValue contact name) = some text from htext]
    rfl
  have hspec := validateCallsign_spec h
  rw [hfield, Callsign.normalize, jsonTrimmedString_trim hfloats htext] at hspec
  exact hspec.2

/-- A log is stored with the callsign that was accepted for it. -/
def ValidatedStation (log : Log) : Prop :=
  ∃ submitted, validateCallsign "station callsign" submitted false = .ok ()
    ∧ log.stationCallsign = toUppercase (trim submitted)

theorem ValidatedStation.callsignText {log : Log} (h : ValidatedStation log) :
    CallsignText log.stationCallsign ∧ log.stationCallsign ≠ "" := by
  obtain ⟨submitted, haccepted, heq⟩ := h
  rw [heq]
  exact (validateCallsign_spec haccepted).2

end Texts

section Header

open Validation

theorem normalizedTag_eq_self {tag : String}
    (h : ∀ c ∈ tag.toList, isWhitespace c = false ∧ c.toNat < 128 ∧ c.toUpper = c) :
    normalizedTag tag = tag := by
  have hupper : tag.toList.flatMap upperChar = tag.toList.flatMap fun c => [c] := by
    refine List.flatMap_congr fun c hc => ?_
    rw [upperChar, if_pos (h c hc).2.1, (h c hc).2.2]
  rw [normalizedTag, trim, trimChars_eq_self fun c hc => (h c hc).1, String.ofList_toList,
    toUppercase, hupper]
  simp

/-- The headers every log has: their tags are fixed. -/
theorem plainLine_fixedTag {tag value : String}
    (htag : ∀ c ∈ tag.toList, isWhitespace c = false ∧ c.toNat < 128 ∧ c.toUpper = c)
    (hopens : opensQsoLine tag = false) (hvalue : '\n' ∉ value.toList) :
    ∀ line ∈ headerLine tag value, PlainLine line := by
  apply (plainLine_headerLine fun hmem => hvalue (mem_of_mem_trim hmem)).mpr
  intro _
  rw [normalizedTag_eq_self htag, hopens]

omit [Platform] in
theorem no_feed_cabrilloContestId (rules : ContestRules) :
    '\n' ∉ (trim (cabrilloContestId rules)).toList := by
  rw [cabrilloContestId, splitWhitespace]
  cases hwords : Words.words isWhitespace rules.id.toList with
  | nil =>
      have hblank := trim_eq_empty.mpr (Words.words_eq_nil hwords)
      rw [List.map_nil, List.head?_nil, Option.getD_none, hblank]
      exact List.not_mem_nil
  | cons word rest =>
      intro hmem
      have hword : word ∈ Words.words isWhitespace rules.id.toList := by
        rw [hwords]
        exact List.mem_cons_self
      have hin := mem_of_mem_trim hmem
      rw [List.map_cons, List.head?_cons, Option.getD_some, String.toList_ofList] at hin
      exact absurd ((Words.isWord_of_mem_words hword).2 _ hin) (by decide)

variable [RegexEngine]

theorem no_feed_operators (hfloats : TrimmedFloats) {rules : ContestRules} {bands : List Band}
    {logId : Int} {contacts : List Contact}
    (haccepted : ∀ contact ∈ contacts, validateContact rules bands logId contact = .ok ())
    {operator : String} (h : operator ∈ operators contacts) : '\n' ∉ operator.toList := by
  rw [operators, keys_insertAll, List.map_map] at h
  cases h with
  | inl hmem => cases hmem
  | inr hmem =>
      obtain ⟨token, htokens, rfl⟩ := List.mem_map.mp hmem
      obtain ⟨contact, hcontact, htoken⟩ := List.mem_filterMap.mp htokens
      obtain ⟨mode, h⟩ := validateContact_eq_ok.mp (haccepted contact hcontact)
      have hoperator := h.operator
      rw [validateOperator] at hoperator
      split at hoperator
      · next hempty =>
          obtain ⟨text, htext, rfl⟩ := Option.map_eq_some_iff.mp htoken
          have hfield : Validation.trimmedField contact "OPERATOR" = text := by
            rw [Validation.trimmedField,
              show jsonTrimmedString (contactAdifValue contact "OPERATOR") = some text from htext]
            rfl
          rw [hfield, String.isEmpty_iff] at hempty
          rw [hempty]
          exact List.not_mem_nil
      · exact (tokenString_callsign hfloats htoken hoperator).1.no_feed

omit [RegexEngine] in
theorem plainLine_operatorsLines {contacts : List Contact} {stationCallsign : String}
    (hoperators : ∀ operator ∈ operators contacts, '\n' ∉ operator.toList)
    (hstation : '\n' ∉ (toUppercase (trim stationCallsign)).toList) :
    ∀ line ∈ operatorsLines contacts stationCallsign, PlainLine line := by
  have hwritten {value : String} (hvalue : '\n' ∉ value.toList) :
      ∀ line ∈ headerLine "OPERATORS" value, PlainLine line :=
    plainLine_fixedTag (by decide) (by decide) hvalue
  have hstep (state : List String × String) (operator : String)
      (hstate : (∀ line ∈ state.1, PlainLine line) ∧ '\n' ∉ state.2.toList)
      (hoperator : '\n' ∉ operator.toList) :
      (∀ line ∈ (appendOperator state operator).1, PlainLine line)
        ∧ '\n' ∉ (appendOperator state operator).2.toList := by
    have hcandidate :
        '\n' ∉ (if state.2.isEmpty then operator else state.2 ++ " " ++ operator).toList := by
      split
      · exact hoperator
      · simp [String.toList_append, hstate.2, hoperator]
    rw [appendOperator]
    generalize (if state.2.isEmpty then operator else state.2 ++ " " ++ operator) = candidate at *
    split
    · exact ⟨List.forall_mem_append.mpr ⟨hstate.1, hwritten hstate.2⟩, hoperator⟩
    · exact ⟨hstate.1, hcandidate⟩
  have hfold (names : List String) (hnames : ∀ operator ∈ names, '\n' ∉ operator.toList)
      (state : List String × String)
      (hstate : (∀ line ∈ state.1, PlainLine line) ∧ '\n' ∉ state.2.toList) :
      (∀ line ∈ (names.foldl appendOperator state).1, PlainLine line)
        ∧ '\n' ∉ (names.foldl appendOperator state).2.toList := by
    induction names generalizing state with
    | nil => exact hstate
    | cons operator names ih =>
        rw [List.forall_mem_cons] at hnames
        exact ih hnames.2 _ (hstep state operator hstate hnames.1)
  have hnames : ∀ operator ∈ (if (operators contacts).isEmpty then
      [toUppercase (trim stationCallsign)] else operators contacts), '\n' ∉ operator.toList := by
    split
    · exact List.forall_mem_singleton.mpr hstation
    · exact hoperators
  have hstate := hfold _ hnames ([], "") ⟨by simp, List.not_mem_nil⟩
  rw [operatorsLines]
  generalize (if (operators contacts).isEmpty then
    [toUppercase (trim stationCallsign)] else operators contacts) = names at *
  split
  · exact hstate.1
  · exact List.forall_mem_append.mpr ⟨hstate.1, hwritten hstate.2⟩

/-- The header brings in a contact exactly when one of the written tags does. -/
theorem plainLine_headerLines (hfloats : TrimmedFloats) {rules : ContestRules}
    {cabrillo : CabrilloRules} {log : Log} {bands : List Band} {logId : Int}
    {contacts : List Contact} {exportValues logValues : Map} {claimedScore : Int64}
    {lines : List String} (hstation : ValidatedStation log)
    (haccepted : ∀ contact ∈ contacts, validateContact rules bands logId contact = .ok ())
    (h : headerLines rules cabrillo log contacts exportValues logValues claimedScore = .ok lines) :
    (∀ line ∈ lines, PlainLine line) ↔
      PlainTags (writtenTags rules cabrillo exportValues logValues) := by
  obtain ⟨fixed, hfixed, h⟩ := Checks.bind_eq_ok.mp h
  obtain ⟨setup, hsetup, h⟩ := Checks.bind_eq_ok.mp h
  obtain ⟨exported, hexported, h⟩ := Checks.bind_eq_ok.mp h
  cases h
  have hcallsign := hstation.callsignText.1
  have hstart : ∀ line ∈ ["START-OF-LOG: " ++ startOfLogVersion], PlainLine line := by
    have htext : "START-OF-LOG: " ++ startOfLogVersion =
        "START-OF-LOG" ++ ": " ++ startOfLogVersion := by decide
    rw [List.forall_mem_singleton, htext]
    exact (plainLine_header (by decide)).mpr (by decide)
  have hcreated : ∀ line ∈ headerLine "CREATED-BY" createdByValue, PlainLine line :=
    plainLine_fixedTag (by decide) (by decide) (by decide)
  have hcall : ∀ line ∈ headerLine "CALLSIGN" (trim log.stationCallsign), PlainLine line :=
    plainLine_fixedTag (by decide) (by decide) fun hmem => hcallsign.no_feed (mem_of_mem_trim hmem)
  have hcontest : ∀ line ∈ headerLine "CONTEST" (cabrilloContestId rules), PlainLine line := by
    apply (plainLine_headerLine (no_feed_cabrilloContestId rules)).mpr
    intro _
    rw [normalizedTag_eq_self (by decide)]
    decide
  have hscore : ∀ line ∈ headerLine "CLAIMED-SCORE" (toString claimedScore.toInt),
      PlainLine line := by
    apply plainLine_fixedTag (by decide) (by decide)
    intro hmem
    cases mem_toString_int hmem with
    | inl hsign => exact absurd hsign (by decide)
    | inr hdigit => exact absurd hdigit (by decide)
  have hoperators : ∀ line ∈ operatorsLines contacts log.stationCallsign, PlainLine line := by
    apply plainLine_operatorsLines
    · exact fun operator hmem => no_feed_operators hfloats haccepted hmem
    · rw [hcallsign.trim_eq, toUppercase_callsignText hcallsign]
      exact hcallsign.no_feed
  rw [List.forall_mem_append, List.forall_mem_append, List.forall_mem_append,
    List.forall_mem_append, List.forall_mem_append, List.forall_mem_append,
    List.forall_mem_append, List.forall_mem_append,
    plainLine_flatten (fun _ _ => plainLine_fixedHeaderLines) hfixed,
    plainLine_flatten (fun _ _ => plainLine_setupFieldLines) hsetup,
    plainLine_flatten (fun _ _ => plainLine_fieldLines) hexported, writtenTags, plainTags_append,
    plainTags_append]
  constructor
  · intro hlines
    exact ⟨⟨hlines.1.1.1.2, hlines.1.1.2⟩, hlines.1.2⟩
  · intro htags
    exact ⟨⟨⟨⟨⟨⟨⟨⟨hstart, hcreated⟩, hcall⟩, hcontest⟩, hscore⟩, htags.1.1⟩, htags.1.2⟩, htags.2⟩,
      hoperators⟩

end Header

end Log73.Cabrillo
