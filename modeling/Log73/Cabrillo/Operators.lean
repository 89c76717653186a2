import Log73.Cabrillo.Layout
import Log73.Frontend.Callsign
import Log73.Library.Filling

/-!
The operators of an exported log: each is named once in the header, as long as one of them
has a name.
-/

namespace Log73.Cabrillo

open SortedAssoc Filling
open Frontend (UppercaseLaw upperChar_spec toUppercase_eq_empty normalize_idem)

variable [Platform]

section Lines

/-- Names that fit on one line. -/
def fitsLine (names : List String) : Bool := (joinWith " " names).length ≤ 75

omit [Platform] in
theorem joinWith_concat {names : List String} (hne : names ≠ []) (name : String) :
    joinWith " " (names ++ [name]) = joinWith " " names ++ " " ++ name := by
  rw [joinWith, joinWith]
  induction names with
  | nil => exact absurd rfl hne
  | cons first names ih =>
      cases names with
      | nil =>
          rw [List.cons_append, List.nil_append, String.intercalate_cons_cons,
            String.intercalate_singleton, String.intercalate_singleton]
      | cons second names =>
          have hrest := ih (List.cons_ne_nil second names)
          rw [List.cons_append] at hrest
          rw [List.cons_append, List.cons_append, String.intercalate_cons_cons, hrest,
            String.intercalate_cons_cons]
          simp only [String.append_assoc]

omit [Platform] in
theorem joinWith_eq_empty {names : List String} (h : ∀ name ∈ names, SingleWord name) :
    joinWith " " names = "" ↔ names = [] := by
  constructor
  · intro hempty
    have hnames := splitWhitespace_joinWith h
    rw [hempty] at hnames
    exact hnames.symm
  · intro hnil
    rw [hnil]
    rfl

omit [Platform] in
/-- A line of names starts and ends with a name. -/
theorem trim_joinWith {names : List String} (h : ∀ name ∈ names, SingleWord name) :
    trim (joinWith " " names) = joinWith " " names := by
  have hedges : trimChars (joinWith " " names).toList = (joinWith " " names).toList := by
    apply trimChars_of_edges
    · intro c hc
      cases names with
      | nil => cases hc
      | cons name names =>
          have hname := h name List.mem_cons_self
          have hhead : (joinWith " " (name :: names)).toList.head? = name.toList.head? := by
            cases names with
            | nil => rw [joinWith, String.intercalate_singleton]
            | cons next names =>
                rw [joinWith, String.intercalate_cons_cons, String.toList_append,
                  String.toList_append, List.append_assoc, List.head?_append_of_ne_nil _ hname.1]
          rw [hhead] at hc
          exact hname.2 c (List.mem_of_head? hc)
    · intro c hc
      cases List.eq_nil_or_concat names with
      | inl hnil =>
          rw [hnil] at hc
          cases hc
      | inr hconcat =>
          obtain ⟨front, name, heq⟩ := hconcat
          rw [List.concat_eq_append] at heq
          subst heq
          have hname := h name List.mem_concat_self
          have hlast : (joinWith " " (front ++ [name])).toList.getLast? = name.toList.getLast? := by
            by_cases hfront : front = []
            · rw [hfront, List.nil_append, joinWith, String.intercalate_singleton]
            · rw [joinWith_concat hfront, String.toList_append,
                List.getLast?_append_of_ne_nil _ hname.1]
          rw [hlast] at hc
          exact hname.2 c (List.mem_of_getLast? hc)
  rw [trim, hedges, String.ofList_toList]

def operatorsLine (names : List String) : String := "OPERATORS" ++ ": " ++ joinWith " " names

theorem headerLine_operators {names : List String} (hne : names ≠ [])
    (h : ∀ name ∈ names, SingleWord name) :
    headerLine "OPERATORS" (joinWith " " names) = [operatorsLine names] := by
  have hempty : (joinWith " " names).isEmpty = false := by
    rw [Bool.eq_false_iff, Ne, String.isEmpty_iff, joinWith_eq_empty h]
    exact hne
  rw [headerLine, trim_joinWith h, hempty, if_neg Bool.false_ne_true,
    normalizedTag_eq_self (by decide), operatorsLine]

/-- What the loop over the operators holds for the lines filled so far. -/
def written (state : State String) : List String × String :=
  (state.1.map operatorsLine, joinWith " " state.2)

theorem appendOperator_written {state : State String} {name : String}
    (hstate : ∀ line ∈ lines state, ∀ name ∈ line, SingleWord name) :
    appendOperator (written state) name = written (add fitsLine state name) := by
  by_cases hnil : state.2 = []
  · rw [add, appendOperator, written, hnil]
    simp [joinWith, written]
  · have hcurrent : ∀ name ∈ state.2, SingleWord name := by
      apply hstate
      rw [lines, if_neg (by simpa using hnil)]
      exact List.mem_concat_self
    have hempty : (joinWith " " state.2).isEmpty = false := by
      rw [Bool.eq_false_iff, Ne, String.isEmpty_iff, joinWith_eq_empty hcurrent]
      exact hnil
    have hsome : state.2.isEmpty = false := by simpa using hnil
    rw [appendOperator, add, written, hempty, hsome]
    simp only [Bool.false_eq_true, if_false, Bool.not_false, Bool.and_true, Bool.false_or, fitsLine]
    rw [joinWith_concat hnil]
    by_cases hroom : (joinWith " " state.2 ++ " " ++ name).length ≤ 75
    · rw [if_neg (by simpa using hroom), if_pos (by simpa using hroom), written,
        joinWith_concat hnil]
    · rw [if_pos (by simpa using hroom), if_neg (by simpa using hroom),
        headerLine_operators hnil hcurrent, written, List.map_append]
      simp [joinWith]

/-- The names on the lines, and what follows them, are single words. -/
theorem foldl_appendOperator {names : List String} {state : State String}
    (hstate : ∀ line ∈ lines state, ∀ name ∈ line, SingleWord name)
    (h : ∀ name ∈ names, SingleWord name) :
    names.foldl appendOperator (written state) = written (names.foldl (add fitsLine) state) := by
  induction names generalizing state with
  | nil => rfl
  | cons name names ih =>
      rw [List.forall_mem_cons] at h
      rw [List.foldl_cons, List.foldl_cons, appendOperator_written hstate]
      apply ih _ h.2
      intro line hline other hother
      have hmem : other ∈ (lines (add fitsLine state name)).flatten :=
        List.mem_flatten.mpr ⟨line, hline, hother⟩
      rw [flatten_lines_add, List.mem_append, List.mem_singleton] at hmem
      cases hmem with
      | inl hmem =>
          obtain ⟨line, hline, hother⟩ := List.mem_flatten.mp hmem
          exact hstate line hline other hother
      | inr heq => exact heq ▸ h.1

/-- The lines the operators are written on. -/
def nameLines (names : List String) : List (List String) := lines (fill fitsLine names)

omit [Platform] in
theorem singleWord_nameLines {names : List String} (h : ∀ name ∈ names, SingleWord name) :
    ∀ line ∈ nameLines names, ∀ name ∈ line, SingleWord name := by
  intro line hline name hname
  have hmem : name ∈ (nameLines names).flatten := List.mem_flatten.mpr ⟨line, hline, hname⟩
  rw [nameLines, flatten_fill] at hmem
  exact h name hmem

theorem foldl_lines {names : List String} (h : ∀ name ∈ names, SingleWord name) :
    (let state := names.foldl appendOperator ([], "")
      if state.2.isEmpty then state.1 else state.1 ++ headerLine "OPERATORS" state.2) =
      (nameLines names).map operatorsLine := by
  have hnone : ∀ line ∈ lines (([], []) : State String), ∀ name ∈ line, SingleWord name :=
    fun _ hmem => absurd hmem List.not_mem_nil
  have hfold : names.foldl appendOperator ([], "") = written (fill fitsLine names) :=
    foldl_appendOperator hnone h
  have hwords := singleWord_nameLines h
  rw [hfold, nameLines]
  rw [nameLines] at hwords
  generalize fill fitsLine names = state at *
  by_cases hnil : state.2 = []
  · have hlines : lines state = state.1 := by rw [lines, hnil]; rfl
    rw [hlines, written, hnil]
    rfl
  · have hlines : lines state = state.1 ++ [state.2] := by rw [lines, if_neg (by simpa using hnil)]
    have hcurrent : ∀ name ∈ state.2, SingleWord name := by
      apply hwords
      rw [hlines]
      exact List.mem_concat_self
    have hempty : (joinWith " " state.2).isEmpty = false := by
      rw [Bool.eq_false_iff, Ne, String.isEmpty_iff, joinWith_eq_empty hcurrent]
      exact hnil
    rw [hlines, written]
    dsimp only
    rw [hempty, if_neg Bool.false_ne_true, headerLine_operators hnil hcurrent, List.map_append,
      List.map_singleton]

end Lines

section Names

/-- What the contacts have in their operator field. -/
def operatorTexts (contacts : List Contact) : List String :=
  contacts.filterMap fun contact => contactString (contactAdifValue contact "OPERATOR")

/-- The operators a header is to name. -/
def namedOperators (contacts : List Contact) (stationCallsign : String) : List String :=
  let named := ((operatorTexts contacts).filter fun text => !(trim text).isEmpty).map toUppercase
  if named.isEmpty then [toUppercase (trim stationCallsign)] else named

def operatorsValues (contacts : List Contact) (stationCallsign : String) : List String :=
  (operatorsLines contacts stationCallsign).filterMap (stripPrefix "OPERATORS: ")

/-- Each operator is named once, on lines that are short or hold one operator. -/
structure OperatorsExact (contacts : List Contact) (stationCallsign : String) : Prop where
  nodup : ((operatorsValues contacts stationCallsign).flatMap splitWhitespace).Nodup
  named : ∀ token, token ∈ (operatorsValues contacts stationCallsign).flatMap splitWhitespace ↔
    token ∈ namedOperators contacts stationCallsign
  short : ∀ value ∈ operatorsValues contacts stationCallsign,
    value.length ≤ 75 ∨ (splitWhitespace value).length = 1

variable {contacts : List Contact} {stationCallsign : String}

omit [Platform] in
theorem filterMap_operatorsLine (groups : List (List String)) :
    (groups.map operatorsLine).filterMap (stripPrefix "OPERATORS: ") =
      groups.map (joinWith " ") := by
  rw [List.filterMap_map, ← List.filterMap_eq_map]
  congr 1
  funext names
  apply stripPrefix_eq_some.mpr
  rw [operatorsLine, String.toList_append, String.toList_append]
  rfl

omit [Platform] in
theorem splitWhitespace_names {names : List String} (h : ∀ name ∈ names, SingleWord name) :
    splitWhitespace (joinWith " " names) = names := by
  have hwords := Words.words_intercalate (by decide : isWhitespace ' ' = true)
    (List.forall_mem_map.mpr h) [] rfl
  have hid : String.ofList ∘ String.toList = id := funext fun s => String.ofList_toList
  rw [List.append_nil] at hwords
  have hspace : " ".toList = [' '] := rfl
  rw [splitWhitespace, joinWith, String.toList_intercalate, hspace, hwords, List.map_map, hid,
    List.map_id]

omit [Platform] in
theorem tokens_nameLines {names : List String} (h : ∀ name ∈ names, SingleWord name) :
    ((nameLines names).map (joinWith " ")).flatMap splitWhitespace = names := by
  have hwords := singleWord_nameLines h
  have hlines : (nameLines names).flatMap (fun line => splitWhitespace (joinWith " " line)) =
      (nameLines names).flatMap id :=
    List.flatMap_congr fun line hline => splitWhitespace_names (hwords line hline)
  rw [List.flatMap_map, hlines, List.flatMap_id, nameLines, flatten_fill]

theorem mem_operators {name : String} :
    name ∈ operators contacts ↔ ∃ text ∈ operatorTexts contacts, toUppercase text = name := by
  have htokens : (contacts.filterMap fun contact =>
      tokenString (contactAdifValue contact "OPERATOR")) =
      (operatorTexts contacts).map toUppercase := by
    rw [operatorTexts, List.map_filterMap]
    rfl
  have hfst : (Prod.fst ∘ fun operator : String => (operator, ())) = id := rfl
  rw [operators, keys_insertAll, htokens, List.map_map, hfst, List.map_id]
  constructor
  · intro h
    exact List.mem_map.mp (h.resolve_left List.not_mem_nil)
  · intro h
    exact Or.inr (List.mem_map.mpr h)

theorem pairwise_operators : (operators contacts).Pairwise (· < ·) :=
  List.pairwise_map.mpr (Sorted.insertAll List.Pairwise.nil _)

/-- The blank name comes first and is written on no line. -/
theorem foldl_skip_blank {names : List String} (h : names.Pairwise (· < ·)) :
    names.foldl appendOperator ([], "") =
      (names.filter fun name => !name.isEmpty).foldl appendOperator ([], "") := by
  cases names with
  | nil => rfl
  | cons first rest =>
      have hrest : rest.filter (fun name => !name.isEmpty) = rest := by
        apply List.filter_eq_self.mpr
        intro name hname
        have hlt := (List.pairwise_cons.mp h).1 name hname
        rw [Bool.not_eq_true', Bool.eq_false_iff, Ne, String.isEmpty_iff]
        intro hempty
        rw [hempty, String.lt_iff_toList_lt] at hlt
        exact List.not_lt_nil _ hlt
      rw [List.filter_cons, hrest]
      split
      · rfl
      · next hblank =>
          have hempty : first = "" := by simpa using hblank
          rw [hempty]
          rfl

/-- The names that are written. -/
def writtenNames (contacts : List Contact) (stationCallsign : String) : List String :=
  (if (operators contacts).isEmpty then [toUppercase (trim stationCallsign)]
    else operators contacts).filter fun name => !name.isEmpty

/-- No operator is more than one word. -/
def OperatorsWords (contacts : List Contact) : Prop :=
  ∀ text ∈ operatorTexts contacts, ∀ c ∈ text.toList, isWhitespace c = false

theorem not_isWhitespace_toUppercase (law : UppercaseLaw) {text : String}
    (h : ∀ c ∈ text.toList, isWhitespace c = false) :
    ∀ c ∈ (toUppercase text).toList, isWhitespace c = false := by
  intro d hd
  rw [toUppercase, String.toList_ofList] at hd
  obtain ⟨c, hc, hmem⟩ := List.mem_flatMap.mp hd
  rw [Bool.eq_false_iff]
  intro hspace
  have hself := ((upperChar_spec law c).2 d hmem).2.2 (Or.inl hspace)
  rw [hself, h c hc] at hspace
  cases hspace

theorem singleWord_writtenNames (law : UppercaseLaw) (hwords : OperatorsWords contacts)
    (hstation : SingleWord (toUppercase (trim stationCallsign))) :
    ∀ name ∈ writtenNames contacts stationCallsign, SingleWord name := by
  intro name hname
  obtain ⟨hmem, hne⟩ := List.mem_filter.mp hname
  split at hmem
  · rw [List.mem_singleton.mp hmem]
    exact hstation
  · obtain ⟨text, htext, rfl⟩ := mem_operators.mp hmem
    exact ⟨by simpa using hne, not_isWhitespace_toUppercase law (hwords text htext)⟩

theorem operatorsLines_eq (law : UppercaseLaw) (hwords : OperatorsWords contacts)
    (hstation : SingleWord (toUppercase (trim stationCallsign))) :
    operatorsLines contacts stationCallsign =
      (nameLines (writtenNames contacts stationCallsign)).map operatorsLine := by
  have hsorted : (if (operators contacts).isEmpty then [toUppercase (trim stationCallsign)]
      else operators contacts).Pairwise (· < ·) := by
    split
    · exact List.pairwise_singleton _ _
    · exact pairwise_operators
  rw [← foldl_lines (singleWord_writtenNames law hwords hstation), writtenNames,
    ← foldl_skip_blank hsorted]
  rfl

theorem tokens_operatorsValues (law : UppercaseLaw) (hwords : OperatorsWords contacts)
    (hstation : SingleWord (toUppercase (trim stationCallsign))) :
    (operatorsValues contacts stationCallsign).flatMap splitWhitespace =
      writtenNames contacts stationCallsign := by
  rw [operatorsValues, operatorsLines_eq law hwords hstation, filterMap_operatorsLine,
    tokens_nameLines (singleWord_writtenNames law hwords hstation)]

theorem nodup_writtenNames : (writtenNames contacts stationCallsign).Nodup := by
  apply List.Nodup.filter
  split
  · exact List.nodup_singleton _
  · exact pairwise_operators.imp fun hlt => hlt.ne

theorem operatorsValues_short (law : UppercaseLaw) (hwords : OperatorsWords contacts)
    (hstation : SingleWord (toUppercase (trim stationCallsign))) :
    ∀ value ∈ operatorsValues contacts stationCallsign,
      value.length ≤ 75 ∨ (splitWhitespace value).length = 1 := by
  have hnames := singleWord_writtenNames law hwords hstation
  rw [operatorsValues, operatorsLines_eq law hwords hstation, filterMap_operatorsLine,
    List.forall_mem_map]
  intro line hline
  rw [splitWhitespace_names (singleWord_nameLines hnames line hline)]
  exact (fits_fill _ line hline).2.imp_left of_decide_eq_true

/-- Some operator has a name, or no contact has an operator. -/
def SomeNamed (contacts : List Contact) : Prop :=
  operatorTexts contacts = [] ∨ ∃ text ∈ operatorTexts contacts, text ≠ ""

theorem mem_writtenNames (law : UppercaseLaw) (hsome : operatorTexts contacts ≠ [])
    {token : String} : token ∈ writtenNames contacts stationCallsign ↔
      ∃ text ∈ operatorTexts contacts, text ≠ "" ∧ toUppercase text = token := by
  have hoperators : (operators contacts).isEmpty = false := by
    obtain ⟨text, rest, htexts⟩ := List.exists_cons_of_ne_nil hsome
    have hmem : toUppercase text ∈ operators contacts :=
      mem_operators.mpr ⟨text, htexts ▸ List.mem_cons_self, rfl⟩
    rw [Bool.eq_false_iff, Ne, List.isEmpty_iff]
    exact List.ne_nil_of_mem hmem
  rw [writtenNames, hoperators, if_neg Bool.false_ne_true, List.mem_filter, mem_operators]
  constructor
  · intro h
    obtain ⟨⟨text, htext, rfl⟩, hne⟩ := h
    refine ⟨text, htext, ?_, rfl⟩
    intro hempty
    rw [hempty] at hne
    cases hne
  · intro h
    obtain ⟨text, htext, hne, rfl⟩ := h
    refine ⟨⟨text, htext, rfl⟩, ?_⟩
    rw [Bool.not_eq_true', Bool.eq_false_iff, Ne, String.isEmpty_iff, toUppercase_eq_empty law]
    exact hne

theorem mem_named (hwords : OperatorsWords contacts) {token : String} :
    token ∈ ((operatorTexts contacts).filter fun text => !(trim text).isEmpty).map toUppercase ↔
      ∃ text ∈ operatorTexts contacts, text ≠ "" ∧ toUppercase text = token := by
  rw [List.mem_map]
  refine exists_congr fun text => ?_
  rw [List.mem_filter, and_assoc]
  refine and_congr_right fun htext => ?_
  rw [trim, trimChars_eq_self (hwords text htext), String.ofList_toList, Bool.not_eq_true',
    Bool.eq_false_iff, Ne, String.isEmpty_iff]

theorem mem_writtenNames_iff (law : UppercaseLaw) (hwords : OperatorsWords contacts)
    (hstation : SingleWord (toUppercase (trim stationCallsign))) :
    (∀ token, token ∈ writtenNames contacts stationCallsign ↔
      token ∈ namedOperators contacts stationCallsign) ↔ SomeNamed contacts := by
  by_cases hnone : operatorTexts contacts = []
  · have hoperators : operators contacts = [] := by
      apply List.eq_nil_iff_forall_not_mem.mpr
      intro name hname
      obtain ⟨text, htext, -⟩ := mem_operators.mp hname
      rw [hnone] at htext
      cases htext
    have hblank : (toUppercase (trim stationCallsign)).isEmpty = false := by
      rw [Bool.eq_false_iff, Ne, String.isEmpty_iff]
      intro hempty
      exact hstation.1 (String.toList_eq_nil_iff.mpr hempty)
    have hwritten : writtenNames contacts stationCallsign =
        [toUppercase (trim stationCallsign)] := by
      rw [writtenNames, hoperators, List.isEmpty_nil, if_pos rfl, List.filter_cons, hblank]
      rfl
    have hnamed : namedOperators contacts stationCallsign =
        [toUppercase (trim stationCallsign)] := by
      rw [namedOperators, hnone]
      rfl
    rw [hwritten, hnamed]
    exact iff_of_true (fun _ => Iff.rfl) (Or.inl hnone)
  · by_cases hsome : ∃ text ∈ operatorTexts contacts, text ≠ ""
    · refine iff_of_true (fun token => ?_) (Or.inr hsome)
      obtain ⟨text, htext, hne⟩ := hsome
      have hmem := (mem_named hwords).mpr ⟨text, htext, hne, rfl⟩
      rw [mem_writtenNames law hnone, namedOperators, if_neg, mem_named hwords]
      rw [List.isEmpty_iff]
      exact List.ne_nil_of_mem hmem
    · refine iff_of_false (fun hall => ?_) fun h => h.elim hnone hsome
      -- Blank operators only: the fallback is named and not written.
      have hnamed : ((operatorTexts contacts).filter fun text => !(trim text).isEmpty).map
          toUppercase = [] := by
        apply List.eq_nil_iff_forall_not_mem.mpr
        intro token htoken
        obtain ⟨text, htext, hne, -⟩ := (mem_named hwords).mp htoken
        exact hsome ⟨text, htext, hne⟩
      have hmem := (hall (toUppercase (trim stationCallsign))).mpr <| by
        rw [namedOperators, hnamed]
        exact List.mem_singleton_self _
      obtain ⟨text, htext, hne, -⟩ := (mem_writtenNames law hnone).mp hmem
      exact hsome ⟨text, htext, hne⟩

theorem operatorsExact_iff_someNamed (law : UppercaseLaw) (hwords : OperatorsWords contacts)
    (hstation : SingleWord (toUppercase (trim stationCallsign))) :
    OperatorsExact contacts stationCallsign ↔ SomeNamed contacts := by
  have htokens := tokens_operatorsValues law hwords hstation
  rw [← mem_writtenNames_iff law hwords hstation]
  constructor
  · intro h token
    rw [← h.named, htokens]
  · intro h
    refine ⟨?_, ?_, operatorsValues_short law hwords hstation⟩
    · rw [htokens]
      exact nodup_writtenNames
    · rw [htokens]
      exact h

end Names

section Log

variable {rules : ContestRules} {log : Log} {contacts : List Contact} {bands : List Band}

/-- A line under another tag than that of the operators. -/
def OtherTag (line : String) : Prop :=
  ∃ tag value, line = tag ++ ": " ++ value ∧ tag ≠ "OPERATORS"

/-- The lines of the operators are those of the text under their tag, and stand in front of
its contacts. -/
def OperatorsHeader (rules : ContestRules) (log : Log) (contacts : List Contact)
    (bands : List Band) (text : String) : Prop :=
  ∃ front qsos,
    text = joinWith "\r\n" (front ++ (operatorsValues contacts log.stationCallsign).map
        (fun value => "OPERATORS" ++ ": " ++ value) ++ qsos ++ ["END-OF-LOG:"]) ++ "\r\n"
      ∧ (∀ line ∈ front, OtherTag line)
      ∧ List.Forall₂ (fun contact line => renderQsoLine rules log contact bands = .ok line)
          contacts qsos

theorem otherTag_headerLine {tag value line : String} (htag : normalizedTag tag ≠ "OPERATORS")
    (h : line ∈ headerLine tag value) : OtherTag line := by
  rw [headerLine] at h
  split at h
  · cases h
  · exact ⟨_, _, List.mem_singleton.mp h, htag⟩

theorem otherTag_headerValue (law : UppercaseLaw) {tag value : String} {maxLines : Option Nat}
    {lines : List String} (htag : isReservedTag tag = false)
    (h : headerValue tag value maxLines = .ok lines) : ∀ line ∈ lines, OtherTag line := by
  obtain ⟨parts, -, rfl⟩ := Checks.map_eq_ok.mp h
  intro line hline
  obtain ⟨part, -, hmem⟩ := List.mem_flatMap.mp hline
  have hnormal : normalizedTag (normalizedTag tag) = normalizedTag tag := normalize_idem law tag
  refine otherTag_headerLine ?_ hmem
  rw [hnormal]
  intro heq
  rw [isReservedTag, heq] at htag
  exact absurd htag (by decide)

theorem otherTag_fixedHeaderLines (law : UppercaseLaw) {field : CabrilloFixedHeader}
    {lines : List String} (h : fixedHeaderLines field = .ok lines) :
    ∀ line ∈ lines, OtherTag line := by
  rw [fixedHeaderLines] at h
  split at h
  · cases h
    exact fun _ hmem => absurd hmem List.not_mem_nil
  · next hreserved => exact otherTag_headerValue law (Bool.eq_false_iff.mpr hreserved) h

theorem otherTag_fieldLines (law : UppercaseLaw) {values : Map} {tag : String} {field : SetupField}
    {lines : List String} (h : fieldLines values tag field = .ok lines) :
    ∀ line ∈ lines, OtherTag line := by
  rw [fieldLines] at h
  split at h
  · cases h
    exact fun _ hmem => absurd hmem List.not_mem_nil
  · next hreserved =>
      split at h
      · exact otherTag_headerValue law (Bool.eq_false_iff.mpr hreserved) h
      · cases h
        exact fun _ hmem => absurd hmem List.not_mem_nil

theorem otherTag_setupFieldLines (law : UppercaseLaw) {values : Map} {field : SetupField}
    {lines : List String} (h : setupFieldLines values field = .ok lines) :
    ∀ line ∈ lines, OtherTag line := by
  rw [setupFieldLines] at h
  split at h
  · exact otherTag_fieldLines law h
  · cases h
    exact fun _ hmem => absurd hmem List.not_mem_nil

omit [Platform] in
theorem otherTag_flatten {α : Type} {f : α → Except String (List String)}
    (hstep : ∀ entry lines, f entry = .ok lines → ∀ line ∈ lines, OtherTag line)
    {entries : List α} {written : List (List String)} (h : entries.mapM f = .ok written) :
    ∀ line ∈ written.flatten, OtherTag line := by
  intro line hline
  obtain ⟨lines, hlines, hmem⟩ := List.mem_flatten.mp hline
  obtain ⟨entry, -, hentry⟩ := Checks.exists_of_mem_right (Checks.mapM_eq_ok.mp h) hlines
  exact hstep entry lines hentry line hmem

theorem headerLines_eq_ok (law : UppercaseLaw) {cabrillo : CabrilloRules}
    {exportValues logValues : Map} {claimedScore : Int64} {lines : List String}
    (h : headerLines rules cabrillo log contacts exportValues logValues claimedScore = .ok lines) :
    ∃ front, lines = front ++ operatorsLines contacts log.stationCallsign
      ∧ ∀ line ∈ front, OtherTag line := by
  obtain ⟨fixed, hfixed, h⟩ := Checks.bind_eq_ok.mp h
  obtain ⟨setup, hsetup, h⟩ := Checks.bind_eq_ok.mp h
  obtain ⟨exported, hexported, h⟩ := Checks.bind_eq_ok.mp h
  cases h
  have hstart : OtherTag ("START-OF-LOG: " ++ startOfLogVersion) :=
    ⟨"START-OF-LOG", startOfLogVersion, by decide, by decide⟩
  have htag {tag value : String}
      (hplain : ∀ c ∈ tag.toList, isWhitespace c = false ∧ c.toNat < 128 ∧ c.toUpper = c)
      (hne : tag ≠ "OPERATORS") : ∀ line ∈ headerLine tag value, OtherTag line := by
    intro line hline
    refine otherTag_headerLine ?_ hline
    rw [normalizedTag_eq_self hplain]
    exact hne
  refine ⟨_, rfl, ?_⟩
  rw [List.forall_mem_append, List.forall_mem_append, List.forall_mem_append,
    List.forall_mem_append, List.forall_mem_append, List.forall_mem_append,
    List.forall_mem_append, List.forall_mem_singleton]
  exact ⟨⟨⟨⟨⟨⟨⟨hstart, htag (by decide) (by decide)⟩, htag (by decide) (by decide)⟩,
    htag (by decide) (by decide)⟩, htag (by decide) (by decide)⟩,
    otherTag_flatten (fun _ _ => otherTag_fixedHeaderLines law) hfixed⟩,
    otherTag_flatten (fun _ _ => otherTag_setupFieldLines law) hsetup⟩,
    otherTag_flatten (fun _ _ => otherTag_fieldLines law) hexported⟩

theorem operatorsHeader (law : UppercaseLaw) {exportParams : Value} {claimedScore : Int64}
    {text : String} (hwords : OperatorsWords contacts)
    (hstation : SingleWord (toUppercase (trim log.stationCallsign)))
    (h : renderLog rules log contacts exportParams claimedScore bands = .ok text) :
    OperatorsHeader rules log contacts bands text := by
  obtain ⟨cabrillo, -, h⟩ := Checks.bind_eq_ok.mp h
  obtain ⟨exportValues, -, h⟩ := Checks.bind_eq_ok.mp h
  obtain ⟨logValues, -, h⟩ := Checks.bind_eq_ok.mp h
  obtain ⟨header, hheader, h⟩ := Checks.bind_eq_ok.mp h
  obtain ⟨qsos, hqsos, h⟩ := Checks.bind_eq_ok.mp h
  cases h
  obtain ⟨front, rfl, hfront⟩ := headerLines_eq_ok law hheader
  refine ⟨front, qsos, ?_, hfront, Checks.mapM_eq_ok.mp hqsos⟩
  have hvalues : (operatorsValues contacts log.stationCallsign).map
      (fun value => "OPERATORS" ++ ": " ++ value) =
        operatorsLines contacts log.stationCallsign := by
    rw [operatorsValues, operatorsLines_eq law hwords hstation, filterMap_operatorsLine,
      List.map_map]
    rfl
  rw [hvalues]

/-- The operators of an exported log are named exactly once each, on lines of at most 75
characters or of one operator, exactly when one of them has a name or no contact has an
operator: an operator field that is blank takes the station's own callsign away. -/
theorem operatorsExact_iff (law : UppercaseLaw) {exportParams : Value} {claimedScore : Int64}
    {text : String} (hstation : ValidatedStation log) (hwords : OperatorsWords contacts)
    (h : renderLog rules log contacts exportParams claimedScore bands = .ok text) :
    OperatorsHeader rules log contacts bands text
      ∧ (OperatorsExact contacts log.stationCallsign ↔ SomeNamed contacts) := by
  have hcallsign := hstation.callsignText
  have hword : SingleWord (toUppercase (trim log.stationCallsign)) := by
    rw [hcallsign.1.trim_eq, Validation.toUppercase_callsignText hcallsign.1]
    exact singleWord_callsignText hcallsign.1 hcallsign.2
  exact ⟨operatorsHeader law hwords hword h, operatorsExact_iff_someNamed law hwords hword⟩

end Log

end Log73.Cabrillo

namespace Log73

attribute [local instance] asciiPlatform matchAll

namespace Cabrillo

open Validation

def operatorContact (operator : String) : Contact :=
  buildContact [] [("BAND", .string "20m"), ("CALL", .string "K5ZD"),
    ("CONTEST_ID", .string "QSO-PARTY"), ("FREQ", .ofInt 14025000), ("MODE", .string "CW"),
    ("NAME", .string "ED"), ("OPERATOR", .string operator),
    ("QSO_DATE_TIME_ON", .ofInt 1700000000), ("STATION_CALLSIGN", .string "W1AW")]

/-- With a blank operator the header names nobody, and not the station either. -/
theorem operator_blank_unnamed :
    validateContact partyRules partyBands 1 (operatorContact " ") = .ok ()
      ∧ ValidatedStation partyLog ∧ OperatorsWords [operatorContact " "]
      ∧ renderLog partyRules partyLog [operatorContact " "] .null 0 partyBands =
          .ok ("START-OF-LOG: 3.0\r\nCREATED-BY: Log73\r\nCALLSIGN: W1AW\r\nCONTEST: QSO-PARTY\r\n"
            ++ "CLAIMED-SCORE: 0\r\n"
            ++ "QSO: 14025 CW 2023-11-14 2213 W1AW K5ZD ED\r\nEND-OF-LOG:\r\n")
      ∧ ¬OperatorsExact [operatorContact " "] partyLog.stationCallsign := by
  refine ⟨by decide +kernel, ⟨"W1AW", by decide +kernel, by decide +kernel⟩, ?_, by decide +kernel,
    ?_⟩
  · have htexts : operatorTexts [operatorContact " "] = [""] := by decide +kernel
    rw [OperatorsWords, htexts, List.forall_mem_singleton]
    exact fun _ hmem => absurd hmem List.not_mem_nil
  · intro hexact
    have hnamed : "W1AW" ∈ namedOperators [operatorContact " "] partyLog.stationCallsign := by
      decide +kernel
    exact absurd ((hexact.named "W1AW").mpr hnamed) (by decide +kernel)

theorem operatorsExact_iff_party :
    OperatorsHeader partyRules partyLog [operatorContact "k1abc"] partyBands
        ("START-OF-LOG: 3.0\r\nCREATED-BY: Log73\r\nCALLSIGN: W1AW\r\nCONTEST: QSO-PARTY\r\n"
          ++ "CLAIMED-SCORE: 0\r\nOPERATORS: K1ABC\r\n"
          ++ "QSO: 14025 CW 2023-11-14 2213 W1AW K5ZD ED\r\nEND-OF-LOG:\r\n")
      ∧ (OperatorsExact [operatorContact "k1abc"] partyLog.stationCallsign ↔
          SomeNamed [operatorContact "k1abc"]) := by
  have hstation : ValidatedStation partyLog := ⟨"W1AW", by decide +kernel, by decide +kernel⟩
  have hwords : OperatorsWords [operatorContact "k1abc"] := by
    have htexts : operatorTexts [operatorContact "k1abc"] = ["k1abc"] := by decide +kernel
    rw [OperatorsWords, htexts, List.forall_mem_singleton]
    decide
  have hrender : renderLog partyRules partyLog [operatorContact "k1abc"] .null 0 partyBands =
      .ok ("START-OF-LOG: 3.0\r\nCREATED-BY: Log73\r\nCALLSIGN: W1AW\r\nCONTEST: QSO-PARTY\r\n"
        ++ "CLAIMED-SCORE: 0\r\nOPERATORS: K1ABC\r\n"
        ++ "QSO: 14025 CW 2023-11-14 2213 W1AW K5ZD ED\r\nEND-OF-LOG:\r\n") := by
    decide +kernel
  exact operatorsExact_iff Frontend.uppercaseLaw_ascii hstation hwords hrender

end Cabrillo

end Log73
