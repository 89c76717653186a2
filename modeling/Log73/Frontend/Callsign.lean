import Log73.Frontend.Text

/-!
The callsign parser of the frontend (`callsign.js`), the mirror of `callsign.rs`. A slash
is one code unit, so its index in characters cuts a text where its index in code units does.
-/

namespace Log73.Frontend

def indexOf (c : Char) : List Char → Option Nat
  | [] => none
  | d :: cs => if d = c then some 0 else (indexOf c cs).map (· + 1)

def lastIndexOf (c : Char) : List Char → Option Nat
  | [] => none
  | d :: cs =>
      match lastIndexOf c cs with
      | some i => some (i + 1)
      | none => if d = c then some 0 else none

theorem indexOf_eq_none {c : Char} {cs : List Char} (h : c ∉ cs) : indexOf c cs = none := by
  induction cs with
  | nil => rfl
  | cons d cs ih =>
      rw [List.mem_cons, not_or] at h
      rw [indexOf, if_neg (Ne.symm h.1), ih h.2]
      rfl

theorem indexOf_append {c : Char} {front : List Char} (h : c ∉ front) (back : List Char) :
    indexOf c (front ++ c :: back) = some front.length := by
  induction front with
  | nil => exact if_pos rfl
  | cons d front ih =>
      rw [List.mem_cons, not_or] at h
      rw [List.cons_append, indexOf, if_neg (Ne.symm h.1), ih h.2]
      rfl

theorem lastIndexOf_eq_none {c : Char} {cs : List Char} (h : c ∉ cs) :
    lastIndexOf c cs = none := by
  induction cs with
  | nil => rfl
  | cons d cs ih =>
      rw [List.mem_cons, not_or] at h
      rw [lastIndexOf, ih h.2]
      exact if_neg (Ne.symm h.1)

theorem lastIndexOf_isSome {c : Char} {cs : List Char} (h : c ∈ cs) :
    ∃ i, lastIndexOf c cs = some i := by
  induction cs with
  | nil => exact absurd h List.not_mem_nil
  | cons d cs ih =>
      rw [lastIndexOf]
      cases hlast : lastIndexOf c cs with
      | some i => exact ⟨i + 1, rfl⟩
      | none =>
          cases List.mem_cons.mp h with
          | inl heq => exact ⟨0, if_pos heq.symm⟩
          | inr hmem =>
              obtain ⟨i, hi⟩ := ih hmem
              rw [hi] at hlast
              cases hlast

theorem lastIndexOf_append (c : Char) (front back : List Char) :
    lastIndexOf c (front ++ c :: back) =
      some (front.length + (lastIndexOf c back).elim 0 (· + 1)) := by
  induction front with
  | nil =>
      rw [List.nil_append, lastIndexOf]
      cases lastIndexOf c back with
      | some i => rw [List.length_nil, Nat.zero_add]; rfl
      | none => exact if_pos rfl
  | cons d front ih =>
      rw [List.cons_append, lastIndexOf, ih, List.length_cons]
      exact congrArg some (by omega)

/-- The first slash of a text has the rest of the text around it. -/
theorem exists_append_of_mem {c : Char} {cs : List Char} (h : c ∈ cs) :
    ∃ front back, c ∉ front ∧ cs = front ++ c :: back := by
  induction cs with
  | nil => exact absurd h List.not_mem_nil
  | cons d cs ih =>
      by_cases heq : d = c
      · exact ⟨[], cs, List.not_mem_nil, by rw [heq]; rfl⟩
      · cases List.mem_cons.mp h with
        | inl hd => exact absurd hd.symm heq
        | inr hmem =>
            obtain ⟨front, back, hfront, hcs⟩ := ih hmem
            refine ⟨d :: front, back, ?_, by rw [hcs]; rfl⟩
            rw [List.mem_cons, not_or]
            exact ⟨Ne.symm heq, hfront⟩

theorem drop_length_append (front back : List Char) (c : Char) :
    (front ++ c :: back).drop (front.length + 1) = back := by
  rw [← List.drop_drop, List.drop_left, List.drop_one, List.tail_cons]

/-- Where the first slash of a text is also its last one and stands at neither end. -/
theorem middleSlash_iff {front back : List Char} :
    (front.length = 0 ∨ lastIndexOf '/' (front ++ '/' :: back) ≠ some front.length
      ∨ front.length = (front ++ '/' :: back).length - 1) ↔
      front = [] ∨ '/' ∈ back ∨ back = [] := by
  have hlength : (front ++ '/' :: back).length = front.length + (back.length + 1) :=
    List.length_append
  have hlast : lastIndexOf '/' (front ++ '/' :: back) ≠ some front.length ↔ '/' ∈ back := by
    rw [lastIndexOf_append, Ne, Option.some_inj]
    by_cases hmem : '/' ∈ back
    · obtain ⟨i, hi⟩ := lastIndexOf_isSome hmem
      rw [hi]
      exact iff_of_true (fun h => by rw [Option.elim_some] at h; omega) hmem
    · rw [lastIndexOf_eq_none hmem]
      exact iff_of_false (fun h => h rfl) hmem
  have hend : front.length = (front ++ '/' :: back).length - 1 ↔ back = [] := by
    rw [hlength, ← List.length_eq_zero_iff]
    omega
  rw [hlast, hend, List.length_eq_zero_iff]

theorem splitMiddleSlash_eq_none {cs : List Char} (h : '/' ∉ cs) :
    Callsign.splitMiddleSlash cs = .none := by
  rw [Callsign.splitMiddleSlash, splitOnChar_eq_singleton h]

theorem splitMiddleSlash_append {front : List Char} (h : '/' ∉ front) (back : List Char) :
    Callsign.splitMiddleSlash (front ++ '/' :: back) =
      if front = [] ∨ '/' ∈ back ∨ back = [] then .invalid else .pair front back := by
  rw [Callsign.splitMiddleSlash, splitOnChar_append h]
  by_cases hmem : '/' ∈ back
  · obtain ⟨middle, rest, hmiddle, hback⟩ := exists_append_of_mem hmem
    rw [if_pos (Or.inr (Or.inl hmem)), hback, splitOnChar_append hmiddle]
    cases hrest : splitOnChar '/' rest with
    | nil => exact absurd hrest (splitOnChar_ne_nil '/' rest)
    | cons part parts => rfl
  · rw [splitOnChar_eq_singleton hmem]
    by_cases hempty : front = [] ∨ '/' ∈ back ∨ back = []
    · rw [if_pos hempty]
      refine if_pos ?_
      rw [Bool.or_eq_true, List.isEmpty_iff, List.isEmpty_iff]
      cases hempty with
      | inl hfront => exact Or.inl hfront
      | inr hrest => exact Or.inr (hrest.resolve_left hmem)
    · rw [if_neg hempty]
      refine if_neg fun hor => hempty ?_
      rw [Bool.or_eq_true, List.isEmpty_iff, List.isEmpty_iff] at hor
      exact hor.imp_right Or.inr

/-- The components of a text that has one slash inside. -/
theorem eq_of_splitMiddleSlash {cs left right : List Char}
    (h : Callsign.splitMiddleSlash cs = .pair left right) :
    cs = left ++ '/' :: right ∧ left ≠ [] ∧ right ≠ [] := by
  by_cases hmem : '/' ∈ cs
  · obtain ⟨front, back, hfront, heq⟩ := exists_append_of_mem hmem
    rw [heq, splitMiddleSlash_append hfront] at h
    split at h
    · cases h
    · next hedge =>
        cases h
        exact ⟨heq, fun h => hedge (Or.inl h), fun h => hedge (Or.inr (Or.inr h))⟩
  · rw [splitMiddleSlash_eq_none hmem] at h
    cases h

/-- `[A-Z0-9]`. -/
def isCallsignCharacter (c : Char) : Bool := isAsciiUppercase c || isAsciiDigit c

def isDigitUnit (unit : Nat) : Bool := 48 ≤ unit && unit ≤ 57

/-- A digit in the second or third code unit. -/
def isCallsignLike (component : List Char) : Bool :=
  isDigitUnit ((units component).getD 1 0) || isDigitUnit ((units component).getD 2 0)

/-- The station identity among two slash components, whose characters are counted. -/
def resolvePair (left right : List Char) : Option (List Char) :=
  let leftLike := isCallsignLike left
  let rightLike := isCallsignLike right
  if !leftLike && rightLike then some right
  else if leftLike && !rightLike then some left
  else if leftLike && rightLike then
    if right.length < left.length then some left else some right
  else none

def parseBase (normalized : List Char) : Option (List Char) :=
  match indexOf '/' normalized with
  | none => some normalized
  | some slashIndex =>
      if slashIndex = 0 || lastIndexOf '/' normalized != some slashIndex
          || slashIndex = normalized.length - 1 then none
      else resolvePair (normalized.take slashIndex) (normalized.drop (slashIndex + 1))

/-- Both parsers resolve the same two components. -/
theorem parseBase_eq (normalized : List Char) :
    parseBase normalized =
      match Callsign.splitMiddleSlash normalized with
      | .none => some normalized
      | .pair left right => resolvePair left right
      | .invalid => none := by
  rw [parseBase]
  by_cases hmem : '/' ∈ normalized
  · obtain ⟨front, back, hfront, heq⟩ := exists_append_of_mem hmem
    rw [heq, indexOf_append hfront, splitMiddleSlash_append hfront]
    by_cases hedge : front = [] ∨ '/' ∈ back ∨ back = []
    · rw [if_pos hedge]
      refine if_pos ?_
      simpa [or_assoc] using middleSlash_iff.mpr hedge
    · rw [if_neg hedge]
      refine (if_neg fun h => hedge (middleSlash_iff.mp ?_)).trans ?_
      · simpa [or_assoc] using h
      · rw [List.take_left, drop_length_append]
  · rw [indexOf_eq_none hmem, splitMiddleSlash_eq_none hmem]

variable [Platform]

def normalizeCallsign (value : String) : String := toUpperCase (trim value)

def dupeIdentity (value : String) : String :=
  let normalized := (normalizeCallsign value).toList
  String.ofList ((parseBase normalized).getD normalized)

/-- Both sides normalize alike what they trim alike. -/
theorem normalizeCallsign_eq {value : String} (h : TrimsAlike value.toList) :
    normalizeCallsign value = Callsign.normalize value := by
  rw [normalizeCallsign, h.trim_eq]
  rfl

theorem Plain.normalize (law : UppercaseLaw) {value : String} (h : Plain value) :
    Plain (Callsign.normalize value) := Plain.toUppercase law h.trim

/-- A component with a character that is not white space is not empty when normalized. -/
theorem normalize_ne_empty (law : UppercaseLaw) {component : List Char} {d : Char}
    (hmem : d ∈ component) (hspace : Log73.isWhitespace d = false) :
    Callsign.normalize (String.ofList component) ≠ "" := by
  have htrim : Log73.trimChars component ≠ [] := by
    intro hnil
    have hdrop := List.reverse_eq_nil_iff.mp hnil
    rw [List.dropWhile_eq_nil_iff] at hdrop
    have hall : component.dropWhile Log73.isWhitespace = [] := by
      cases hrest : component.dropWhile Log73.isWhitespace with
      | nil => rfl
      | cons c cs =>
          have hhead := List.head?_dropWhile_not Log73.isWhitespace component
          rw [hrest] at hhead hdrop
          have hc : Log73.isWhitespace c = false := hhead
          rw [hdrop c (List.mem_reverse.mpr List.mem_cons_self)] at hc
          cases hc
    rw [List.dropWhile_eq_nil_iff] at hall
    rw [hall d hmem] at hspace
    cases hspace
  cases hcs : Log73.trimChars component with
  | nil => exact absurd hcs htrim
  | cons c cs =>
      intro hempty
      have hnil := congrArg String.toList hempty
      rw [Callsign.normalize, toUppercase, Log73.trim, String.toList_ofList, String.toList_ofList,
        String.toList_ofList, hcs, List.flatMap_cons] at hnil
      exact (upperChar_spec law c).1 (List.append_eq_nil_iff.mp hnil).1

theorem isWhitespace_upperChar (law : UppercaseLaw) {c d : Char} (hd : d ∈ upperChar c)
    (hc : Log73.isWhitespace c = false) : Log73.isWhitespace d = false := by
  cases hspace : Log73.isWhitespace d with
  | false => rfl
  | true =>
      rw [((upperChar_spec law c).2 d hd).2.2 (Or.inl hspace), hc] at hspace
      cases hspace

/-- A normalized callsign starts with a character that is not white space. -/
theorem isWhitespace_head (law : UppercaseLaw) {callsign : String} {d : Char} {rest : List Char}
    (h : (Callsign.normalize callsign).toList = d :: rest) : Log73.isWhitespace d = false := by
  rw [Callsign.normalize, toUppercase, Log73.trim, String.toList_ofList, String.toList_ofList] at h
  cases hcs : Log73.trimChars callsign.toList with
  | nil =>
      rw [hcs] at h
      cases h
  | cons c cs =>
      have hc : Log73.isWhitespace c = false := isWhitespace_head_trimChars (by rw [hcs]; rfl)
      cases hupper : upperChar c with
      | nil => exact absurd hupper (upperChar_spec law c).1
      | cons e es =>
          rw [hcs, List.flatMap_cons, hupper, List.cons_append, List.cons_eq_cons] at h
          exact isWhitespace_upperChar law (by rw [hupper, h.1]; exact List.mem_cons_self) hc

/-- A normalized callsign ends with a character that is not white space. -/
theorem isWhitespace_last (law : UppercaseLaw) {callsign : String} {d : Char} {front : List Char}
    (h : (Callsign.normalize callsign).toList = front ++ [d]) : Log73.isWhitespace d = false := by
  rw [Callsign.normalize, toUppercase, Log73.trim, String.toList_ofList, String.toList_ofList] at h
  cases List.eq_nil_or_concat (Log73.trimChars callsign.toList) with
  | inl hnil =>
      rw [hnil] at h
      exact absurd h.symm (List.append_ne_nil_of_right_ne_nil _ (List.cons_ne_nil _ _))
  | inr hconcat =>
      obtain ⟨cs, c, hcs⟩ := hconcat
      rw [List.concat_eq_append] at hcs
      have hc : Log73.isWhitespace c = false :=
        isWhitespace_last_trimChars (by rw [hcs, List.getLast?_concat])
      cases List.eq_nil_or_concat (upperChar c) with
      | inl hupper => exact absurd hupper (upperChar_spec law c).1
      | inr hupper =>
          obtain ⟨es, e, hes⟩ := hupper
          rw [List.concat_eq_append] at hes
          rw [hcs, List.flatMap_append, List.flatMap_singleton, hes, ← List.append_assoc] at h
          have heq := List.append_inj_right' h rfl
          refine isWhitespace_upperChar law ?_ hc
          rw [hes, heq]
          exact List.mem_append_right es List.mem_cons_self

theorem sameSpace_upperChar (law : UppercaseLaw) {c d : Char} (hd : d ∈ upperChar c)
    (h : isWhitespace c = Log73.isWhitespace c) : isWhitespace d = Log73.isWhitespace d := by
  by_cases hmark : d.toNat = 0x85 ∨ d.toNat = 0xFEFF
  · have hsame : d = c := by
      apply ((upperChar_spec law c).2 d hd).2.2
      refine hmark.imp_left fun hcode => ?_
      rw [Log73.isWhitespace, hcode]
      rfl
    rw [hsame, h]
  · exact isWhitespace_eq (not_or.mp hmark)

/-- The first character of a text in uppercase comes from the first one of the text. -/
theorem find?_flatMap_upper (law : UppercaseLaw) {expand : Char → List Char}
    (hexpand : ∀ {c d}, d ∈ expand c ↔ d ∈ upperChar c) {cs : List Char}
    (hhead : ∀ c, cs.head? = some c →
      isWhitespace c = false ∧ Log73.isWhitespace c = false) {a : Char}
    (h : (cs.flatMap expand).find? (fun b => !(isWhitespace b && Log73.isWhitespace b)) = some a) :
    isWhitespace a = Log73.isWhitespace a := by
  cases cs with
  | nil => cases h
  | cons c cs =>
      obtain ⟨hplain, hspace⟩ := hhead c rfl
      rw [List.flatMap_cons] at h
      cases hupper : expand c with
      | nil =>
          obtain ⟨d, hd⟩ := List.exists_mem_of_ne_nil _ (upperChar_spec law c).1
          rw [← hexpand, hupper] at hd
          cases hd
      | cons d ds =>
          have hd : d ∈ upperChar c := hexpand.mp (by rw [hupper]; exact List.mem_cons_self)
          have hnot := isWhitespace_upperChar law hd hspace
          rw [hupper, List.cons_append, List.find?_cons_of_pos (by simp [hnot])] at h
          rw [← Option.some.inj h]
          exact sameSpace_upperChar law hd (hplain.trans hspace.symm)

/-- What is trimmed alike is trimmed alike once it is normalized. -/
theorem TrimsAlike.normalize (law : UppercaseLaw) {value : String} (h : TrimsAlike value.toList) :
    TrimsAlike (Callsign.normalize value).toList := by
  have hsame : Trimming.trimWith isWhitespace value.toList = Log73.trimChars value.toList :=
    h.trimWith_eq
  rw [Callsign.normalize, toUppercase, Log73.trim, String.toList_ofList, String.toList_ofList]
  rintro a (hfront | hback)
  · refine find?_flatMap_upper law Iff.rfl (fun c hc => ⟨?_, ?_⟩) hfront
    · exact Trimming.of_head?_trimWith (hsame ▸ hc)
    · exact Trimming.of_head?_trimWith hc
  · rw [List.reverse_flatMap] at hback
    refine find?_flatMap_upper law List.mem_reverse (fun c hc => ?_) hback
    rw [List.head?_reverse] at hc
    exact ⟨Trimming.of_getLast?_trimWith (hsame ▸ hc), Trimming.of_getLast?_trimWith hc⟩

theorem trim_normalize (law : UppercaseLaw) (value : String) :
    Log73.trim (Callsign.normalize value) = Callsign.normalize value := by
  have htrim : Log73.trimChars (Callsign.normalize value).toList =
      (Callsign.normalize value).toList := by
    apply trimChars_of_edges
    · intro d hd
      obtain ⟨rest, hrest⟩ := List.head?_eq_some_iff.mp hd
      exact isWhitespace_head law hrest
    · intro d hd
      obtain ⟨front, hfront⟩ := List.getLast?_eq_some_iff.mp hd
      exact isWhitespace_last law hfront
  rw [Log73.trim, htrim, String.ofList_toList]

theorem normalize_idem (law : UppercaseLaw) (value : String) :
    Callsign.normalize (Callsign.normalize value) = Callsign.normalize value := by
  rw [Callsign.normalize, trim_normalize law, Callsign.normalize, toUppercase_idem law]

theorem Basic.normalize (law : UppercaseLaw) {value : String} (h : Basic value) :
    Basic (Callsign.normalize value) := Basic.toUppercase law h.trim

omit [Platform] in
theorem isDigitUnit_toNat (c : Char) : isDigitUnit c.toNat = isAsciiDigit c := by
  rw [Bool.eq_iff_iff, isAsciiDigit_iff, isDigitUnit, Bool.and_eq_true, decide_eq_true_eq,
    decide_eq_true_eq]

omit [Platform] in
theorem isCallsignLike_eq {component : List Char} (h : ∀ c ∈ component, c.toNat < 65536) :
    isCallsignLike component = Callsign.isCallsignLike component := by
  have hunit (n : Nat) : isDigitUnit ((units component).getD n 0) =
      isAsciiDigit (component.getD n '\x00') := by
    rw [units_basic h, List.getD_eq_getElem?_getD, List.getD_eq_getElem?_getD, List.getElem?_map]
    cases component[n]? with
    | none => rfl
    | some c => exact isDigitUnit_toNat c
  rw [isCallsignLike, Callsign.isCallsignLike, hunit, hunit]

omit [Platform] in
theorem resolvePair_eq {left right : List Char} (hleft : ∀ c ∈ left, c.toNat < 65536)
    (hright : ∀ c ∈ right, c.toNat < 65536) :
    resolvePair left right = Callsign.resolvePair left right := by
  rw [resolvePair, Callsign.resolvePair, isCallsignLike_eq hleft, isCallsignLike_eq hright]
  cases Callsign.isCallsignLike left <;> cases Callsign.isCallsignLike right <;> rfl

/-- Text of the basic plane has one station identity on both sides. -/
theorem dupeIdentity_eq (law : UppercaseLaw) {value : String} (h : Basic value) :
    dupeIdentity value = Callsign.dupeIdentity value := by
  have hnormal := (h.normalize law).2
  rw [dupeIdentity, Callsign.dupeIdentity, normalizeCallsign_eq h.1.trimsAlike, parseBase_eq,
    Callsign.parseBase]
  cases hsplit : Callsign.splitMiddleSlash (Callsign.normalize value).toList with
  | none => rfl
  | invalid => rfl
  | pair left right =>
      obtain ⟨heq, -, -⟩ := eq_of_splitMiddleSlash hsplit
      dsimp only
      rw [resolvePair_eq]
      · exact fun c hc => hnormal c (heq ▸ List.mem_append_left _ hc)
      · exact fun c hc => hnormal c (heq ▸ List.mem_append_right _ (List.mem_cons_of_mem _ hc))

end Log73.Frontend
