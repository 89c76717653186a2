import Log73.Frontend.DxccAgreement
import Log73.Library.Trimming

/-!
The parts of a callsign as both sides parse them. They are the same unless the two trims
leave different text, or a digit that is the third character is no third code unit.
-/

namespace Log73

open Trimming

/-- Normalized input and resolved slash components. -/
structure CallsignParts where
  normalized : String
  base : Option String
  modifier : Option String
  deriving DecidableEq

/-- The station identity of two slash components and the other one. -/
def Callsign.resolveParts (left right : List Char) : Option (List Char × List Char) :=
  match isCallsignLike left, isCallsignLike right with
  | false, true => some (right, left)
  | true, false => some (left, right)
  | true, true =>
      if right.length < left.length then some (left, right) else some (right, left)
  | false, false => none

def Callsign.parse [Platform] (input : String) : CallsignParts :=
  let normalized := normalize input
  match splitMiddleSlash normalized.toList with
  | .none => { normalized := normalized, base := some normalized, modifier := none }
  | .pair left right =>
      let parts := resolveParts left right
      { normalized := normalized
        base := parts.map fun pair => String.ofList pair.1
        modifier := parts.map fun pair => String.ofList pair.2 }
  | .invalid => { normalized := normalized, base := none, modifier := none }

namespace Frontend

def resolveParts (left right : List Char) : Option (List Char × List Char) :=
  let leftLike := isCallsignLike left
  let rightLike := isCallsignLike right
  if !leftLike && rightLike then some (right, left)
  else if leftLike && !rightLike then some (left, right)
  else if leftLike && rightLike then
    if right.length < left.length then some (left, right) else some (right, left)
  else none

def parseCallsign [Platform] (value : String) : CallsignParts :=
  let normalized := normalizeCallsign value
  let characters := normalized.toList
  match indexOf '/' characters with
  | none => { normalized := normalized, base := some normalized, modifier := none }
  | some slashIndex =>
      if slashIndex = 0 || lastIndexOf '/' characters != some slashIndex
          || slashIndex = characters.length - 1 then
        { normalized := normalized, base := none, modifier := none }
      else
        let parts := resolveParts (characters.take slashIndex) (characters.drop (slashIndex + 1))
        { normalized := normalized
          base := parts.map fun pair => String.ofList pair.1
          modifier := parts.map fun pair => String.ofList pair.2 }

end Frontend

namespace CallsignParts

/-- The parts of a normalized callsign, by the way two components are resolved. -/
def resolved (resolve : List Char → List Char → Option (List Char × List Char))
    (normalized : String) : CallsignParts :=
  match Callsign.splitMiddleSlash normalized.toList with
  | .none => { normalized := normalized, base := some normalized, modifier := none }
  | .pair left right =>
      { normalized := normalized
        base := (resolve left right).map fun pair => String.ofList pair.1
        modifier := (resolve left right).map fun pair => String.ofList pair.2 }
  | .invalid => { normalized := normalized, base := none, modifier := none }

def identity (parts : CallsignParts) : String := parts.base.getD parts.normalized

/-- The characters of the parts. -/
def text (parts : CallsignParts) : List Char :=
  match parts.base, parts.modifier with
  | some base, some modifier => base.toList ++ '/' :: modifier.toList
  | _, _ => parts.identity.toList

variable {resolve : List Char → List Char → Option (List Char × List Char)}

/-- No character is lost: the components are taken in one order or the other. -/
theorem perm_text (hresolve : ∀ left right pair, resolve left right = some pair →
    pair = (left, right) ∨ pair = (right, left)) (normalized : String) :
    normalized.toList.Perm (resolved resolve normalized).text := by
  rw [resolved]
  cases hsplit : Callsign.splitMiddleSlash normalized.toList with
  | none => exact .refl _
  | invalid => exact .refl _
  | pair left right =>
      dsimp only
      cases hpair : resolve left right with
      | none => exact .refl _
      | some pair =>
          obtain ⟨heq, -, -⟩ := Frontend.eq_of_splitMiddleSlash hsplit
          have hswap : (left ++ '/' :: right).Perm (right ++ '/' :: left) :=
            List.perm_append_comm.trans (List.perm_middle.symm)
          obtain rfl | rfl := hresolve left right pair hpair
          · rw [heq]
            simp [text]
          · rw [heq]
            simpa [text] using hswap

end CallsignParts

namespace Frontend

section Resolve

/-- A character outside the basic plane stands before a digit in third place, and no digit does
in second place: the digit is neither the second nor the third code unit. -/
def Shifted (component : List Char) : Bool :=
  !isAsciiDigit (component.getD 1 '\x00') && isAsciiDigit (component.getD 2 '\x00') &&
    (65536 ≤ (component.getD 0 '\x00').toNat || 65536 ≤ (component.getD 1 '\x00').toNat)

/-- A shifted component is passed over by one side, and the other side takes the one it would
have been passed over for. -/
def ResolvesAlike (left right : List Char) : Prop :=
  (Shifted left = true → Shifted right = false ∧ Callsign.isCallsignLike right = true ∧
    left.length ≤ right.length) ∧
  (Shifted right = true → Shifted left = false ∧ Callsign.isCallsignLike left = true ∧
    right.length < left.length)

theorem isDigitUnit_surrogate (n : Nat) :
    isDigitUnit (0xD800 + n) = false ∧ isDigitUnit (0xDC00 + n) = false := by
  simp only [isDigitUnit, Bool.and_eq_false_iff, decide_eq_false_iff_not]
  omega

theorem isDigitUnit_zero : isDigitUnit 0 = false := rfl

theorem isAsciiDigit_zero : isAsciiDigit '\x00' = false := rfl

/-- A character is its code unit, or two units that are no digits. -/
theorem codeUnits_cases (c : Char) :
    (c.toNat < 65536 ∧ codeUnits c = [c.toNat]) ∨
    (65536 ≤ c.toNat ∧ isAsciiDigit c = false ∧ ∃ high low, codeUnits c = [high, low] ∧
      isDigitUnit high = false ∧ isDigitUnit low = false) := by
  by_cases h : c.toNat < 65536
  · exact .inl ⟨h, if_pos h⟩
  · have hdigit : isAsciiDigit c = false := by
      rw [Bool.eq_false_iff, Ne, isAsciiDigit_iff]
      omega
    exact .inr ⟨Nat.not_lt.mp h, hdigit, _, _, if_neg h, (isDigitUnit_surrogate _).1,
      (isDigitUnit_surrogate _).2⟩

/-- The digit of a component is found among its code units unless it is shifted. -/
theorem isCallsignLike_iff (component : List Char) :
    isCallsignLike component = (Callsign.isCallsignLike component && !Shifted component) := by
  cases component with
  | nil => rfl
  | cons a rest =>
      rw [isCallsignLike, Callsign.isCallsignLike, Shifted, units, List.flatMap_cons]
      cases rest with
      | nil =>
          obtain ⟨ha, hcode⟩ | ⟨ha, -, high, low, hcode, -, hlow⟩ := codeUnits_cases a
          · simp [hcode, isDigitUnit_zero, isAsciiDigit_zero]
          · simp [hcode, isDigitUnit_zero, isAsciiDigit_zero, hlow]
      | cons b rest =>
          rw [List.flatMap_cons]
          obtain ⟨ha, hcode⟩ | ⟨ha, -, high, low, hcode, -, hlow⟩ := codeUnits_cases a
          · obtain ⟨hb, hcode'⟩ | ⟨hb, hnot, high, low, hcode', hhigh, hlow⟩ := codeUnits_cases b
            · -- the second and the third character are the units looked at
              cases rest with
              | nil => simp [hcode, hcode', isDigitUnit_toNat, isDigitUnit_zero, isAsciiDigit_zero]
              | cons c rest =>
                  rw [List.flatMap_cons]
                  obtain ⟨hc, hcode''⟩ | ⟨hc, hnot, high, low, hcode'', hhigh, -⟩ :=
                    codeUnits_cases c
                  · simp [hcode, hcode', hcode'', isDigitUnit_toNat, Nat.not_le.mpr ha,
                      Nat.not_le.mpr hb]
                  · simp [hcode, hcode', hcode'', isDigitUnit_toNat, hnot, hhigh]
            · simp [hcode, hcode', hhigh, hlow, hnot, hb]
          · -- the third unit is the second character, and the third one is passed over
            obtain ⟨hb, hcode'⟩ | ⟨hb, hnot, high', low', hcode', hhigh, -⟩ := codeUnits_cases b
            · simp only [hcode, hcode', List.cons_append, List.nil_append, List.getD_cons_succ,
                List.getD_cons_zero, isDigitUnit_toNat, hlow, Bool.false_or, ha, decide_true,
                Bool.true_or, Bool.and_true]
              cases isAsciiDigit b <;> cases isAsciiDigit (rest.getD 0 '\x00') <;> rfl
            · simp [hcode, hcode', hlow, hhigh, hnot, ha]

theorem isCallsignLike_of_shifted {component : List Char} (h : Shifted component = true) :
    Callsign.isCallsignLike component = true := by
  rw [Shifted, Bool.and_eq_true, Bool.and_eq_true] at h
  rw [Callsign.isCallsignLike, h.1.2, Bool.or_true]

theorem resolveParts_eq_iff (left right : List Char) :
    resolveParts left right = Callsign.resolveParts left right ↔ ResolvesAlike left right := by
  rw [resolveParts, Callsign.resolveParts, ResolvesAlike, isCallsignLike_iff, isCallsignLike_iff]
  cases hleft : Shifted left with
  | false =>
      cases hright : Shifted right with
      | false =>
          refine iff_of_true ?_ ⟨fun h => (by cases h), fun h => (by cases h)⟩
          cases Callsign.isCallsignLike left <;> cases Callsign.isCallsignLike right <;> rfl
      | true =>
          have hne : left ≠ right := fun heq => by simp [heq, hright] at hleft
          rw [isCallsignLike_of_shifted hright]
          cases Callsign.isCallsignLike left with
          | false => simp
          | true =>
              by_cases hlt : right.length < left.length <;> simp [hlt, hne]
  | true =>
      rw [isCallsignLike_of_shifted hleft]
      cases hright : Shifted right with
      | false =>
          have hne : left ≠ right := fun heq => by simp [heq, hright] at hleft
          cases Callsign.isCallsignLike right with
          | false => simp
          | true =>
              by_cases hlt : right.length < left.length
              · simp [hlt, Ne.symm hne, Nat.not_le.mpr hlt]
              · simp [hlt, Nat.not_lt.mp hlt]
      | true =>
          rw [isCallsignLike_of_shifted hright]
          by_cases hlt : right.length < left.length <;> simp [hlt]

/-- Either way both components are kept. -/
theorem mem_resolveParts {left right : List Char} {pair : List Char × List Char}
    (h : resolveParts left right = some pair) : pair = (left, right) ∨ pair = (right, left) := by
  grind [resolveParts]

theorem mem_callsign_resolveParts {left right : List Char} {pair : List Char × List Char}
    (h : Callsign.resolveParts left right = some pair) :
    pair = (left, right) ∨ pair = (right, left) := by
  grind [Callsign.resolveParts]

end Resolve

section Parse

variable [Platform]

theorem parse_eq (input : String) :
    Callsign.parse input = .resolved Callsign.resolveParts (Callsign.normalize input) := by
  rw [Callsign.parse, CallsignParts.resolved]

/-- The parser that looks for a slash from either end splits as the other one does. -/
theorem parseCallsign_eq (value : String) :
    parseCallsign value = .resolved resolveParts (normalizeCallsign value) := by
  rw [parseCallsign, CallsignParts.resolved]
  dsimp only
  generalize normalizeCallsign value = normalized
  by_cases hmem : '/' ∈ normalized.toList
  · obtain ⟨front, back, hfront, heq⟩ := exists_append_of_mem hmem
    rw [heq, indexOf_append hfront, splitMiddleSlash_append hfront]
    by_cases hedge : front = [] ∨ '/' ∈ back ∨ back = []
    · rw [if_pos hedge]
      refine if_pos ?_
      simpa [or_assoc] using middleSlash_iff.mpr hedge
    · rw [if_neg hedge]
      refine (if_neg fun h => hedge (middleSlash_iff.mp ?_)).trans ?_
      · simpa [or_assoc] using h
      · rw [List.take_left, drop_length_append]
  · rw [indexOf_eq_none hmem, splitMiddleSlash_eq_none hmem]

theorem identity_parse (input : String) :
    (Callsign.parse input).identity = Callsign.dupeIdentity input := by
  rw [Callsign.dupeIdentity, Callsign.parse, Callsign.parseBase, CallsignParts.identity]
  cases Callsign.splitMiddleSlash (Callsign.normalize input).toList with
  | none => exact (String.ofList_toList).symm
  | invalid => exact (String.ofList_toList).symm
  | pair left right =>
      dsimp only
      rw [Callsign.resolveParts, Callsign.resolvePair]
      cases Callsign.isCallsignLike left <;> cases Callsign.isCallsignLike right
      · exact (String.ofList_toList).symm
      · rfl
      · rfl
      · dsimp only
        split <;> rfl

theorem identity_parseCallsign (value : String) :
    (parseCallsign value).identity = dupeIdentity value := by
  rw [dupeIdentity, parseBase_eq, parseCallsign_eq, CallsignParts.resolved, CallsignParts.identity]
  cases Callsign.splitMiddleSlash (normalizeCallsign value).toList with
  | none => exact (String.ofList_toList).symm
  | invalid => exact (String.ofList_toList).symm
  | pair left right =>
      dsimp only
      rw [resolveParts, resolvePair]
      cases isCallsignLike left <;> cases isCallsignLike right
      · exact (String.ofList_toList).symm
      · rfl
      · rfl
      · simp only [Bool.not_true, Bool.false_and, Bool.and_false, Bool.and_self, if_true,
          Bool.false_eq_true, if_false]
        split <;> rfl

/-- The parts, the identity and the prefix of a callsign are the same on both sides. -/
structure CallsignsAgree (value : String) : Prop where
  base : (parseCallsign value).base = (Callsign.parse value).base
  modifier : (parseCallsign value).modifier = (Callsign.parse value).modifier
  dupeIdentity : dupeIdentity value = Callsign.dupeIdentity value
  callsignPrefix : callsignPrefix value = Dxcc.callsignPrefix value

/-- The two characters that only one side takes for white space are their own uppercase. -/
def EdgeLaw : Prop := ∀ c : Char, c.toNat = 0x85 ∨ c.toNat = 0xFEFF → Platform.upper c = [c]

theorem count_toUppercase (law : UppercaseLaw) (edge : EdgeLaw) {a : Char}
    (ha : a.toNat = 0x85 ∨ a.toNat = 0xFEFF) (cs : List Char) :
    (cs.flatMap upperChar).count a = cs.count a := by
  induction cs with
  | nil => rfl
  | cons c cs ih =>
      rw [List.flatMap_cons, List.count_append, ih, List.count_cons, Nat.add_comm]
      by_cases hsame : c = a
      · have hself : upperChar c = [c] := by
          rw [upperChar, if_neg (by rw [hsame]; omega)]
          exact edge c (hsame ▸ ha)
        rw [hself, hsame, List.count_singleton_self, if_pos BEq.rfl]
      · have hother : a ∉ upperChar c := ?_
        · rw [if_neg (by simpa using hsame), List.count_eq_zero_of_not_mem hother]
        intro hmem
        refine hsame (((upperChar_spec law c).2 a hmem).2.2 ?_).symm
        refine ha.imp_left fun hcode => ?_
        rw [Log73.isWhitespace, hcode]
        rfl

/-- Both sides parse a callsign alike if and only if the ends of the input have no mark that one
side keeps, and the components resolve alike. -/
theorem callsigns_agree_iff (law : UppercaseLaw) (edge : EdgeLaw) (value : String) :
    CallsignsAgree value ↔
      EdgesAlike isWhitespace Log73.isWhitespace value.toList ∧
      ∀ left right,
        Callsign.splitMiddleSlash (Callsign.normalize value).toList = .pair left right →
        ResolvesAlike left right := by
  have hnormalize : EdgesAlike isWhitespace Log73.isWhitespace value.toList →
      normalizeCallsign value = Callsign.normalize value := normalizeCallsign_eq
  constructor
  · intro h
    have htext : (parseCallsign value).text = (Callsign.parse value).text := by
      rw [CallsignParts.text, CallsignParts.text, h.base, h.modifier, identity_parseCallsign,
        identity_parse, h.dupeIdentity]
    have hperm : (normalizeCallsign value).toList.Perm (Callsign.normalize value).toList := by
      have hleft := CallsignParts.perm_text (fun _ _ _ => mem_resolveParts)
        (normalizeCallsign value)
      have hright := CallsignParts.perm_text (fun _ _ _ => mem_callsign_resolveParts)
        (Callsign.normalize value)
      rw [← parseCallsign_eq, htext] at hleft
      rw [← parse_eq] at hright
      exact hleft.trans hright.symm
    have hedges : EdgesAlike isWhitespace Log73.isWhitespace value.toList := by
      refine edgesAlike_of_count fun a hne => ?_
      have ha : a.toNat = 0x85 ∨ a.toNat = 0xFEFF := by
        by_contra hnot
        exact hne (isWhitespace_eq (not_or.mp hnot))
      have hcount := hperm.count_eq a
      rw [normalizeCallsign, Callsign.normalize, toUpperCase, toUppercase, toUppercase,
        String.toList_ofList, String.toList_ofList, count_toUppercase law edge ha,
        count_toUppercase law edge ha, Frontend.trim, Log73.trim, String.toList_ofList,
        String.toList_ofList] at hcount
      exact hcount
    refine ⟨hedges, fun left right hsplit => (resolveParts_eq_iff left right).mp ?_⟩
    have hbase := h.base
    have hmodifier := h.modifier
    rw [parseCallsign_eq, parse_eq, hnormalize hedges, CallsignParts.resolved,
      CallsignParts.resolved, hsplit] at hbase hmodifier
    dsimp only at hbase hmodifier
    cases hfront : resolveParts left right with
    | none =>
        cases hback : Callsign.resolveParts left right with
        | none => rfl
        | some pair =>
            rw [hfront, hback] at hbase
            cases hbase
    | some pair =>
        cases hback : Callsign.resolveParts left right with
        | none =>
            rw [hfront, hback] at hbase
            cases hbase
        | some other =>
            rw [hfront, hback, Option.map_some, Option.map_some, Option.some.injEq,
              String.ofList_inj] at hbase hmodifier
            rw [Prod.ext hbase hmodifier]
  · rintro ⟨hedges, hresolve⟩
    have hsame := hnormalize hedges
    have hparts : parseCallsign value = Callsign.parse value := by
      rw [parseCallsign_eq, parse_eq, hsame, CallsignParts.resolved, CallsignParts.resolved]
      cases hsplit : Callsign.splitMiddleSlash (Callsign.normalize value).toList with
      | none => rfl
      | invalid => rfl
      | pair left right =>
          dsimp only
          rw [(resolveParts_eq_iff left right).mpr (hresolve left right hsplit)]
    refine ⟨by rw [hparts], by rw [hparts], ?_, callsignPrefix_of_normalize law hsame⟩
    rw [← identity_parseCallsign, ← identity_parse, hparts]

end Parse

end Frontend

end Log73

namespace Log73.Frontend

attribute [local instance] asciiPlatform

/-- A byte order mark is trimmed on one side only. -/
theorem not_callsignsAgree_mark : ¬CallsignsAgree "\ufeffK1ABC" :=
  fun h => absurd h.base (by decide +kernel)

theorem callsigns_agree_iff_ascii : CallsignsAgree " dl/w1aw " ↔
    Trimming.EdgesAlike isWhitespace Log73.isWhitespace " dl/w1aw ".toList ∧
    ∀ left right, Callsign.splitMiddleSlash (Callsign.normalize " dl/w1aw ").toList =
      .pair left right → ResolvesAlike left right :=
  callsigns_agree_iff uppercaseLaw_ascii (fun _ _ => rfl) " dl/w1aw "

end Log73.Frontend
