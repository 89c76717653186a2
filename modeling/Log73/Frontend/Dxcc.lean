import Log73.Frontend.Callsign
import Log73.Library.Extremes

/-!
DXCC resolution in the frontend (`dxcc.js`), over the database that the backend sends,
and when it agrees with the one of the backend.
-/

namespace Log73.Frontend

/-- The index of the digit that no digit follows. -/
def searchLastDigit : List Char → Option Nat
  | [] => none
  | c :: cs =>
      if isAsciiDigit c && !cs.any isAsciiDigit then some 0
      else (searchLastDigit cs).map (· + 1)

/-- Where the group of digits starts that ends before the given index. -/
def digitGroupStart (base : List Char) : Nat → Nat
  | 0 => 0
  | n + 1 => if (base[n]?).any isAsciiDigit then digitGroupStart base n else n + 1

def portableNumericPrefix (base portableNumber : List Char) : Option (List Char) :=
  match searchLastDigit base with
  | none => none
  | some lastDigit =>
      let stem := base.take (digitGroupStart base lastDigit)
      if stem.isEmpty then none else some (stem ++ portableNumber)

def prefixFromComponent (component : List Char) : Option (List Char) :=
  if component.isEmpty || !component.all isCallsignCharacter then none
  else
    match searchLastDigit component with
    | some lastDigit => some (component.take (lastDigit + 1))
    | none =>
        let letters := (component.filter isAsciiUppercase).take 2
        if letters.length = 2 then some (letters ++ ['0']) else none

def isNonPrefixCallsignDesignator (value : List Char) : Bool :=
  ["MM", "M", "AM", "A", "E", "J", "P", "QRP", "QRPP", "AG", "AE", "KT"].contains
    (String.ofList value)

def isPrefixLikeCallsignComponent (value : List Char) : Bool :=
  !value.any isAsciiDigit || value.getLast?.any isAsciiDigit

def prefixSource (normalized : List Char) : Option (List Char) :=
  if normalized.contains '/' then
    match splitOnChar '/' normalized with
    | [left, right] =>
        if left.isEmpty || right.isEmpty then none
        else if isNonPrefixCallsignDesignator right then some left
        else if !right.isEmpty && right.all isAsciiDigit then portableNumericPrefix left right
        else
          let leftPrefixLike := isPrefixLikeCallsignComponent left
          let rightPrefixLike := isPrefixLikeCallsignComponent right
          if leftPrefixLike && !rightPrefixLike then some left
          else if !leftPrefixLike && rightPrefixLike then some right
          else if (units left).length < (units right).length then some left
          else some right
    | _ => none
  else some normalized

def isIgnoredSlashSuffix (part : String) : Bool :=
  part = "M" || part = "P" || part = "MM" || part = "QRP"
    || (part.toList.length = 1 && part.toList.all isAsciiDigit)

/-- The two components around the only slash of a callsign. -/
def splitSlashCallsign (callsign : List Char) : Option (List Char × List Char) :=
  match indexOf '/' callsign with
  | none => none
  | some slashIndex =>
      if slashIndex = 0 || lastIndexOf '/' callsign != some slashIndex then none
      else if callsign.length - 1 ≤ slashIndex then none
      else some (callsign.take slashIndex, callsign.drop (slashIndex + 1))

theorem splitSlashCallsign_eq (callsign : List Char) :
    splitSlashCallsign callsign =
      match Callsign.splitMiddleSlash callsign with
      | .pair left right => some (left, right)
      | _ => none := by
  rw [splitSlashCallsign]
  by_cases hmem : '/' ∈ callsign
  · obtain ⟨front, back, hfront, heq⟩ := exists_append_of_mem hmem
    rw [heq, indexOf_append hfront, splitMiddleSlash_append hfront]
    have hmiddle := @middleSlash_iff front back
    have hlength : (front ++ '/' :: back).length = front.length + (back.length + 1) :=
      List.length_append
    by_cases hedge : front = [] ∨ '/' ∈ back ∨ back = []
    · rw [if_pos hedge]
      dsimp only
      split
      · rfl
      · next hslash =>
          rw [Bool.or_eq_true, not_or, decide_eq_true_eq, bne_iff_ne] at hslash
          have hend := (hmiddle.mpr hedge).resolve_left hslash.1 |>.resolve_left hslash.2
          exact if_pos hend.ge
    · rw [if_neg hedge]
      have hnot := fun h => hedge (hmiddle.mp h)
      dsimp only
      rw [if_neg, if_neg, List.take_left, drop_length_append]
      · exact fun hle => hnot (Or.inr (Or.inr (by omega)))
      · rw [Bool.or_eq_true, decide_eq_true_eq, bne_iff_ne]
        exact fun h => hnot (h.imp_right Or.inl)
  · rw [indexOf_eq_none hmem, splitMiddleSlash_eq_none hmem]

section Components

theorem throughLastDigit_cons (c : Char) (cs : List Char) :
    Dxcc.throughLastDigit (c :: cs) =
      if cs.any isAsciiDigit then c :: Dxcc.throughLastDigit cs
      else if isAsciiDigit c then [c] else [] := by
  rw [Dxcc.throughLastDigit, List.reverse_cons, List.dropWhile_append]
  have hempty : (cs.reverse.dropWhile fun d => !isAsciiDigit d).isEmpty = !cs.any isAsciiDigit := by
    rw [Bool.eq_iff_iff, List.isEmpty_iff, List.dropWhile_eq_nil_iff]
    simp
  rw [hempty]
  cases cs.any isAsciiDigit with
  | true => rw [Bool.not_true, if_neg Bool.false_ne_true, if_pos rfl, List.reverse_append]; rfl
  | false =>
      rw [Bool.not_false, if_pos rfl, if_neg Bool.false_ne_true, List.dropWhile_cons]
      cases isAsciiDigit c <;> rfl

theorem searchLastDigit_eq_none {cs : List Char} (h : cs.any isAsciiDigit = false) :
    searchLastDigit cs = none := by
  induction cs with
  | nil => rfl
  | cons c cs ih =>
      rw [List.any_cons, Bool.or_eq_false_iff] at h
      rw [searchLastDigit, h.1, Bool.false_and, if_neg Bool.false_ne_true, ih h.2]
      rfl

/-- The search finds a digit, and the last one. -/
theorem searchLastDigit_spec {cs : List Char} (h : cs.any isAsciiDigit = true) :
    ∃ n, searchLastDigit cs = some n ∧ (cs[n]?).any isAsciiDigit = true
      ∧ cs.take (n + 1) = Dxcc.throughLastDigit cs := by
  induction cs with
  | nil => cases h
  | cons c cs ih =>
      rw [searchLastDigit, throughLastDigit_cons]
      cases hrest : cs.any isAsciiDigit with
      | true =>
          obtain ⟨n, hn, hdigit, htake⟩ := ih hrest
          refine ⟨n + 1, ?_, hdigit, ?_⟩
          · rw [Bool.not_true, Bool.and_false, if_neg Bool.false_ne_true, hn]
            rfl
          · rw [if_pos rfl, List.take_succ_cons, htake]
      | false =>
          rw [List.any_cons, hrest, Bool.or_false] at h
          refine ⟨0, ?_, ?_, ?_⟩
          · rw [h]
            rfl
          · exact h
          · rw [if_neg Bool.false_ne_true, if_pos h]
            rfl

theorem take_digitGroupStart {base : List Char} {n : Nat} (h : n ≤ base.length) :
    base.take (digitGroupStart base n) =
      ((base.take n).reverse.dropWhile isAsciiDigit).reverse := by
  induction n with
  | zero => rfl
  | succ n ih =>
      have hn : base[n]? = some base[n] := List.getElem?_eq_getElem h
      rw [digitGroupStart, hn, Option.any_some, List.take_add_one, hn, Option.toList_some,
        List.reverse_append, List.reverse_singleton, List.singleton_append, List.dropWhile_cons]
      cases isAsciiDigit base[n] with
      | true => exact ih (by omega)
      | false =>
          rw [if_neg Bool.false_ne_true, if_neg Bool.false_ne_true, List.take_add_one, hn,
            List.reverse_cons, List.reverse_reverse]
          rfl

theorem portableNumericPrefix_eq (base number : List Char) :
    portableNumericPrefix base number = Dxcc.portableNumericPrefix base number := by
  rw [portableNumericPrefix, Dxcc.portableNumericPrefix]
  cases hany : base.any isAsciiDigit with
  | false => rw [searchLastDigit_eq_none hany]; rfl
  | true =>
      obtain ⟨n, hn, hdigit, htake⟩ := searchLastDigit_spec hany
      have hlt : n < base.length := by
        by_contra hge
        rw [List.getElem?_eq_none (by omega)] at hdigit
        cases hdigit
      have hget : base[n]? = some base[n] := List.getElem?_eq_getElem hlt
      rw [hget, Option.any_some] at hdigit
      -- the digit found belongs to the group that is cut off
      have hstem : base.take (digitGroupStart base n) =
          ((Dxcc.throughLastDigit base).reverse.dropWhile isAsciiDigit).reverse := by
        rw [take_digitGroupStart hlt.le, ← htake, List.take_add_one, hget, Option.toList_some,
          List.reverse_append, List.reverse_singleton, List.singleton_append,
          List.dropWhile_cons, if_pos hdigit]
      rw [hn, if_pos rfl]
      simp only [hstem]

/-- A component that holds no lowercase letter. -/
def NoLowercase (cs : List Char) : Prop := ∀ c ∈ cs, isAsciiLowercase c = false

theorem isCallsignCharacter_eq {c : Char} (h : isAsciiLowercase c = false) :
    isCallsignCharacter c = isAsciiAlphanumeric c := by
  rw [isCallsignCharacter, isAsciiAlphanumeric, isAsciiAlphabetic, h, Bool.or_false]

theorem prefixFromComponent_eq {component : List Char} (h : NoLowercase component) :
    prefixFromComponent component = Dxcc.prefixFromComponent component := by
  have hall : component.all isCallsignCharacter = component.all isAsciiAlphanumeric := by
    rw [Bool.eq_iff_iff, List.all_eq_true, List.all_eq_true]
    exact forall₂_congr fun c hc => by rw [isCallsignCharacter_eq (h c hc)]
  have hletters : component.filter isAsciiUppercase = component.filter isAsciiAlphabetic :=
    List.filter_congr fun c hc => by rw [isAsciiAlphabetic, h c hc, Bool.or_false]
  rw [prefixFromComponent, Dxcc.prefixFromComponent, hall, hletters]
  cases hany : component.any isAsciiDigit with
  | false => rw [searchLastDigit_eq_none hany]; rfl
  | true =>
      obtain ⟨n, hn, -, htake⟩ := searchLastDigit_spec hany
      rw [hn, if_pos rfl]
      simp only [htake]

end Components

section Lookup

variable (database : DxccDatabase)

/-- The first exact rule is kept, unless a later one is the first of an entity on the
WAEDC list. -/
def keepExact (normalizedCallsign : String) (bestRule : Option DxccRule) (rule : DxccRule) :
    Option DxccRule :=
  if !rule.exact || rule.pattern != normalizedCallsign then bestRule
  else
    match bestRule with
    | none => some rule
    | some best =>
        if database.ruleIsWaedcCq rule && !database.ruleIsWaedcCq best then some rule
        else bestRule

def exactDxccRule (normalizedCallsign : String) : Option DxccRule :=
  database.rules.foldl (keepExact database normalizedCallsign) none

variable [Platform]

def callsignPrefix (callsign : String) : Option String :=
  let normalized := (normalizeCallsign callsign).toList
  if normalized.isEmpty || !normalized.all (fun c => isCallsignCharacter c || c == '/') then none
  else ((prefixSource normalized).bind prefixFromComponent).map String.ofList

/-- The exact rule, else the first of the longest prefix rules. -/
def lookupDxccDirect (callsign : String) : Option DxccInfo :=
  let normalizedCallsign := normalizeCallsign callsign
  if normalizedCallsign.isEmpty then none
  else
    match exactDxccRule database normalizedCallsign with
    | some rule => database.infoForRule rule
    | none =>
        match callsignPrefix normalizedCallsign with
        | none => none
        | some _ =>
            let bestRule := database.rules.foldl (fun (bestRule : Option DxccRule) rule =>
              if rule.exact then bestRule
              else if !startsWith normalizedCallsign rule.pattern then bestRule
              else
                match bestRule with
                | none => some rule
                | some best =>
                    if length best.pattern < length rule.pattern then some rule else bestRule) none
            bestRule.bind database.infoForRule

def lookupDxcc (callsign : String) : Option DxccInfo :=
  let normalizedCallsign := normalizeCallsign callsign
  if normalizedCallsign.isEmpty then none
  else
    match exactDxccRule database normalizedCallsign with
    | some rule => database.infoForRule rule
    | none =>
        match splitSlashCallsign normalizedCallsign.toList with
        | none => lookupDxccDirect database normalizedCallsign
        | some (left, right) =>
            let left := String.ofList left
            let right := String.ofList right
            if length left < length right then lookupDxccDirect database left
            else if isIgnoredSlashSuffix right then lookupDxccDirect database left
            else (lookupDxccDirect database right).or (lookupDxccDirect database left)

end Lookup

end Log73.Frontend
