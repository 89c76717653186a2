import Log73.Frontend.Text
import Log73.Library.OrderedMap

/-!
The preview of an ADIF import (`adifImport.js`): a scan over the UTF-16 code units of the text that
ends with its first record. What is not yet read stands for the index.
-/

namespace Log73.Frontend.AdifImport

def lessThan : Nat := 60
def greaterThan : Nat := 62

/-- `indexOf` with one character: what stands before it and what behind. -/
def splitAtUnit (unit : Nat) (source : List Nat) : Option (List Nat × List Nat) :=
  match source.dropWhile (· != unit) with
  | [] => none
  | _ :: rest => some (source.takeWhile (· != unit), rest)

theorem length_splitAtUnit {unit : Nat} {source front rest : List Nat}
    (h : splitAtUnit unit source = some (front, rest)) : rest.length < source.length := by
  rw [splitAtUnit] at h
  split at h
  · cases h
  · next hdrop =>
      cases h
      have hlength := List.length_dropWhile_le (· != unit) source
      rw [hdrop, List.length_cons] at hlength
      omega

/-- The characters of code units. A tag, which ends where characters do, has no lone surrogate. -/
def ofUnits : List Nat → List Char
  | high :: low :: rest =>
      if 0xD800 ≤ high ∧ high < 0xDC00 ∧ 0xDC00 ≤ low ∧ low < 0xE000 then
        Char.ofNat (65536 + (high - 0xD800) * 1024 + (low - 0xDC00)) :: ofUnits rest
      else Char.ofNat high :: ofUnits (low :: rest)
  | [unit] => [Char.ofNat unit]
  | [] => []

def isWhitespaceUnit (n : Nat) : Bool :=
  (9 ≤ n && n ≤ 13) || n = 32 || n = 0xA0 || n = 0xFEFF || n = 0x1680
    || (0x2000 ≤ n && n ≤ 0x200A) || n = 0x2028 || n = 0x2029 || n = 0x202F
    || n = 0x205F || n = 0x3000

/-- `trim` of a string that may be cut inside a character. -/
def trimUnits (source : List Nat) : List Nat :=
  ((source.dropWhile isWhitespaceUnit).reverse.dropWhile isWhitespaceUnit).reverse

/-- The least number that `Number.parseInt` takes for infinite. -/
def infinite : Nat := 2 ^ 1024 - 2 ^ 970

/-- `Number.parseInt` to base ten where it is finite. It is kept exact: a length that a double
does not hold is beyond the end of every string. -/
def parseInt (text : String) : Option Int :=
  let unsigned (cs : List Char) : Option Nat :=
    (parseDigits (cs.takeWhile isAsciiDigit)).filter (· < infinite)
  match text.toList.dropWhile isWhitespace with
  | '-' :: cs => (unsigned cs).map fun n => -(n : Int)
  | '+' :: cs => (unsigned cs).map Int.ofNat
  | cs => (unsigned cs).map Int.ofNat

section

variable [Platform]

def isNameUnit (unit : Nat) : Bool :=
  (65 ≤ unit && unit ≤ 90) || (48 ≤ unit && unit ≤ 57) || unit = 95

/-- The expression has no `u` flag: what it replaces is a code unit. -/
def normalizeAdifFieldName (name : String) : String :=
  String.ofList ((units (toUpperCase (trim name)).toList).map fun unit =>
    if isNameUnit unit then Char.ofNat unit else '_')

def parseFieldTag (tag : String) : Option (String × Nat) :=
  match splitOnChar ':' tag.toList with
  | first :: second :: _ =>
      let name := normalizeAdifFieldName (String.ofList first)
      match parseInt (String.ofList second) with
      | none => none
      | some length => if name = "" ∨ length < 0 then none else some (name, length.toNat)
  | _ => none

/-- An object of fields: the name and the code units of the value of each. -/
abbrev Fields := List (String × List Nat)

/-- The variables of the scan. -/
structure Scan where
  inHeader : Bool := true
  pending : Fields := []
  current : Fields := []

namespace Scan

def endHeader (s : Scan) : Scan := { s with inHeader := false, pending := [] }

def fields (s : Scan) : Fields := if s.inHeader then s.pending else s.current

def field (s : Scan) (name : String) (value : List Nat) : Scan :=
  if s.inHeader then { s with pending := OrderedMap.set s.pending name value }
  else { s with current := OrderedMap.set s.current name value }

/-- A record that the text does not close. -/
def finish (s : Scan) : Fields :=
  if !s.current.isEmpty then s.current else s.pending

end Scan

/-- What a tag is to the scan. -/
inductive Tag where
  | endHeader
  | endRecord
  | field (name : String) (length : Nat)
  | ignored
  deriving DecidableEq

def readTag (tag : String) : Tag :=
  let normalizedTag := toUpperCase tag
  if normalizedTag = "EOH" then .endHeader
  else if normalizedTag = "EOR" then .endRecord
  else (parseFieldTag tag).elim .ignored fun parsed => .field parsed.1 parsed.2

/-- The next tag and the code units behind it. -/
def nextTag (source : List Nat) : Option (Tag × List Nat) := do
  let (_, behind) ← splitAtUnit lessThan source
  let (tagUnits, rest) ← splitAtUnit greaterThan behind
  return (readTag (trim (String.ofList (ofUnits tagUnits))), rest)

theorem length_nextTag {source rest : List Nat} {tag : Tag}
    (h : nextTag source = some (tag, rest)) : rest.length < source.length := by
  obtain ⟨⟨front, behind⟩, hstart, h⟩ := Option.bind_eq_some_iff.mp h
  obtain ⟨⟨tagUnits, behind'⟩, hend, h⟩ := Option.bind_eq_some_iff.mp h
  have hrest : behind' = rest := (Prod.mk.inj (Option.some.inj h)).2
  subst hrest
  exact (length_splitAtUnit hend).trans (length_splitAtUnit hstart)

def scanFrom (source : List Nat) (s : Scan) : Fields :=
  match _htag : nextTag source with
  | none => s.finish
  | some (.endHeader, rest) => scanFrom rest s.endHeader
  | some (.endRecord, _) => s.fields
  | some (.ignored, rest) => scanFrom rest s
  | some (.field name length, rest) =>
      scanFrom (rest.drop length) (s.field name (trimUnits (rest.take length)))
termination_by source.length
decreasing_by
  · exact length_nextTag _htag
  · exact length_nextTag _htag
  · have hlength := length_nextTag _htag
    rw [List.length_drop]
    omega

def parseFirstAdifRecord (text : String) : Fields := scanFrom (units text.toList) {}

end

end Log73.Frontend.AdifImport
