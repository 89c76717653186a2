import Std.Data.ExtTreeMap
import Log73.Library.SortedAssoc
import Log73.Text

/-!
JSON values as the backend holds them. A number is either one of the 64-bit
integers `serde_json` keeps exact or a finite double; an object is a key-sorted
map.
-/

namespace Log73

inductive Number where
  | int (value : Int)
  | float (value : ℚ)
  deriving DecidableEq

inductive Value where
  | null
  | bool (value : Bool)
  | number (value : Number)
  | string (value : String)
  | array (values : List Value)
  | object (entries : List (String × Value))

/-- `serde_json::Map`. -/
abbrev Map := List (String × Value)

/-- A string-keyed map of the source. -/
abbrev KeyMap (ν : Type) := Std.ExtTreeMap String ν

namespace Number

def asI64 : Number → Option Int
  | int value => if i64Min ≤ value ∧ value ≤ i64Max then some value else none
  | float _ => none

def asU64 : Number → Option Int
  | int value => if 0 ≤ value ∧ value ≤ u64Max then some value else none
  | float _ => none

def toText [Platform] : Number → String
  | int value => toString value
  | float value => Platform.floatText value

theorem asI64_int (value : Int) (h : i64Min ≤ value ∧ value ≤ i64Max) :
    asI64 (int value) = some value := by
  simp [asI64, h]

theorem asI64_range (n : Number) (value : Int) (h : n.asI64 = some value) :
    i64Min ≤ value ∧ value ≤ i64Max := by
  cases n with
  | float _ => simp [asI64] at h
  | int i =>
      simp only [asI64] at h
      split at h
      · simp_all
      · simp at h

end Number

namespace Value

def asI64 : Value → Option Int
  | number n => n.asI64
  | _ => none

def asStr : Value → Option String
  | string s => some s
  | _ => none

def asBool : Value → Option Bool
  | bool b => some b
  | _ => none

def asObject : Value → Option Map
  | object entries => some entries
  | _ => none

def isNull : Value → Bool
  | null => true
  | _ => false

/-- `Value::Number(value.into())` for an `i64`. -/
def ofI64 (value : Int64) : Value := number (.int value.toInt)

def ofInt (value : Int) : Value := number (.int value)

/-- A character of a JSON string, escaped as `serde_json` does. -/
def escapedChar (c : Char) : List Char :=
  if c = '"' then ['\\', '"']
  else if c = '\\' then ['\\', '\\']
  else if c.toNat = 8 then ['\\', 'b']
  else if c.toNat = 9 then ['\\', 't']
  else if c.toNat = 10 then ['\\', 'n']
  else if c.toNat = 12 then ['\\', 'f']
  else if c.toNat = 13 then ['\\', 'r']
  else if c.toNat < 32 then
    ['\\', 'u', '0', '0', Nat.digitChar (c.toNat / 16), Nat.digitChar (c.toNat % 16)]
  else [c]

def quoted (s : String) : String :=
  String.ofList ('"' :: s.toList.flatMap escapedChar ++ ['"'])

mutual

/-- `to_string` of a value: its compact JSON text. -/
def toText [Platform] : Value → String
  | null => "null"
  | bool b => toString b
  | number n => n.toText
  | string s => quoted s
  | array values => "[" ++ joinWith "," (valuesText values) ++ "]"
  | object entries => "\x7b" ++ joinWith "," (entriesText entries) ++ "\x7d"

def valuesText [Platform] : List Value → List String
  | [] => []
  | value :: values => toText value :: valuesText values

def entriesText [Platform] : List (String × Value) → List String
  | [] => []
  | (key, value) :: entries => (quoted key ++ ":" ++ toText value) :: entriesText entries

end

mutual

/-- Equality of values, objects compared entry by entry. -/
def beq : Value → Value → Bool
  | null, null => true
  | bool a, bool b => a == b
  | number a, number b => a = b
  | string a, string b => a == b
  | array as, array bs => beqValues as bs
  | object as, object bs => beqEntries as bs
  | _, _ => false

def beqValues : List Value → List Value → Bool
  | [], [] => true
  | a :: as, b :: bs => beq a b && beqValues as bs
  | _, _ => false

def beqEntries : List (String × Value) → List (String × Value) → Bool
  | [], [] => true
  | (k, a) :: as, (l, b) :: bs => k == l && beq a b && beqEntries as bs
  | _, _ => false

end

mutual

theorem beq_iff : ∀ a b : Value, beq a b = true ↔ a = b
  | null, b => by cases b <;> simp [beq]
  | bool _, b => by cases b <;> simp [beq]
  | number _, b => by cases b <;> simp [beq]
  | string _, b => by cases b <;> simp [beq]
  | array as, b => by
      cases b with
      | array bs => simp [beq, beqValues_iff as bs]
      | _ => simp [beq]
  | object as, b => by
      cases b with
      | object bs => simp [beq, beqEntries_iff as bs]
      | _ => simp [beq]

theorem beqValues_iff : ∀ as bs : List Value, beqValues as bs = true ↔ as = bs
  | [], bs => by cases bs <;> simp [beqValues]
  | a :: as, bs => by
      cases bs with
      | nil => simp [beqValues]
      | cons b bs => simp [beqValues, beq_iff a b, beqValues_iff as bs]

theorem beqEntries_iff : ∀ as bs : List (String × Value), beqEntries as bs = true ↔ as = bs
  | [], bs => by cases bs <;> simp [beqEntries]
  | (k, a) :: as, bs => by
      cases bs with
      | nil => simp [beqEntries]
      | cons entry bs =>
          obtain ⟨l, b⟩ := entry
          simp [beqEntries, beq_iff a b, beqEntries_iff as bs]

end

instance : DecidableEq Value := fun a b => decidable_of_iff _ (beq_iff a b)

theorem asI64_ofI64 (value : Int64) : (ofI64 value).asI64 = some value.toInt :=
  Number.asI64_int _ ⟨value.le_toInt, Int.le_of_lt_add_one value.toInt_lt⟩

@[simp] theorem asBool_bool (b : Bool) : (bool b).asBool = some b := rfl

@[simp] theorem asStr_string (s : String) : (string s).asStr = some s := rfl

end Value

end Log73
