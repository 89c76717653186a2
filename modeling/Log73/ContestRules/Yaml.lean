import Mathlib.Data.List.Perm.Basic
import Mathlib.Algebra.BigOperators.Group.List.Basic
import Mathlib.Algebra.GroupWithZero.Nat
import Mathlib.Data.Rat.Defs

/-!
YAML values as `serde_yaml` holds them: a mapping keeps its entries in insertion
order, and removing one moves the last entry into the gap.
-/

namespace Log73

inductive YamlNumber where
  | int (value : Int)
  | float (value : ℚ)
  | infinity (negative : Bool)
  | nan
  deriving DecidableEq

inductive YamlValue where
  | null
  | bool (value : Bool)
  | number (value : YamlNumber)
  | string (value : String)
  | sequence (values : List YamlValue)
  | mapping (entries : List (YamlValue × YamlValue))
  | tagged (tag : String) (value : YamlValue)

abbrev YamlMapping := List (YamlValue × YamlValue)

namespace YamlValue

mutual

/-- Equality of values; the order of a mapping's entries does not count. -/
def eq : YamlValue → YamlValue → Bool
  | null, null => true
  | bool a, bool b => a == b
  | number a, number b => a = b
  | string a, string b => a == b
  | sequence as, sequence bs => eqValues as bs
  | mapping as, mapping bs => as.length == bs.length && eqEntries as bs
  | tagged t a, tagged u b => t == u && eq a b
  | _, _ => false

def eqValues : List YamlValue → List YamlValue → Bool
  | [], [] => true
  | a :: as, b :: bs => eq a b && eqValues as bs
  | _, _ => false

def eqEntries : List (YamlValue × YamlValue) → List (YamlValue × YamlValue) → Bool
  | [], _ => true
  | (key, value) :: entries, others =>
      (match others.find? fun other => eq key other.1 with
        | some other => eq value other.2
        | none => false) && eqEntries entries others

end

def asStr : YamlValue → Option String
  | string s => some s
  | tagged _ value => asStr value
  | _ => none

def asBool : YamlValue → Option Bool
  | bool b => some b
  | tagged _ value => asBool value
  | _ => none

def asSequence : YamlValue → Option (List YamlValue)
  | sequence values => some values
  | tagged _ value => asSequence value
  | _ => none

def asMapping : YamlValue → Option YamlMapping
  | mapping entries => some entries
  | tagged _ value => asMapping value
  | _ => none

mutual

/-- The number of nodes of a value. -/
def size : YamlValue → Nat
  | sequence values => sizeValues values + 1
  | mapping entries => sizeEntries entries + 1
  | tagged _ value => size value + 1
  | _ => 1

def sizeValues : List YamlValue → Nat
  | [] => 0
  | value :: values => size value + sizeValues values

def sizeEntries : List (YamlValue × YamlValue) → Nat
  | [] => 0
  | (key, value) :: entries => size key + size value + sizeEntries entries

end

theorem eq_string (s : String) (value : YamlValue) :
    eq (string s) value = true ↔ value = string s := by
  cases value with
  | string other =>
      rw [eq, beq_iff_eq, string.injEq]
      exact eq_comm
  | _ => simp [eq]

theorem size_pos (value : YamlValue) : 0 < size value := by
  cases value with
  | null | bool _ | number _ | string _ => exact Nat.one_pos
  | sequence _ | mapping _ | tagged _ _ => exact Nat.succ_pos _

theorem size_asMapping {value : YamlValue} {entries : YamlMapping}
    (h : value.asMapping = some entries) : size (mapping entries) ≤ size value := by
  match value with
  | mapping _ =>
      cases h
      exact Nat.le_refl _
  | tagged _ value => exact Nat.le_succ_of_le (size_asMapping h)

theorem sizeEntries_eq (entries : YamlMapping) :
    sizeEntries entries = (entries.map fun entry => size entry.1 + size entry.2).sum := by
  induction entries with
  | nil => rfl
  | cons entry entries ih => rw [sizeEntries, ih, List.map_cons, List.sum_cons]

end YamlValue

namespace YamlMapping

open YamlValue

/-- The entry under a key. -/
def find? (entries : YamlMapping) (key : YamlValue) : Option (YamlValue × YamlValue) :=
  List.find? (fun entry => eq key entry.1) entries

def get (entries : YamlMapping) (key : YamlValue) : Option YamlValue :=
  (find? entries key).map Prod.snd

/-- `swap_remove`: the last entry takes the place of the one that goes. -/
def swapRemove (entries : YamlMapping) (position : Nat) : YamlMapping :=
  match entries.getLast? with
  | some last => (entries.set position last).dropLast
  | none => []

def remove (entries : YamlMapping) (key : YamlValue) : YamlMapping :=
  match List.findIdx? (fun entry => eq key entry.1) entries with
  | some position => swapRemove entries position
  | none => entries

/-- An entry under a key that the mapping does not have. -/
def insertNew (entries : YamlMapping) (key value : YamlValue) : YamlMapping :=
  entries ++ [(key, value)]

theorem swapRemove_perm (entries : YamlMapping) {position : Nat} (h : position < entries.length) :
    (entries[position] :: swapRemove entries position).Perm entries := by
  cases hlast : entries.getLast? with
  | none =>
      rw [List.getLast?_eq_none_iff] at hlast
      subst hlast
      cases h
  | some last =>
      obtain ⟨front, rfl⟩ := List.getLast?_eq_some_iff.mp hlast
      rw [swapRemove, hlast]
      by_cases hfront : position < front.length
      · simp only [List.set_append_left _ _ hfront, List.getElem_append_left hfront,
          List.dropLast_concat]
        have hset := (List.set_perm_cons_eraseIdx hfront last).cons front[position]
        have herase := (List.getElem_cons_eraseIdx_perm hfront).cons last
        exact hset.trans ((List.Perm.swap _ _ _).trans
          (herase.trans (List.perm_append_singleton last front).symm))
      · have hposition : position = front.length := by
          rw [List.length_append, List.length_singleton] at h
          omega
        subst hposition
        simpa using (List.perm_append_singleton last front).symm

/-- Removing a key takes its entry out and leaves the others. -/
theorem remove_perm {entries : YamlMapping} {key : YamlValue} {entry : YamlValue × YamlValue}
    (h : find? entries key = some entry) : (entry :: remove entries key).Perm entries := by
  obtain ⟨hmatch, position, hlt, hget, hbefore⟩ := List.find?_eq_some_iff_getElem.mp h
  have hindex : List.findIdx? (fun entry => eq key entry.1) entries = some position :=
    List.findIdx?_eq_some_iff_getElem.mpr ⟨hlt, by rw [hget]; exact hmatch, by
      intro earlier hearlier
      simpa using hbefore earlier hearlier⟩
  rw [remove, hindex, ← hget]
  exact swapRemove_perm entries hlt

theorem remove_of_find?_none {entries : YamlMapping} {key : YamlValue}
    (h : find? entries key = none) : remove entries key = entries := by
  have hindex : List.findIdx? (fun entry => eq key entry.1) entries = none :=
    List.findIdx?_eq_none_iff.mpr fun entry hmem => by
      simpa using List.find?_eq_none.mp h entry hmem
  rw [remove, hindex]

theorem size_remove (entries : YamlMapping) (key : YamlValue) :
    size (mapping (remove entries key)) ≤ size (mapping entries) := by
  cases h : find? entries key with
  | none => rw [remove_of_find?_none h]
  | some entry =>
      have hsum := ((remove_perm h).map fun entry => size entry.1 + size entry.2).sum_eq
      rw [List.map_cons, List.sum_cons] at hsum
      rw [size, size, sizeEntries_eq, sizeEntries_eq]
      omega

end YamlMapping

end Log73
