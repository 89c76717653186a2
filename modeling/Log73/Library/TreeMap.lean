import Mathlib.Logic.Basic
import Std.Data.ExtTreeMap.Lemmas

/-!
Lookups in tree maps whose order tells equal keys apart, with equality of keys in
place of comparison.
-/

namespace TreeMap

open Std

variable {κ : Type} {ν : Type} [Ord κ] [TransOrd κ] [LawfulEqOrd κ] [DecidableEq κ]

theorem getElem?_insert_key (map : ExtTreeMap κ ν) (key other : κ) (value : ν) :
    (map.insert key value)[other]? = if key = other then some value else map[other]? := by
  rw [ExtTreeMap.getElem?_insert]
  exact if_congr Std.compare_eq_iff_eq rfl rfl

theorem getElem?_erase_key (map : ExtTreeMap κ ν) (key other : κ) :
    (map.erase key)[other]? = if key = other then none else map[other]? := by
  rw [ExtTreeMap.getElem?_erase]
  exact if_congr Std.compare_eq_iff_eq rfl rfl

/-- The entry under a key is changed, if there is one. -/
theorem getElem?_adjust_key (map : ExtTreeMap κ ν) (key other : κ) (f : ν → ν) :
    (map[key]?.elim map fun value => map.insert key (f value))[other]? =
      if key = other then map[other]?.map f else map[other]? := by
  cases hget : map[key]? with
  | none =>
      rw [Option.elim_none]
      split
      · next heq =>
          subst heq
          rw [hget]
          rfl
      · rfl
  | some value =>
      rw [Option.elim_some, getElem?_insert_key]
      split
      · next heq =>
          subst heq
          rw [hget]
          rfl
      · rfl

omit [DecidableEq κ] in
/-- A map all of whose values are there is the map of what they are. -/
theorem sequence_eq_iff (map : ExtTreeMap κ (Option ν)) (other : ExtTreeMap κ ν) :
    (map.toList.all fun entry => entry.2.isSome) = true ∧ map.filterMap (fun _ value => value) =
        other ↔
      ∀ key : κ, map[key]? = other[key]?.map some := by
  have hget (key : κ) : (map.filterMap fun _ value => value)[key]? = map[key]?.join :=
    ExtTreeMap.getElem?_filterMap'
  constructor
  · rintro ⟨hall, rfl⟩ key
    rw [hget]
    cases hvalue : map[key]? with
    | none => rfl
    | some value =>
        have hmem := ExtTreeMap.mem_toList_iff_getElem?_eq_some.mpr hvalue
        obtain ⟨inner, rfl⟩ := Option.isSome_iff_exists.mp (List.all_eq_true.mp hall _ hmem)
        rfl
  · intro h
    refine ⟨List.all_eq_true.mpr fun entry hentry => ?_, ExtTreeMap.ext_getElem? fun key => ?_⟩
    · have hvalue := ExtTreeMap.mem_toList_iff_getElem?_eq_some.mp hentry
      rw [h, Option.map_eq_some_iff] at hvalue
      obtain ⟨inner, -, hinner⟩ := hvalue
      rw [← hinner]
      rfl
    · rw [hget, h]
      cases other[key]? with
      | none => rfl
      | some value => rfl

end TreeMap
