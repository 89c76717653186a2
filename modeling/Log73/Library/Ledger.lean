import Std.Data.ExtTreeMap.Lemmas
import Mathlib.Algebra.BigOperators.Group.List.Basic
import Mathlib.Data.List.Perm.Basic
import Mathlib.Tactic.Abel

/-!
Ownership ledgers: a finite map from keys to the parties that own them. A party
claims keys nobody owns yet, releases all of its keys at once, and takes over
single free keys. What a party holds is the sum of the weights of its keys.
-/

namespace Ledger

open Std

variable {K : Type*} [Ord K] [TransOrd K]
variable {I : Type*} {M : Type*} [AddCommMonoid M]

section Entries

variable {V : Type*}

theorem mem_insert_congr {V' : Type*} (m : ExtTreeMap K V) (m' : ExtTreeMap K V')
    (h : ∀ k, k ∈ m ↔ k ∈ m') (k' : K) (v : V) (v' : V') (k : K) :
    k ∈ m.insert k' v ↔ k ∈ m'.insert k' v' := by
  rw [ExtTreeMap.mem_insert, ExtTreeMap.mem_insert, h k]

theorem contains_congr {V' : Type*} (m : ExtTreeMap K V) (m' : ExtTreeMap K V')
    (h : ∀ k, k ∈ m ↔ k ∈ m') (k : K) : m.contains k = m'.contains k := by
  rw [Bool.eq_iff_iff, ExtTreeMap.contains_iff_mem, ExtTreeMap.contains_iff_mem, h k]

variable [LawfulEqOrd K]

theorem nodup_toList (m : ExtTreeMap K V) : m.toList.Nodup := by
  have h := ExtTreeMap.distinct_keys_toList (t := m)
  refine h.imp ?_
  rintro a b hab rfl
  exact hab (ReflOrd.compare_self)

/-- The entries of a map after a fresh key went in. -/
theorem toList_insert_perm (m : ExtTreeMap K V) (k : K) (v : V) (h : k ∉ m) :
    (m.insert k v).toList.Perm ((k, v) :: m.toList) := by
  have hfresh : (k, v) ∉ m.toList := by
    intro hmem
    have := ExtTreeMap.mem_toList_iff_getElem?_eq_some.mp hmem
    rw [ExtTreeMap.getElem?_eq_none h] at this
    cases this
  refine (List.perm_ext_iff_of_nodup (nodup_toList _)
    (List.nodup_cons.mpr ⟨hfresh, nodup_toList m⟩)).mpr ?_
  rintro ⟨k', v'⟩
  rw [ExtTreeMap.mem_toList_iff_getElem?_eq_some, List.mem_cons,
    ExtTreeMap.mem_toList_iff_getElem?_eq_some, ExtTreeMap.getElem?_insert, Prod.mk.injEq]
  by_cases hk : k = k'
  · subst hk
    simp [ExtTreeMap.getElem?_eq_none h, eq_comm]
  · simp [hk, Ne.symm hk]

theorem ext_of_getElem? {m m' : ExtTreeMap K V} (h : ∀ k : K, m[k]? = m'[k]?) : m = m' :=
  ExtTreeMap.ext_getElem? (fun {k} => h k)

/-- Two maps with the same keys list them alike, whatever the values are. -/
theorem keys_eq_of_mem_iff {V' : Type*} (m : ExtTreeMap K V) (m' : ExtTreeMap K V')
    (h : ∀ k, k ∈ m ↔ k ∈ m') : m.keys = m'.keys := by
  have hunit : m.map (fun _ _ => ()) = m'.map (fun _ _ => ()) := by
    refine ext_of_getElem? fun k => ?_
    rw [ExtTreeMap.getElem?_map, ExtTreeMap.getElem?_map]
    have hk := h k
    rw [ExtTreeMap.mem_iff_isSome_getElem?, ExtTreeMap.mem_iff_isSome_getElem?] at hk
    cases hm : m[k]? <;> cases hm' : m'[k]? <;> simp_all
  have := congrArg ExtTreeMap.keys hunit
  rwa [ExtTreeMap.keys_map, ExtTreeMap.keys_map] at this

end Entries

/-- The total weight of all owned keys. -/
def total (w : K → M) (owners : ExtTreeMap K I) : M :=
  (owners.toList.map fun entry => w entry.1).sum

theorem total_insert [LawfulEqOrd K] (w : K → M) (owners : ExtTreeMap K I) (k : K) (i : I)
    (h : k ∉ owners) :
    total w (owners.insert k i) = w k + total w owners := by
  rw [total, ((toList_insert_perm owners k i h).map _).sum_eq]
  simp [total]

variable [DecidableEq I]

/-- The weight of the keys one party owns. -/
def holding (w : K → M) (owners : ExtTreeMap K I) (i : I) : M :=
  ((owners.toList.filter fun entry => entry.2 = i).map fun entry => w entry.1).sum

/-- A party gives up all of its keys. -/
def release (owners : ExtTreeMap K I) (i : I) : ExtTreeMap K I :=
  owners.filter fun _ j => j ≠ i

/-- The keys a party owns. -/
def keysOf (owners : ExtTreeMap K I) (i : I) : List K :=
  owners.toList.filterMap fun entry => if entry.2 = i then some entry.1 else none

theorem holding_release (w : K → M) (owners : ExtTreeMap K I) (i j : I) :
    holding w (release owners i) j = if i = j then 0 else holding w owners j := by
  rw [holding, release, ExtTreeMap.toList_filter, List.filter_filter]
  split
  · next h =>
      subst h
      simp
  · next h =>
      refine congrArg (fun l => (List.map _ l).sum) (List.filter_congr ?_)
      rintro ⟨k, i'⟩ _
      by_cases hi : i' = j <;> simp [hi, Ne.symm h]

theorem total_release (w : K → M) (owners : ExtTreeMap K I) (i : I) :
    holding w owners i + total w (release owners i) = total w owners := by
  rw [total, release, ExtTreeMap.toList_filter, holding]
  have h := (List.filter_append_perm (fun entry : K × I => decide (entry.2 = i)) owners.toList)
  have hsum := (h.map fun entry => w entry.1).sum_eq
  rw [List.map_append, List.sum_append] at hsum
  simpa [total] using hsum

section Lawful

variable [LawfulEqOrd K]

theorem holding_insert (w : K → M) (owners : ExtTreeMap K I) (k : K) (i j : I)
    (h : k ∉ owners) :
    holding w (owners.insert k i) j = (if i = j then w k else 0) + holding w owners j := by
  rw [holding, (((toList_insert_perm owners k i h).filter _).map _).sum_eq]
  by_cases hij : i = j <;> simp [holding, hij]

/-- A party that owns no key holds nothing. -/
theorem holding_eq_zero (w : K → M) (owners : ExtTreeMap K I) (i : I)
    (h : ∀ k : K, owners[k]? ≠ some i) : holding w owners i = 0 := by
  have hnil : (owners.toList.filter fun entry => entry.2 = i) = [] := by
    rw [List.filter_eq_nil_iff]
    rintro ⟨k, j⟩ hmem hj
    simp only [decide_eq_true_eq] at hj
    exact h k (hj ▸ ExtTreeMap.mem_toList_iff_getElem?_eq_some.mp hmem)
  simp [holding, hnil]

/-- A holding depends on which keys the party owns, and on nothing else. -/
theorem holding_congr_owners (w : K → M) (owners owners' : ExtTreeMap K I) (i : I)
    (h : ∀ k : K, owners[k]? = some i ↔ owners'[k]? = some i) :
    holding w owners i = holding w owners' i := by
  have hperm : (owners.toList.filter fun entry => entry.2 = i).Perm
      (owners'.toList.filter fun entry => entry.2 = i) := by
    refine (List.perm_ext_iff_of_nodup ((nodup_toList owners).filter _)
      ((nodup_toList owners').filter _)).mpr ?_
    rintro ⟨k, j⟩
    simp only [List.mem_filter, ExtTreeMap.mem_toList_iff_getElem?_eq_some, decide_eq_true_eq]
    constructor
    · rintro ⟨hmem, rfl⟩
      exact ⟨(h k).mp hmem, rfl⟩
    · rintro ⟨hmem, rfl⟩
      exact ⟨(h k).mpr hmem, rfl⟩
  exact (hperm.map _).sum_eq

theorem mem_keysOf (owners : ExtTreeMap K I) (i : I) (k : K) :
    k ∈ keysOf owners i ↔ owners[k]? = some i := by
  simp only [keysOf, List.mem_filterMap, Prod.exists, Option.ite_none_right_eq_some,
    ExtTreeMap.mem_toList_iff_getElem?_eq_some, Option.some.injEq]
  constructor
  · rintro ⟨k', j, h, rfl, rfl⟩
    exact h
  · intro h
    exact ⟨k, i, h, rfl, rfl⟩

theorem getElem?_release (owners : ExtTreeMap K I) (i : I) (k : K) :
    (release owners i)[k]? = owners[k]?.filter fun j => j ≠ i :=
  ExtTreeMap.getElem?_filter'

end Lawful

/-- What a party may do in one go: it takes some of the keys of a list that nobody owned,
and what it takes is worth the gain. -/
structure Claimed (w : K → M) (i : I) (keys : List K) (owners owners' : ExtTreeMap K I)
    (gain : M) : Prop where
  owner : ∀ k : K, owners'[k]? = owners[k]? ∨ k ∉ owners ∧ k ∈ keys ∧ owners'[k]? = some i
  total : total w owners' = total w owners + gain
  holding : ∀ j, holding w owners' j = holding w owners j + if i = j then gain else 0

namespace Claimed

variable {w : K → M} {i : I} {keys : List K} {owners owners' : ExtTreeMap K I} {gain : M}

theorem refl (w : K → M) (i : I) (keys : List K) (owners : ExtTreeMap K I) :
    Claimed w i keys owners owners 0 :=
  ⟨fun _ => .inl rfl, (add_zero _).symm, fun j => by simp⟩

theorem mem (h : Claimed w i keys owners owners' gain) {k : K} (hk : k ∈ owners) :
    k ∈ owners' := by
  rw [ExtTreeMap.mem_iff_isSome_getElem?] at hk ⊢
  rcases h.owner k with heq | ⟨hnot, -, -⟩
  · exact heq ▸ hk
  · exact absurd (ExtTreeMap.mem_iff_isSome_getElem?.mpr hk) hnot

/-- A key owned before keeps its owner. -/
theorem getElem?_of_mem (h : Claimed w i keys owners owners' gain) {k : K} (hk : k ∈ owners) :
    owners'[k]? = owners[k]? :=
  (h.owner k).resolve_right fun hnew => hnew.1 hk

/-- Who owns a key afterwards is the owner before or the claimant. -/
theorem owner_cases (h : Claimed w i keys owners owners' gain) {k : K} {j : I}
    (hk : owners'[k]? = some j) : owners[k]? = some j ∨ j = i ∧ k ∈ keys := by
  rcases h.owner k with heq | ⟨-, hmem, hi⟩
  · exact .inl (heq ▸ hk)
  · exact .inr ⟨Option.some.inj (hk.symm.trans hi), hmem⟩

/-- One more key of the list that is still free. -/
theorem insert [LawfulEqOrd K] (h : Claimed w i keys owners owners' gain) {k : K} (hk : k ∈ keys)
    (hfree : k ∉ owners') : Claimed w i keys owners (owners'.insert k i) (gain + w k) where
  owner k' := by
    by_cases hkk : k = k'
    · subst hkk
      refine .inr ⟨fun hmem => ?_, hk, by simp⟩
      rw [ExtTreeMap.mem_iff_isSome_getElem?] at hfree hmem
      rcases h.owner k with heq | ⟨hnot, -, -⟩
      · exact hfree (heq ▸ hmem)
      · exact hnot (ExtTreeMap.mem_iff_isSome_getElem?.mpr hmem)
    · rw [ExtTreeMap.getElem?_insert, if_neg (by simpa using hkk)]
      exact h.owner k'
  total := by
    rw [total_insert w owners' k i hfree, h.total]
    abel
  holding j := by
    rw [holding_insert w owners' k i j hfree, h.holding j]
    split
    · abel
    · abel

end Claimed

end Ledger
