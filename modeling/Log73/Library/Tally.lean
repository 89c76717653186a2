import Std.Data.ExtTreeMap.Lemmas
import Mathlib.Data.List.Basic

/-!
Counters by key that keep no zero entry: the map represents a function to the
naturals, and equal functions are represented by equal maps.
-/

namespace Tally

open Std

variable {K : Type*} [Ord K] [TransOrd K]

def increment (counts : ExtTreeMap K Nat) (k : K) : ExtTreeMap K Nat :=
  counts.insert k (counts[k]?.getD 0 + 1)

def decrement (counts : ExtTreeMap K Nat) (k : K) : ExtTreeMap K Nat :=
  match counts[k]? with
  | none => counts
  | some count => if count ≤ 1 then counts.erase k else counts.insert k (count - 1)

/-- The map holds exactly the nonzero values of a function. -/
def Represents (counts : ExtTreeMap K Nat) (f : K → Nat) : Prop :=
  ∀ k, counts[k]? = if f k = 0 then none else some (f k)

namespace Represents

variable {counts counts' : ExtTreeMap K Nat} {f g : K → Nat}

theorem empty : Represents (∅ : ExtTreeMap K Nat) fun _ => 0 := by
  intro k
  simp

theorem congr (h : Represents counts f) (hfg : ∀ k, f k = g k) : Represents counts g :=
  (funext hfg : f = g) ▸ h

theorem getD (h : Represents counts f) (k : K) : counts[k]?.getD 0 = f k := by
  rw [h k]
  split <;> simp_all

variable [LawfulEqOrd K]

theorem unique (h : Represents counts f) (h' : Represents counts' f) : counts = counts' :=
  ExtTreeMap.ext_getElem? fun {k} => (h k).trans (h' k).symm

variable [DecidableEq K]

theorem increment (h : Represents counts f) (k : K) :
    Represents (increment counts k) fun k' => f k' + if k' = k then 1 else 0 := by
  intro k'
  rw [Tally.increment, ExtTreeMap.getElem?_insert, h.getD k]
  by_cases hk : k = k'
  · subst hk
    simp
  · simp [hk, Ne.symm hk, h k']

theorem decrement (h : Represents counts f) (k : K) :
    Represents (decrement counts k) fun k' => f k' - if k' = k then 1 else 0 := by
  intro k'
  rw [Tally.decrement, h k]
  by_cases hzero : f k = 0
  · simp only [hzero, if_true]
    rw [h k']
    by_cases hk : k' = k
    · simp [hk, hzero]
    · simp [hk]
  · simp only [hzero, if_false]
    by_cases hk : k' = k
    · subst hk
      by_cases hone : f k' ≤ 1
      · simp [hone, Nat.sub_eq_zero_of_le hone]
      · simp [hone, Nat.sub_eq_zero_iff_le]
    · have hne : k ≠ k' := Ne.symm hk
      split
      · simp [ExtTreeMap.getElem?_erase, hne, h k']
      · simp [ExtTreeMap.getElem?_insert, hne, h k']

theorem foldl_increment (h : Represents counts f) (keys : List K) :
    Represents (keys.foldl Tally.increment counts) fun k => f k + keys.count k := by
  induction keys generalizing counts f with
  | nil => simpa using h
  | cons key keys ih =>
      refine (ih (h.increment key)).congr fun k => ?_
      rw [List.count_cons]
      by_cases hk : k = key
      · simp [hk]
        omega
      · simp [hk, Ne.symm hk]

theorem foldl_decrement (h : Represents counts f) (keys : List K) :
    Represents (keys.foldl Tally.decrement counts) fun k => f k - keys.count k := by
  induction keys generalizing counts f with
  | nil => simpa using h
  | cons key keys ih =>
      refine (ih (h.decrement key)).congr fun k => ?_
      rw [List.count_cons]
      by_cases hk : k = key
      · simp [hk]
        omega
      · simp [hk, Ne.symm hk]

end Represents

end Tally
