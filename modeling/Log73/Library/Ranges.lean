import Mathlib.Data.List.Nodup
import Mathlib.Data.List.Range

/-!
Ranges and pages: where the tests of a search fall in line with the order of a list, a range of
it is a filter, and its pages one after another are the list.
-/

namespace Ranges

variable {α : Type*} {xs : List α} {p : α → Bool}

theorem takeWhile_eq_filter (h : xs.Pairwise fun a b => p b = true → p a = true) :
    xs.takeWhile p = xs.filter p := by
  induction xs with
  | nil => rfl
  | cons a xs ih =>
      obtain ⟨hhead, hrest⟩ := List.pairwise_cons.mp h
      rw [List.takeWhile_cons, List.filter_cons, ih hrest]
      split
      · rfl
      · next ha =>
          refine (List.filter_eq_nil_iff.mpr fun b hb hpb => ha ?_).symm
          exact hhead b hb hpb

theorem dropWhile_eq_filter (h : xs.Pairwise fun a b => p b = true → p a = true) :
    xs.dropWhile p = xs.filter fun a => !p a := by
  induction xs with
  | nil => rfl
  | cons a xs ih =>
      obtain ⟨hhead, hrest⟩ := List.pairwise_cons.mp h
      rw [List.dropWhile_cons, List.filter_cons, ih hrest]
      cases ha : p a with
      | true => rfl
      | false =>
          refine congrArg (a :: ·) (List.filter_eq_self.mpr fun b hb => ?_).symm
          rw [Bool.not_eq_true', Bool.eq_false_iff]
          exact fun hpb => Bool.eq_false_iff.mp ha (hhead b hb hpb)

section Slices

/-- `xs[first..last]`, which does not exist when the bounds are out of range or out of order. -/
def slice? (xs : List α) (first last : Nat) : Option (List α) :=
  if first ≤ last ∧ last ≤ xs.length then some ((xs.take last).drop first) else none

theorem slice?_append (front middle back : List α) :
    slice? (front ++ (middle ++ back)) front.length (front.length + middle.length) =
      some middle := by
  rw [slice?, if_pos ⟨Nat.le_add_right _ _, by
    rw [List.length_append, List.length_append]
    omega⟩, List.take_length_add_append, List.take_left, List.drop_left]

/-- Bounds out of order. -/
theorem slice?_eq_none {first last : Nat} (h : last < first) : slice? xs first last = none :=
  if_neg fun hle => absurd hle.1 (Nat.not_le_of_lt h)

/-- A sum that stays at the highest number when it would pass it. -/
def saturatingAdd (high a b : Nat) : Nat := min high (a + b)

end Slices

section Pages

/-- The page of a list at an offset. -/
def page (xs : List α) (offset limit : Nat) : List α := (xs.drop offset).take limit

/-- A slice that is cut off at the end of the list is a page of it. -/
theorem slice?_eq_page {high offset : Nat} (limit : Nat) (hhigh : xs.length ≤ high)
    (hoffset : offset < xs.length) :
    slice? xs offset (min (saturatingAdd high offset limit) xs.length) =
      some (page xs offset limit) := by
  have hend : min (saturatingAdd high offset limit) xs.length =
      min (offset + limit) xs.length := by
    rw [saturatingAdd]
    omega
  rw [hend, slice?, if_pos ⟨by omega, Nat.min_le_right _ _⟩, ← List.take_take, List.take_length,
    List.drop_take, Nat.add_sub_cancel_left]
  rfl

theorem pages_flatten (xs : List α) (limit count : Nat) :
    (List.range count).flatMap (fun k => page xs (k * limit) limit) =
      xs.take (count * limit) := by
  induction count with
  | zero => rw [Nat.zero_mul, List.take_zero]; rfl
  | succ count ih =>
      rw [List.range_succ, List.flatMap_append, ih, List.flatMap_singleton, Nat.succ_mul,
        List.take_add]
      rfl

theorem length_page_of_next {limit k : Nat} (h : page xs ((k + 1) * limit) limit ≠ []) :
    (page xs (k * limit) limit).length = limit := by
  have hlt : (k + 1) * limit < xs.length := by
    by_contra hle
    exact h (by rw [page, List.drop_eq_nil_of_le (Nat.le_of_not_lt hle), List.take_nil])
  rw [page, List.length_take, List.length_drop]
  rw [Nat.succ_mul] at hlt
  omega

end Pages

section Positions

/-- Where the elements of a filter stand. -/
theorem map_filter_range (xs : List α) (p : α → Bool) :
    ((List.range xs.length).filter fun i => xs[i]?.any p).map (xs[·]?) =
      (xs.filter p).map some := by
  have hall : (List.range xs.length).map (xs[·]?) = xs.map some := by
    refine List.ext_getElem (by simp) fun i hi hi' => ?_
    rw [List.length_map, List.length_range] at hi
    simp [hi]
  have hleft := List.filter_map (f := (xs[·]?)) (p := fun a => a.any p) (l := List.range xs.length)
  have hright := List.filter_map (f := some) (p := fun a : Option α => a.any p) (l := xs)
  rw [hall, hright] at hleft
  exact hleft.symm

/-- The positions of the elements of a filter, in ascending order, read back the filter. -/
theorem map_mergeSort_positions {positions : List Nat} (hnodup : positions.Nodup)
    (hmem : ∀ i, i ∈ positions ↔ ∃ a, xs[i]? = some a ∧ p a = true) :
    (positions.mergeSort).map (xs[·]?) = (xs.filter p).map some := by
  have hsorted : positions.mergeSort.Pairwise (· ≤ ·) := by
    have htrans (a b c : Nat) (hab : decide (a ≤ b) = true) (hbc : decide (b ≤ c) = true) :
        decide (a ≤ c) = true :=
      decide_eq_true (Nat.le_trans (of_decide_eq_true hab) (of_decide_eq_true hbc))
    have htotal (a b : Nat) : (decide (a ≤ b) || decide (b ≤ a)) = true := by
      rw [Bool.or_eq_true, decide_eq_true_eq, decide_eq_true_eq]
      omega
    have hpairwise := List.pairwise_mergeSort htrans htotal positions
    exact hpairwise.imp fun h => of_decide_eq_true h
  have hrange : ((List.range xs.length).filter fun i => xs[i]?.any p).Pairwise (· ≤ ·) :=
    (List.pairwise_lt_range.imp Nat.le_of_lt).filter _
  have hperm : positions.mergeSort.Perm
      ((List.range xs.length).filter fun i => xs[i]?.any p) := by
    refine (List.mergeSort_perm _ _).trans ?_
    refine (List.perm_ext_iff_of_nodup hnodup (List.nodup_range.filter _)).mpr fun i => ?_
    rw [hmem, List.mem_filter, List.mem_range, Option.any_eq_true]
    refine ⟨fun ⟨a, ha, hp⟩ => ⟨(List.getElem?_eq_some_iff.mp ha).1, a, ha, hp⟩,
      fun ⟨_, a, ha, hp⟩ => ⟨a, ha, hp⟩⟩
  rw [hperm.eq_of_pairwise (fun a b _ _ hab hba => Nat.le_antisymm hab hba) hsorted hrange,
    map_filter_range]

/-- A page of the sorted positions reads back a page of the filter. -/
theorem page_positions {positions : List Nat} (hnodup : positions.Nodup)
    (hmem : ∀ i, i ∈ positions ↔ ∃ a, xs[i]? = some a ∧ p a = true) (offset limit : Nat) :
    (page positions.mergeSort offset limit).filterMap (xs[·]?) =
      page (xs.filter p) offset limit := by
  have hread (ys : List (Option α)) (positions : List Nat) (h : positions.map (xs[·]?) = ys) :
      positions.filterMap (xs[·]?) = ys.filterMap id := by
    rw [← h, List.filterMap_map]
    rfl
  have hpage : (page positions.mergeSort offset limit).map (xs[·]?) =
      (page (xs.filter p) offset limit).map some := by
    rw [page, List.map_take, List.map_drop, map_mergeSort_positions hnodup hmem, ← List.map_drop,
      ← List.map_take]
    rfl
  rw [hread _ _ hpage, List.filterMap_map]
  exact List.filterMap_some

end Positions

section Prefixes

variable [LT α]

theorem not_lt_of_prefix (hirrefl : ∀ a : α, ¬a < a) {start xs : List α} (h : start <+: xs) :
    ¬xs < start := by
  induction start generalizing xs with
  | nil => exact List.not_lt_nil xs
  | cons a start ih =>
      obtain ⟨rest, rfl⟩ := h
      rw [List.cons_append, List.cons_lt_cons_iff, not_or]
      exact ⟨hirrefl a, fun hlt => ih (List.prefix_append start rest) hlt.2⟩

/-- What stands between a prefix and a list that has it has the prefix too. -/
theorem prefix_of_between {start xs ys : List α} (hge : ¬xs < start) (hlt : xs < ys)
    (h : start <+: ys) : start <+: xs := by
  induction start generalizing xs ys with
  | nil => exact List.nil_prefix
  | cons a start ih =>
      obtain ⟨rest, rfl⟩ := h
      cases xs with
      | nil => exact absurd (List.nil_lt_cons a start) hge
      | cons b xs =>
          rw [List.cons_append, List.cons_lt_cons_iff] at hlt
          rw [List.cons_lt_cons_iff, not_or] at hge
          cases hlt with
          | inl hba => exact absurd hba hge.1
          | inr heq =>
              obtain ⟨rfl, hrest⟩ := heq
              rw [List.cons_prefix_cons]
              exact ⟨rfl, ih (fun h => hge.2 ⟨rfl, h⟩) hrest (List.prefix_append start rest)⟩

end Prefixes

end Ranges
