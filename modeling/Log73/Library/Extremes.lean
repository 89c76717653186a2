import Mathlib.Algebra.Order.Group.Nat
import Mathlib.Data.List.Basic
import Mathlib.Order.Lattice
import Mathlib.Order.MinMax

/-!
Extreme elements of lists: the first and the last of the greatest ones, as a loop finds them,
against the list of all of them; the maximum and the join of what two lists come to; and the
first item that is asked for, with when it is the least by a key that the list is sorted by only
coarsely.
-/

namespace Extremes

variable {α : Type*} (size : α → Nat)

/-- A later element that is as great replaces the one kept. -/
def keepLast (best : Option α) (a : α) : Option α :=
  match best with
  | none => some a
  | some b => if size b ≤ size a then some a else some b

/-- Only a greater element replaces the one kept. -/
def keepFirst (best : Option α) (a : α) : Option α :=
  match best with
  | none => some a
  | some b => if size b < size a then some a else some b

/-- The greatest elements, in order. -/
def greatest (l : List α) : List α := l.filter fun a => l.all fun b => size b ≤ size a

variable {size}

theorem mem_greatest {l : List α} {a : α} :
    a ∈ greatest size l ↔ a ∈ l ∧ ∀ b ∈ l, size b ≤ size a := by
  simp [greatest]

theorem greatest_cons_of_lt {b c : α} {l : List α} (hc : c ∈ l) (h : size b < size c) :
    greatest size (b :: l) = greatest size l := by
  rw [greatest, List.filter_cons_of_neg]
  · refine List.filter_congr fun a ha => ?_
    rw [List.all_cons]
    by_cases hall : ∀ x ∈ l, size x ≤ size a
    · have hb : size b ≤ size a := h.le.trans (hall c hc)
      rw [decide_eq_true hb, Bool.true_and]
    · have hfalse : (l.all fun x => decide (size x ≤ size a)) = false := by
        rw [List.all_eq_false]
        push Not at hall
        obtain ⟨x, hx, hlt⟩ := hall
        exact ⟨x, hx, by simpa using hlt⟩
      rw [hfalse, Bool.and_false]
  · rw [List.all_cons, Bool.and_eq_true, List.all_eq_true]
    intro hall
    have := of_decide_eq_true (hall.2 c hc)
    omega

theorem greatest_cons_of_le {b : α} {l : List α} (h : ∀ c ∈ l, size c ≤ size b) :
    greatest size (b :: l) = b :: l.filter fun a => size b ≤ size a := by
  rw [greatest, List.filter_cons_of_pos]
  · congr 1
    refine List.filter_congr fun a ha => ?_
    rw [List.all_cons]
    by_cases hb : size b ≤ size a
    · rw [decide_eq_true hb, Bool.true_and, List.all_eq_true]
      exact fun c hc => decide_eq_true ((h c hc).trans hb)
    · rw [decide_eq_false hb, Bool.false_and]
  · rw [List.all_cons, Bool.and_eq_true, List.all_eq_true]
    exact ⟨decide_eq_true (Nat.le_refl _), fun c hc => decide_eq_true (h c hc)⟩

/-- A smaller element in second place does not count. -/
theorem greatest_cons_cons_of_lt {a b : α} {l : List α} (h : size a < size b) :
    greatest size (b :: a :: l) = greatest size (b :: l) := by
  by_cases hall : ∀ c ∈ l, size c ≤ size b
  · have hall' : ∀ c ∈ a :: l, size c ≤ size b := by
      intro c hc
      cases List.mem_cons.mp hc with
      | inl heq => exact heq ▸ h.le
      | inr hc => exact hall c hc
    rw [greatest_cons_of_le hall', greatest_cons_of_le hall, List.filter_cons_of_neg]
    simpa using h
  · push Not at hall
    obtain ⟨c, hc, hlt⟩ := hall
    rw [greatest_cons_of_lt (List.mem_cons_of_mem a hc) hlt, greatest_cons_of_lt hc hlt,
      greatest_cons_of_lt hc (h.trans hlt)]

theorem foldl_keepFirst_some (b : α) (l : List α) :
    l.foldl (keepFirst size) (some b) = (greatest size (b :: l)).head? := by
  induction l generalizing b with
  | nil => rw [greatest_cons_of_le (fun c hc => absurd hc List.not_mem_nil)]; rfl
  | cons a l ih =>
      rw [List.foldl_cons]
      by_cases h : size b < size a
      · rw [keepFirst, if_pos h, ih, greatest_cons_of_lt List.mem_cons_self h]
      · rw [keepFirst, if_neg h, ih]
        by_cases hlt : size a < size b
        · rw [greatest_cons_cons_of_lt hlt]
        · have heq : size a = size b := by omega
          by_cases hall : ∀ c ∈ l, size c ≤ size b
          · have hall' : ∀ c ∈ a :: l, size c ≤ size b := by
              intro c hc
              cases List.mem_cons.mp hc with
              | inl hca => exact hca ▸ heq.le
              | inr hc => exact hall c hc
            rw [greatest_cons_of_le hall', greatest_cons_of_le hall]
            rfl
          · push Not at hall
            obtain ⟨c, hc, hlt'⟩ := hall
            rw [greatest_cons_of_lt (List.mem_cons_of_mem a hc) hlt', greatest_cons_of_lt hc hlt',
              greatest_cons_of_lt hc (heq.trans_lt hlt')]

theorem foldl_keepLast_some (b : α) (l : List α) :
    l.foldl (keepLast size) (some b) = (greatest size (b :: l)).getLast? := by
  induction l generalizing b with
  | nil => rw [greatest_cons_of_le (fun c hc => absurd hc List.not_mem_nil)]; rfl
  | cons a l ih =>
      rw [List.foldl_cons]
      by_cases h : size b ≤ size a
      · rw [keepLast, if_pos h, ih]
        by_cases hall : ∀ c ∈ a :: l, size c ≤ size b
        · -- the first element ties with the second one and stands in front of it
          have heq : size a = size b := Nat.le_antisymm (hall a List.mem_cons_self) h
          have hall' : ∀ c ∈ l, size c ≤ size a := fun c hc =>
            heq ▸ hall c (List.mem_cons_of_mem a hc)
          rw [greatest_cons_of_le hall, greatest_cons_of_le hall', heq,
            List.filter_cons_of_pos (by simp [heq]), List.getLast?_cons_cons]
        · push Not at hall
          obtain ⟨c, hc, hlt⟩ := hall
          rw [greatest_cons_of_lt hc hlt]
      · rw [keepLast, if_neg h, ih, greatest_cons_cons_of_lt (by omega)]

theorem foldl_keepFirst (l : List α) : l.foldl (keepFirst size) none = (greatest size l).head? := by
  cases l with
  | nil => rfl
  | cons b l => exact foldl_keepFirst_some b l

theorem foldl_keepLast (l : List α) :
    l.foldl (keepLast size) none = (greatest size l).getLast? := by
  cases l with
  | nil => rfl
  | cons b l => exact foldl_keepLast_some b l

theorem greatest_eq_nil {l : List α} : greatest size l = [] ↔ l = [] := by
  constructor
  · intro h
    have hsome (b : α) (l : List α) : l.foldl (keepFirst size) (some b) ≠ none := by
      induction l generalizing b with
      | nil => exact Option.some_ne_none b
      | cons a l ih =>
          rw [List.foldl_cons, keepFirst]
          split
          · exact ih a
          · exact ih b
    cases l with
    | nil => rfl
    | cons b l =>
        have hfold := @foldl_keepFirst_some _ size b l
        rw [h] at hfold
        exact absurd hfold (hsome b l)
  · intro h
    rw [h]
    rfl

/-- Two measures that compare the elements of a list alike have the same greatest ones. -/
theorem greatest_congr {size' : α → Nat} {l : List α}
    (h : ∀ a ∈ l, ∀ b ∈ l, (size b ≤ size a ↔ size' b ≤ size' a)) :
    greatest size l = greatest size' l := by
  refine List.filter_congr fun a ha => ?_
  rw [Bool.eq_iff_iff, List.all_eq_true, List.all_eq_true]
  constructor
  · exact fun hall b hb => decide_eq_true ((h a ha b hb).mp (of_decide_eq_true (hall b hb)))
  · exact fun hall b hb => decide_eq_true ((h a ha b hb).mpr (of_decide_eq_true (hall b hb)))

end Extremes

namespace Maximum

variable {α : Type*} [LinearOrder α]

/-- The greater of two values that may be missing. -/
def join : Option α → Option α → Option α := Option.merge max

@[simp] theorem join_none_left (a : Option α) : join none a = a := Option.merge_none_left

@[simp] theorem join_none_right (a : Option α) : join a none = a := Option.merge_none_right

theorem join_assoc (a b c : Option α) : join (join a b) c = join a (join b c) := by
  cases a with
  | none => rw [join_none_left, join_none_left]
  | some a =>
      cases b with
      | none => rw [join_none_right, join_none_left]
      | some b =>
          cases c with
          | none => rfl
          | some c => exact congrArg some (max_assoc a b c)

theorem max?_append (xs ys : List α) : (xs ++ ys).max? = join xs.max? ys.max? := by
  induction xs with
  | nil =>
      rw [List.nil_append, List.max?_nil, join_none_left]
  | cons first xs ih =>
      rw [List.cons_append, List.max?_cons, List.max?_cons, ih, join]
      cases xs.max? with
      | none => cases ys.max? <;> rfl
      | some x =>
          cases ys.max? with
          | none => rfl
          | some y => exact congrArg some (max_assoc first x y).symm

theorem exists_le_max? {xs ys : List α} (h : xs ⊆ ys) {a : α} (ha : xs.max? = some a) :
    ∃ b, ys.max? = some b ∧ a ≤ b := by
  have hmem := h (List.max?_mem ha)
  cases hmax : ys.max? with
  | none =>
      rw [List.max?_eq_none_iff.mp hmax] at hmem
      cases hmem
  | some b => exact ⟨b, rfl, (List.max?_eq_some_iff.mp hmax).2 a hmem⟩

/-- The maximum only depends on the members. -/
theorem max?_congr {xs ys : List α} (h : ∀ a, a ∈ xs ↔ a ∈ ys) : xs.max? = ys.max? := by
  cases hmax : xs.max? with
  | none =>
      rw [eq_comm, List.max?_eq_none_iff, List.eq_nil_iff_forall_not_mem]
      intro a ha
      rw [← h, List.max?_eq_none_iff.mp hmax] at ha
      cases ha
  | some a =>
      obtain ⟨hmem, hle⟩ := List.max?_eq_some_iff.mp hmax
      exact (List.max?_eq_some_iff.mpr ⟨(h a).mp hmem, fun b hb => hle b ((h b).mpr hb)⟩).symm

end Maximum

namespace Nearest

variable {α β γ : Type*} [LinearOrder β] [LinearOrder γ]

/-- An item that is asked for and none of which has a smaller key, or nothing where there is no
such item. -/
structure Least (key : α → γ) (wanted : α → Prop) (items : List α) (found : Option α) : Prop where
  none_iff : found = none ↔ ∀ a ∈ items, ¬wanted a
  sound : ∀ a, found = some a → a ∈ items ∧ wanted a
  least : ∀ a, found = some a → ∀ b ∈ items, wanted b → key a ≤ key b

/-- In the lowest bin with an item that is asked for, the one that stands first has the smallest
key of that bin. -/
def FirstIsLeast (bin : α → β) (key : α → γ) (wanted : α → Prop) (items : List α) : Prop :=
  ∀ a ∈ items, wanted a → (∀ b ∈ items, wanted b → bin a ≤ bin b) →
    (∀ b, wanted b → bin b = bin a → ¬[b, a].Sublist items) →
      ∀ b ∈ items, wanted b → bin b = bin a → key a ≤ key b

variable {wanted : α → Prop} [DecidablePred wanted] {items : List α} {a b : α}

omit [DecidablePred wanted] in
theorem least_reverse {key : α → γ} {found : Option α} :
    Least key wanted items.reverse found ↔ Least key wanted items found := by
  constructor
  · intro h
    exact ⟨by simpa using h.none_iff, by simpa using h.sound, by simpa using h.least⟩
  · intro h
    exact ⟨by simpa using h.none_iff, by simpa using h.sound, by simpa using h.least⟩

/-- All that is asked for stands behind what is found. -/
theorem sublist_of_find? (hfound : items.find? (wanted ·) = some a) (hb : b ∈ items)
    (hwanted : wanted b) : a = b ∨ [a, b].Sublist items := by
  obtain ⟨-, front, back, rfl, hfront⟩ := List.find?_eq_some_iff_append.mp hfound
  rcases List.mem_append.mp hb with hmem | hmem
  · have hnot := hfront b hmem
    rw [decide_eq_true hwanted] at hnot
    cases hnot
  · rcases List.mem_cons.mp hmem with rfl | hback
    · exact Or.inl rfl
    · apply Or.inr
      exact ((List.singleton_sublist.mpr hback).cons_cons a).trans (List.sublist_append_right _ _)

theorem not_sublist_of_find? (hnodup : items.Nodup) (hfound : items.find? (wanted ·) = some a)
    (hwanted : wanted b) : ¬[b, a].Sublist items := by
  induction items with
  | nil => cases hfound
  | cons first items ih =>
      obtain ⟨hfirst, hitems⟩ := List.nodup_cons.mp hnodup
      intro hsublist
      rw [List.find?_cons] at hfound
      split at hfound
      · cases hfound
        cases hsublist with
        | cons _ hrest => exact hfirst (hrest.subset (List.mem_cons_of_mem _ List.mem_cons_self))
        | cons_cons _ hrest => exact hfirst (List.singleton_sublist.mp hrest)
      · next hnot =>
          cases hsublist with
          | cons _ hrest => exact ih hitems hfound hrest
          | cons_cons _ hrest => exact of_decide_eq_false hnot hwanted

/-- Where the list is sorted by bins, and the bin of an item grows with its key, the first item
that is asked for is the least one exactly when it is so in the lowest bin. -/
theorem least_find?_iff {bin : α → β} {key : α → γ} (hnodup : items.Nodup)
    (hsorted : items.Pairwise fun a b => bin a ≤ bin b)
    (hbin : ∀ a ∈ items, ∀ b ∈ items, key a ≤ key b → bin a ≤ bin b) :
    Least key wanted items (items.find? (wanted ·)) ↔ FirstIsLeast bin key wanted items := by
  have hsound (found : α) (hfound : items.find? (wanted ·) = some found) :
      found ∈ items ∧ wanted found :=
    ⟨List.mem_of_find?_eq_some hfound, by simpa using List.find?_some hfound⟩
  constructor
  · intro hleast a ha hwanted hlowest hfirst b hb hwantedb hsame
    cases hfound : items.find? (wanted ·) with
    | none => exact absurd hwanted (hleast.none_iff.mp hfound a ha)
    | some found =>
        obtain ⟨hmem, hwantedf⟩ := hsound found hfound
        have hbins : bin found = bin a := by
          have hle := hbin found hmem a ha (hleast.least found hfound a ha hwanted)
          exact le_antisymm hle (hlowest found hmem hwantedf)
        rcases sublist_of_find? hfound ha hwanted with rfl | hbehind
        · exact hleast.least found hfound b hb hwantedb
        · exact absurd hbehind (hfirst found hwantedf hbins)
  · intro hfirst
    refine ⟨?_, hsound, fun found hfound b hb hwanted => ?_⟩
    · simp [List.find?_eq_none]
    · obtain ⟨hmem, hwantedf⟩ := hsound found hfound
      have hlowest (other : α) (ho : other ∈ items) (hwantedo : wanted other) :
          bin found ≤ bin other := by
        rcases sublist_of_find? hfound ho hwantedo with rfl | hbehind
        · exact le_rfl
        · have hpair : [found, other].Pairwise fun a b => bin a ≤ bin b := hsorted.sublist hbehind
          exact List.rel_of_pairwise_cons hpair List.mem_cons_self
      by_cases hsame : bin b = bin found
      · exact hfirst found hmem hwantedf hlowest
          (fun other hwantedo _ => not_sublist_of_find? hnodup hfound hwantedo) b hb hwanted hsame
      · by_contra hnot
        exact hsame (le_antisymm (hbin b hb found hmem (not_le.mp hnot).le) (hlowest b hb hwanted))

end Nearest
