import Mathlib.Logic.Basic

/-!
Filling lines in order: an item goes on the current line as long as the line still fits,
and on a new line otherwise.
-/

namespace Filling

variable {α : Type*} (fits : List α → Bool)

/-- The full lines, and the current one. -/
abbrev State (α : Type*) := List (List α) × List α

def add (state : State α) (item : α) : State α :=
  if state.2.isEmpty || fits (state.2 ++ [item]) then (state.1, state.2 ++ [item])
  else (state.1 ++ [state.2], [item])

/-- All lines that hold an item. -/
def lines (state : State α) : List (List α) :=
  if state.2.isEmpty then state.1 else state.1 ++ [state.2]

def fill (items : List α) : State α := items.foldl (add fits) ([], [])

/-- A line holds an item, and more than one only if they fit. -/
def Fits (line : List α) : Prop := line ≠ [] ∧ (fits line = true ∨ line.length = 1)

variable {fits} {state : State α}

theorem flatten_lines_add (item : α) :
    (lines (add fits state item)).flatten = (lines state).flatten ++ [item] := by
  have hlines {state : State α} : (lines state).flatten = state.1.flatten ++ state.2 := by
    rw [lines]
    split
    · next hempty => rw [List.isEmpty_iff.mp hempty, List.append_nil]
    · rw [List.flatten_concat]
  rw [hlines, hlines, add]
  split
  · exact (List.append_assoc _ _ _).symm
  · rw [List.flatten_concat]

theorem fits_lines_add (h : ∀ line ∈ lines state, Fits fits line) (item : α) :
    ∀ line ∈ lines (add fits state item), Fits fits line := by
  have hfull : ∀ line ∈ state.1, Fits fits line := by
    intro line hline
    apply h
    rw [lines]
    split
    · exact hline
    · exact List.mem_append_left _ hline
  have hsingle : Fits fits [item] := ⟨List.cons_ne_nil _ _, Or.inr rfl⟩
  rw [add]
  split
  · next hroom =>
      have hne : (state.2 ++ [item]).isEmpty = false := by simp
      rw [lines, hne, if_neg Bool.false_ne_true, List.forall_mem_append, List.forall_mem_singleton]
      refine ⟨hfull, by simp, ?_⟩
      cases Bool.or_eq_true_iff.mp hroom with
      | inl hempty =>
          rw [List.isEmpty_iff.mp hempty]
          exact Or.inr rfl
      | inr hfits => exact Or.inl hfits
  · next hroom =>
      rw [Bool.not_eq_true, Bool.or_eq_false_iff] at hroom
      rw [lines, List.isEmpty_cons, if_neg Bool.false_ne_true, List.forall_mem_append,
        List.forall_mem_append, List.forall_mem_singleton, List.forall_mem_singleton]
      refine ⟨⟨hfull, h state.2 ?_⟩, hsingle⟩
      rw [lines, hroom.1, if_neg Bool.false_ne_true]
      exact List.mem_concat_self

/-- The lines hold the items in their order. -/
theorem flatten_fill (items : List α) : (lines (fill fits items)).flatten = items := by
  suffices h : ∀ state : State α,
      (lines (items.foldl (add fits) state)).flatten = (lines state).flatten ++ items from
    h ([], [])
  induction items with
  | nil => exact fun state => (List.append_nil _).symm
  | cons item items ih =>
      intro state
      rw [List.foldl_cons, ih, flatten_lines_add, List.append_assoc, List.singleton_append]

theorem fits_fill (items : List α) : ∀ line ∈ lines (fill fits items), Fits fits line := by
  suffices h : ∀ state : State α, (∀ line ∈ lines state, Fits fits line) →
      ∀ line ∈ lines (items.foldl (add fits) state), Fits fits line from
    h ([], []) fun _ hmem => absurd hmem List.not_mem_nil
  induction items with
  | nil => exact fun _ h => h
  | cons item items ih => exact fun state h => ih _ (fits_lines_add h item)

end Filling
