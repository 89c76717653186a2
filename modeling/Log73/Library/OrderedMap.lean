import Mathlib.Data.List.Basic

/-!
Maps as lists of entries in the order they were first set in, as the objects and maps of
JavaScript keep them.
-/

namespace OrderedMap

variable {κ β : Type*} [DecidableEq κ]

def get? (entries : List (κ × β)) (key : κ) : Option β :=
  (entries.find? (·.1 = key)).map Prod.snd

/-- A key that is there keeps its place. -/
def set (entries : List (κ × β)) (key : κ) (value : β) : List (κ × β) :=
  if entries.any (·.1 = key) then
    entries.map fun entry => if entry.1 = key then (key, value) else entry
  else entries ++ [(key, value)]

variable {entries : List (κ × β)} {key : κ} {value : β}

theorem any_eq_true_iff : entries.any (·.1 = key) = true ↔ ∃ entry ∈ entries, entry.1 = key := by
  rw [List.any_eq_true]
  simp only [decide_eq_true_iff]

theorem mem_set (entry : κ × β) : entry ∈ set entries key value ↔
    entry = (key, value) ∨ (entry ∈ entries ∧ entry.1 ≠ key) := by
  rw [set]
  split
  · next hany =>
      obtain ⟨old, hold, hkey⟩ := any_eq_true_iff.mp hany
      rw [List.mem_map]
      constructor
      · rintro ⟨other, hother, rfl⟩
        split
        · exact Or.inl rfl
        · next hne => exact Or.inr ⟨hother, hne⟩
      · rintro (rfl | ⟨hmem, hne⟩)
        · exact ⟨old, hold, if_pos hkey⟩
        · exact ⟨entry, hmem, if_neg hne⟩
  · next hany =>
      rw [List.mem_append, List.mem_singleton, or_comm]
      refine or_congr_right (iff_self_and.mpr fun hmem heq => hany ?_)
      exact any_eq_true_iff.mpr ⟨entry, hmem, heq⟩

/-- What holds between any two keys holds with one more that it holds of. -/
theorem pairwise_set {R : κ → κ → Prop}
    (h : entries.Pairwise fun left right => R left.1 right.1)
    (hnew : (∀ entry ∈ entries, entry.1 ≠ key) → ∀ entry ∈ entries, R entry.1 key) :
    (set entries key value).Pairwise fun left right => R left.1 right.1 := by
  rw [set]
  split
  · refine List.pairwise_map.mpr (h.imp fun {left right} hR => ?_)
    have hkey (entry : κ × β) :
        (if entry.1 = key then (key, value) else entry).1 = entry.1 := by
      split
      · next heq => exact heq.symm
      · rfl
    rw [hkey, hkey]
    exact hR
  · next hany =>
      refine List.pairwise_append.mpr ⟨h, List.pairwise_singleton _ _, ?_⟩
      intro left hleft right hright
      rw [List.mem_singleton.mp hright]
      refine hnew (fun entry hmem heq => hany ?_) left hleft
      exact any_eq_true_iff.mpr ⟨entry, hmem, heq⟩

/-- With each key once, an entry is found under its key. -/
theorem get?_eq_some (h : entries.Pairwise fun left right => left.1 ≠ right.1)
    (hmem : (key, value) ∈ entries) : get? entries key = some value := by
  rw [get?]
  induction entries with
  | nil => cases hmem
  | cons first entries ih =>
      obtain ⟨hfirst, hrest⟩ := List.pairwise_cons.mp h
      rw [List.find?_cons]
      split
      · next heq =>
          rcases List.mem_cons.mp hmem with rfl | hlater
          · rfl
          · exact absurd (of_decide_eq_true heq) (hfirst _ hlater)
      · next hne =>
          rcases List.mem_cons.mp hmem with rfl | hlater
          · simp at hne
          · exact ih hrest hlater

theorem get?_cons (entry : κ × β) (entries : List (κ × β)) (key : κ) :
    get? (entry :: entries) key = if entry.1 = key then some entry.2 else get? entries key := by
  rw [get?, List.find?_cons]
  by_cases h : entry.1 = key
  · rw [if_pos h, decide_eq_true h]
    rfl
  · rw [if_neg h, decide_eq_false h]
    rfl

theorem get?_set (entries : List (κ × β)) (key other : κ) (value : β) :
    get? (set entries key value) other =
      if key = other then some value else get? entries other := by
  have hput : ∀ entries : List (κ × β), get? (entries.map fun entry =>
      if entry.1 = key then (key, value) else entry) other =
        if key = other ∧ entries.any (·.1 = key) then some value else get? entries other := by
    intro entries
    induction entries with
    | nil => simp [get?]
    | cons entry entries ih =>
        rw [List.map_cons, get?_cons, get?_cons, ih, List.any_cons]
        grind
  rw [set]
  split
  · next hany =>
      rw [hput]
      simp only [hany, and_true]
  · next hany =>
      induction entries with
      | nil => simp [get?]
      | cons entry entries ih =>
          rw [List.any_cons, Bool.or_eq_true, not_or] at hany
          rw [List.cons_append, get?_cons, get?_cons, ih hany.2]
          have hne : entry.1 ≠ key := fun h => hany.1 (decide_eq_true h)
          grind

end OrderedMap
