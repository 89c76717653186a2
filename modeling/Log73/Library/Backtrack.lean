import Mathlib.Data.List.Infix

/-!
Backtracking patterns. A pattern returns all that it can leave of a text, the preferred
way of matching first, so that the first result is what an engine with backtracking finds.
-/

namespace Backtrack

variable {α : Type*}

abbrev Pattern (α : Type*) := List α → List (List α)

/-- One character of a class. -/
def one (p : α → Bool) : Pattern α
  | [] => []
  | c :: cs => if p c then [cs] else []

/-- A word, each of whose characters is matched by a test of its own. -/
def word (same : α → α → Bool) : List α → Pattern α
  | [], cs => [cs]
  | w :: ws, cs => (one (same w) cs).flatMap (word same ws)

/-- As many characters of a class as possible, and then fewer. -/
def star (p : α → Bool) : Pattern α
  | [] => [[]]
  | c :: cs => if p c then star p cs ++ [c :: cs] else [c :: cs]

/-- A group of at least one character of a class, as few as possible, and what it leaves. -/
def lazyGroup (p : α → Bool) : List α → List (List α × List α)
  | [] => []
  | c :: cs =>
      if p c then ([c], cs) :: (lazyGroup p cs).map fun found => (c :: found.1, found.2) else []

theorem mem_one {p : α → Bool} {cs rest : List α} :
    rest ∈ one p cs ↔ ∃ c, cs = c :: rest ∧ p c = true := by
  cases cs with
  | nil => simp [one]
  | cons d ds =>
      rw [one]
      split
      · next hd =>
          rw [List.mem_singleton]
          constructor
          · intro h
            exact ⟨d, by rw [h], hd⟩
          · intro h
            obtain ⟨c, hcs, -⟩ := h
            exact (List.cons_eq_cons.mp hcs).2.symm
      · next hd =>
          refine iff_of_false List.not_mem_nil fun h => ?_
          obtain ⟨c, hcs, hc⟩ := h
          exact hd ((List.cons_eq_cons.mp hcs).1 ▸ hc)

theorem mem_word {same : α → α → Bool} {w cs rest : List α} :
    rest ∈ word same w cs ↔
      ∃ front, cs = front ++ rest ∧ List.Forall₂ (fun d c => same d c = true) w front := by
  induction w generalizing cs with
  | nil =>
      rw [word, List.mem_singleton]
      constructor
      · intro h
        exact ⟨[], h.symm, .nil⟩
      · intro h
        obtain ⟨front, hcs, hfront⟩ := h
        cases hfront
        exact hcs.symm
  | cons d w ih =>
      rw [word, List.mem_flatMap]
      constructor
      · intro h
        obtain ⟨mid, hmid, hrest⟩ := h
        obtain ⟨c, rfl, hc⟩ := mem_one.mp hmid
        obtain ⟨front, rfl, hfront⟩ := ih.mp hrest
        exact ⟨c :: front, rfl, .cons hc hfront⟩
      · intro h
        obtain ⟨front, rfl, hfront⟩ := h
        cases hfront with
        | cons hc hfront => exact ⟨_, mem_one.mpr ⟨_, rfl, hc⟩, ih.mpr ⟨_, rfl, hfront⟩⟩

theorem mem_star {p : α → Bool} {cs rest : List α} :
    rest ∈ star p cs ↔ ∃ front, cs = front ++ rest ∧ ∀ c ∈ front, p c = true := by
  induction cs with
  | nil =>
      rw [star, List.mem_singleton]
      constructor
      · intro h
        exact ⟨[], h.symm, fun _ hc => absurd hc List.not_mem_nil⟩
      · intro h
        obtain ⟨front, hcs, -⟩ := h
        exact (List.append_eq_nil_iff.mp hcs.symm).2
  | cons d cs ih =>
      have hwhole : ∃ front, d :: cs = front ++ d :: cs ∧ ∀ c ∈ front, p c = true :=
        ⟨[], rfl, fun _ hc => absurd hc List.not_mem_nil⟩
      rw [star]
      constructor
      · intro h
        split at h
        · next hd =>
            cases List.mem_append.mp h with
            | inl h =>
                obtain ⟨front, hcs, hfront⟩ := ih.mp h
                refine ⟨d :: front, by rw [hcs]; rfl, fun c hc => ?_⟩
                cases List.mem_cons.mp hc with
                | inl heq => exact heq ▸ hd
                | inr hc => exact hfront c hc
            | inr h => exact List.mem_singleton.mp h ▸ hwhole
        · exact List.mem_singleton.mp h ▸ hwhole
      · intro h
        obtain ⟨front, hcs, hfront⟩ := h
        cases front with
        | nil =>
            rw [List.nil_append] at hcs
            split
            · exact List.mem_append_right _ (List.mem_singleton.mpr hcs.symm)
            · exact List.mem_singleton.mpr hcs.symm
        | cons c front =>
            obtain ⟨rfl, htail⟩ := List.cons_eq_cons.mp hcs
            rw [if_pos (hfront d List.mem_cons_self)]
            exact List.mem_append_left _
              (ih.mpr ⟨front, htail, fun c hc => hfront c (List.mem_cons_of_mem _ hc)⟩)

theorem mem_lazyGroup {p : α → Bool} {cs group rest : List α} :
    (group, rest) ∈ lazyGroup p cs ↔
      cs = group ++ rest ∧ group ≠ [] ∧ ∀ c ∈ group, p c = true := by
  induction cs generalizing group with
  | nil =>
      refine iff_of_false List.not_mem_nil fun h => ?_
      exact h.2.1 (List.append_eq_nil_iff.mp h.1.symm).1
  | cons d cs ih =>
      rw [lazyGroup]
      constructor
      · intro h
        split at h
        · next hd =>
            cases List.mem_cons.mp h with
            | inl heq =>
                cases heq
                exact ⟨rfl, List.cons_ne_nil _ _, fun c hc => List.mem_singleton.mp hc ▸ hd⟩
            | inr h =>
                obtain ⟨⟨more, left⟩, hmore, heq⟩ := List.mem_map.mp h
                cases heq
                obtain ⟨hcs, -, hclass⟩ := ih.mp hmore
                refine ⟨by rw [hcs]; rfl, List.cons_ne_nil _ _, fun c hc => ?_⟩
                cases List.mem_cons.mp hc with
                | inl heq => exact heq ▸ hd
                | inr hc => exact hclass c hc
        · exact absurd h List.not_mem_nil
      · intro h
        obtain ⟨hcs, hne, hclass⟩ := h
        cases group with
        | nil => exact absurd rfl hne
        | cons c group =>
            obtain ⟨rfl, htail⟩ := List.cons_eq_cons.mp hcs
            rw [if_pos (hclass d List.mem_cons_self)]
            cases group with
            | nil =>
                have hcs : cs = rest := htail
                exact hcs ▸ List.mem_cons_self
            | cons e group =>
                refine List.mem_cons_of_mem _ (List.mem_map.mpr ⟨(e :: group, rest), ?_, rfl⟩)
                exact ih.mpr ⟨htail, List.cons_ne_nil _ _,
                  fun c hc => hclass c (List.mem_cons_of_mem _ hc)⟩

end Backtrack
