import Mathlib.Init

/-!
Runs of a system that takes one step after another, and what holds in every state a run
comes to when each of its steps is taken where it is allowed.
-/

namespace Runs

universe u v

variable {σ : Type u} {α : Type v}

def run (step : σ → α → σ) (state : σ) (actions : List α) : σ := actions.foldl step state

/-- Every step of a run is allowed in the state it is taken in. -/
def Keeps (step : σ → α → σ) (allowed : σ → α → Prop) : σ → List α → Prop
  | _, [] => True
  | state, action :: actions =>
      allowed state action ∧ Keeps step allowed (step state action) actions

theorem run_append (step : σ → α → σ) (state : σ) (actions later : List α) :
    run step state (actions ++ later) = run step (run step state actions) later :=
  List.foldl_append

/-- What the allowed steps preserve holds at the end of a run of them. -/
theorem invariant_run (invariant : σ → Prop) {step : σ → α → σ} {allowed : σ → α → Prop}
    (hstep : ∀ state action, invariant state → allowed state action →
      invariant (step state action))
    {state : σ} (h : invariant state) {actions : List α}
    (hkeeps : Keeps step allowed state actions) :
    invariant (run step state actions) := by
  induction actions generalizing state with
  | nil => exact h
  | cons action actions ih => exact ih (hstep state action h hkeeps.1) hkeeps.2

theorem Keeps.of_prefix {step : σ → α → σ} {allowed : σ → α → Prop} {state : σ}
    {earlier actions : List α} (h : Keeps step allowed state actions)
    (hbefore : earlier <+: actions) :
    Keeps step allowed state earlier := by
  induction earlier generalizing state actions with
  | nil => trivial
  | cons action earlier ih =>
      obtain ⟨rest, rfl⟩ := hbefore
      exact ⟨h.1, ih h.2 (List.prefix_append earlier rest)⟩

/-- Where a step keeps what is good exactly when it is allowed, the runs of allowed steps are
those that are good throughout. -/
theorem keeps_iff_forall_prefix (invariant good : σ → Prop) {step : σ → α → σ}
    {allowed : σ → α → Prop}
    (hstep : ∀ state action, invariant state → invariant (step state action))
    (hgood : ∀ state action, invariant state → good state →
      (good (step state action) ↔ allowed state action))
    {state : σ} (h : invariant state) (hstart : good state) (actions : List α) :
    Keeps step allowed state actions ↔
      ∀ earlier, earlier <+: actions → good (run step state earlier) := by
  induction actions generalizing state with
  | nil =>
      refine ⟨fun _ earlier hearlier => ?_, fun _ => trivial⟩
      rw [List.prefix_nil.mp hearlier]
      exact hstart
  | cons action actions ih =>
      constructor
      · intro hkeeps earlier hearlier
        cases earlier with
        | nil => exact hstart
        | cons first earlier =>
            obtain ⟨rfl, hrest⟩ := List.cons_prefix_cons.mp hearlier
            have hnext := (hgood state first h hstart).mpr hkeeps.1
            exact (ih (hstep state first h) hnext).mp hkeeps.2 earlier hrest
      · intro hall
        have hnext : good (step state action) :=
          hall [action] (List.cons_prefix_cons.mpr ⟨rfl, List.nil_prefix⟩)
        refine ⟨(hgood state action h hstart).mp hnext, ?_⟩
        refine (ih (hstep state action h) hnext).mpr fun earlier hearlier => ?_
        exact hall (action :: earlier) (List.cons_prefix_cons.mpr ⟨rfl, hearlier⟩)

/-- Where every step is allowed, every run is. -/
theorem invariant_run_of_forall (invariant : σ → Prop) {step : σ → α → σ}
    (hstep : ∀ state action, invariant state → invariant (step state action)) {state : σ}
    (h : invariant state) (actions : List α) : invariant (run step state actions) := by
  induction actions generalizing state with
  | nil => exact h
  | cons action actions ih => exact ih (hstep state action h)

end Runs
