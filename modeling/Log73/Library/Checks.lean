import Mathlib.Data.List.Forall2

/-!
Checks that fail with an error: when a sequence of them succeeds.
-/

namespace Checks

variable {ε ε' α β : Type*}

theorem bind_eq_ok {x : Except ε α} {f : α → Except ε β} {b : β} :
    x.bind f = .ok b ↔ ∃ a, x = .ok a ∧ f a = .ok b := by
  cases x with
  | error e => exact iff_of_false (fun h => by cases h) (fun ⟨a, ha, _⟩ => by cases ha)
  | ok a => exact ⟨fun h => ⟨a, rfl, h⟩, fun ⟨a', ha, h⟩ => by cases ha; exact h⟩

/-- A test in front of the rest of the checks. -/
theorem andThen_eq_ok {γ : Type} {x : Except ε Unit} {f : Unit → Except ε γ} {b : γ} :
    (x >>= f) = .ok b ↔ x = .ok () ∧ f () = .ok b := by
  refine bind_eq_ok.trans ⟨?_, ?_⟩
  · intro h
    obtain ⟨⟨⟩, hx, hf⟩ := h
    exact ⟨hx, hf⟩
  · intro h
    exact ⟨(), h⟩

theorem forM_eq_ok {f : α → Except ε Unit} {entries : List α} :
    entries.forM f = .ok () ↔ ∀ entry ∈ entries, f entry = .ok () := by
  induction entries with
  | nil => exact iff_of_true rfl fun _ hmem => by cases hmem
  | cons entry entries ih =>
      rw [List.forall_mem_cons, ← ih]
      exact andThen_eq_ok

theorem mapM_eq_ok {α β ε : Type} {f : α → Except ε β} {entries : List α} {results : List β} :
    entries.mapM f = .ok results ↔
      List.Forall₂ (fun entry result => f entry = .ok result) entries results := by
  induction entries generalizing results with
  | nil =>
      rw [List.mapM_nil, List.forall₂_nil_left_iff]
      exact ⟨fun h => by cases h; rfl, fun h => by rw [h]; rfl⟩
  | cons entry entries ih =>
      rw [List.mapM_cons, List.forall₂_cons_left_iff]
      refine bind_eq_ok.trans ⟨?_, ?_⟩
      · intro h
        obtain ⟨result, hresult, h⟩ := h
        obtain ⟨rest, hrest, h⟩ := bind_eq_ok.mp h
        cases h
        exact ⟨result, rest, hresult, ih.mp hrest, rfl⟩
      · intro h
        obtain ⟨result, rest, hresult, hrest, rfl⟩ := h
        exact ⟨result, hresult, bind_eq_ok.mpr ⟨rest, ih.mpr hrest, rfl⟩⟩

theorem exists_of_mem_left {R : α → β → Prop} {entries : List α} {results : List β}
    (h : List.Forall₂ R entries results) {entry : α} (hmem : entry ∈ entries) :
    ∃ result ∈ results, R entry result := by
  induction h with
  | nil => cases hmem
  | cons hhead _ ih =>
      cases hmem with
      | head => exact ⟨_, List.mem_cons_self, hhead⟩
      | tail _ hmem =>
          obtain ⟨result, hresult, hR⟩ := ih hmem
          exact ⟨result, List.mem_cons_of_mem _ hresult, hR⟩

theorem exists_of_mem_right {R : α → β → Prop} {entries : List α} {results : List β}
    (h : List.Forall₂ R entries results) {result : β} (hmem : result ∈ results) :
    ∃ entry ∈ entries, R entry result :=
  exists_of_mem_left h.flip hmem

theorem map_eq_ok {f : α → β} {x : Except ε α} {b : β} :
    x.map f = .ok b ↔ ∃ a, x = .ok a ∧ f a = b := by
  cases x with
  | error e => exact iff_of_false (fun h => by cases h) (fun ⟨a, ha, _⟩ => by cases ha)
  | ok a =>
      refine ⟨fun h => ⟨a, rfl, Except.ok.inj h⟩, fun ⟨a', ha, h⟩ => ?_⟩
      cases ha
      rw [← h]
      rfl

theorem mapError_eq_ok {f : ε → ε'} {x : Except ε α} {a : α} :
    x.mapError f = .ok a ↔ x = .ok a := by
  cases x with
  | error e => exact iff_of_false (fun h => by cases h) (fun h => by cases h)
  | ok b => exact ⟨fun h => by cases h; rfl, fun h => by cases h; rfl⟩

theorem ite_eq_ok {c : Prop} [Decidable c] {e : ε} {a : α} :
    (if c then (.ok a : Except ε α) else .error e) = .ok a ↔ c := by
  by_cases h : c
  · rw [if_pos h]
    exact iff_of_true rfl h
  · rw [if_neg h]
    exact iff_of_false (fun heq => by cases heq) h

theorem ite_error_eq_ok {c : Prop} [Decidable c] {e : ε} {x : Except ε α} {a : α} :
    (if c then (.error e : Except ε α) else x) = .ok a ↔ ¬ c ∧ x = .ok a := by
  by_cases h : c
  · rw [if_pos h]
    exact iff_of_false (fun heq => by cases heq) (fun hand => hand.1 h)
  · rw [if_neg h]
    exact (and_iff_right h).symm

def failIf (c : Prop) [Decidable c] (e : ε) : Except ε Unit := if c then .error e else .ok ()

theorem failIf_eq_ok {c : Prop} [Decidable c] {e : ε} : failIf c e = .ok () ↔ ¬c := by
  rw [failIf, ite_error_eq_ok, and_iff_left rfl]

/-- `ok_or`. -/
def okOr (value : Option α) (e : ε) : Except ε α := value.elim (.error e) .ok

theorem okOr_eq_ok {value : Option α} {e : ε} {a : α} : okOr value e = .ok a ↔ value = some a := by
  cases value with
  | none => exact iff_of_false (fun h => by cases h) (fun h => by cases h)
  | some b => exact ⟨fun h => by cases h; rfl, fun h => by cases h; rfl⟩

end Checks
