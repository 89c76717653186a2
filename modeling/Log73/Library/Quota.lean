import Mathlib.Data.List.Nodup

/-!
Grants under limits: a request names a key and a group, and may bring a limit on the grants of
its group. A ledger of decisions is sound when a request is refused for one of two reasons
only, its key is taken or its group has reached the limit the request brings.
-/

namespace Quota

variable {R K G : Type*} [DecidableEq G] (key : R → K) (group : R → G) (limit : R → Option Nat)

/-- The requests that were granted, from the first on. -/
def granted (decisions : List (R × Bool)) : List R :=
  (decisions.filter Prod.snd).map Prod.fst

def used (decisions : List (R × Bool)) (g : G) : Nat :=
  (granted decisions).countP fun r => group r = g

theorem granted_append (ds ds' : List (R × Bool)) :
    granted (ds ++ ds') = granted ds ++ granted ds' := by
  rw [granted, List.filter_append, List.map_append]
  rfl

theorem granted_concat (ds : List (R × Bool)) (r : R) (b : Bool) :
    granted (ds ++ [(r, b)]) = if b then granted ds ++ [r] else granted ds := by
  rw [granted_append]
  cases b with
  | true => rfl
  | false => exact List.append_nil _

theorem used_concat (ds : List (R × Bool)) (r : R) (b : Bool) (g : G) :
    used group (ds ++ [(r, b)]) g = used group ds g + if b ∧ group r = g then 1 else 0 := by
  rw [used, granted_concat]
  cases b with
  | true => simp [used, List.countP_append, List.countP_singleton]
  | false => simp [used]

/-- The two reasons to refuse a request. -/
def Refuses (decisions : List (R × Bool)) (r : R) : Prop :=
  key r ∈ (granted decisions).map key ∨ ∃ m, limit r = some m ∧ m ≤ used group decisions (group r)

/-- Decisions that were each made on the grants before it. -/
inductive Sound : List (R × Bool) → Prop
  | nil : Sound []
  | concat {decisions : List (R × Bool)} {r : R} {b : Bool} : Sound decisions →
      (b = false ↔ Refuses key group limit decisions r) → Sound (decisions ++ [(r, b)])

variable {key group limit}

namespace Sound

variable {ds : List (R × Bool)}

theorem nodup (h : Sound key group limit ds) : ((granted ds).map key).Nodup := by
  induction h with
  | nil => exact List.nodup_nil
  | @concat ds r b _ hdecision ih =>
      rw [granted_concat]
      cases b with
      | false => exact ih
      | true =>
          have hfresh : key r ∉ (granted ds).map key := fun hmem =>
            Bool.noConfusion (hdecision.mpr (Or.inl hmem))
          rw [if_pos rfl, List.map_append, List.map_singleton, List.nodup_append]
          refine ⟨ih, List.nodup_singleton _, fun k hk k' hk' heq => ?_⟩
          rw [List.mem_singleton.mp hk'] at heq
          exact hfresh (heq ▸ hk)

theorem refused (h : Sound key group limit ds) {front back : List (R × Bool)} {r : R}
    (heq : ds = front ++ (r, false) :: back) : Refuses key group limit front r := by
  induction h generalizing back with
  | nil => exact absurd heq.symm (List.append_ne_nil_of_right_ne_nil _ (List.cons_ne_nil _ _))
  | @concat ds r' b _ hdecision ih =>
      cases List.eq_nil_or_concat back with
      | inl hback =>
          rw [hback] at heq
          obtain ⟨hfront, hlast⟩ := List.append_inj' heq rfl
          cases hlast
          exact hfront ▸ hdecision.mp rfl
      | inr hback =>
          obtain ⟨back', last, hback⟩ := hback
          rw [hback, List.concat_eq_append, ← List.cons_append, ← List.append_assoc] at heq
          exact ih (List.append_inj' heq rfl).1

end Sound

section Caps

variable (group) (caps : G → Nat → Prop)

/-- No grant finds a cap of its group reached; `earlier` is decided already. -/
def Keeps : List (R × Bool) → List (R × Bool) → Prop
  | _, [] => True
  | earlier, (r, b) :: ds =>
      (b = true → ∀ m, caps (group r) m → used group earlier (group r) < m) ∧
        Keeps (earlier ++ [(r, b)]) ds

variable {group caps}

theorem keeps_append {earlier ds ds' : List (R × Bool)} :
    Keeps group caps earlier (ds ++ ds') ↔
      Keeps group caps earlier ds ∧ Keeps group caps (earlier ++ ds) ds' := by
  induction ds generalizing earlier with
  | nil => rw [List.nil_append, List.append_nil]; exact (and_iff_right trivial).symm
  | cons d ds ih =>
      rw [List.cons_append, Keeps, Keeps, ih, and_assoc, List.append_assoc]
      rfl

theorem used_le_append (ds ds' : List (R × Bool)) (g : G) :
    used group ds g ≤ used group (ds ++ ds') g := by
  rw [used, used, granted_append, List.countP_append]
  exact Nat.le_add_right _ _

/-- Caps that hold so far hold to the end when every grant keeps them, and only then. -/
theorem keeps_iff {earlier ds : List (R × Bool)}
    (hearlier : ∀ g m, caps g m → used group earlier g ≤ m) :
    Keeps group caps earlier ds ↔ ∀ g m, caps g m → used group (earlier ++ ds) g ≤ m := by
  induction ds generalizing earlier with
  | nil =>
      rw [List.append_nil]
      exact iff_of_true trivial hearlier
  | cons d ds ih =>
      obtain ⟨r, b⟩ := d
      have hassoc : earlier ++ (r, b) :: ds = (earlier ++ [(r, b)]) ++ ds := by
        rw [List.append_assoc, List.singleton_append]
      rw [Keeps, hassoc]
      constructor
      · rintro ⟨hstep, hrest⟩
        refine (ih fun g m hcap => ?_).mp hrest
        rw [used_concat]
        split
        · next hgrant =>
            obtain ⟨hb, rfl⟩ := hgrant
            exact hstep hb m hcap
        · exact hearlier g m hcap
      · intro hall
        have hnext (g : G) (m : Nat) (hcap : caps g m) :
            used group (earlier ++ [(r, b)]) g ≤ m :=
          Nat.le_trans (used_le_append _ _ g) (hall g m hcap)
        refine ⟨fun hb m hcap => ?_, (ih hnext).mpr hall⟩
        have hle := hnext (group r) m hcap
        rwa [used_concat, if_pos ⟨hb, rfl⟩] at hle

end Caps

end Quota
