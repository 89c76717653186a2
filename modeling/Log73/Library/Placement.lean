import Mathlib.Data.List.Nodup
import Mathlib.Data.List.Perm.Basic

/-!
Edits of an ordered list of distinct items: an item is removed, placed next to another one, or
kept where it is, behind all others when it is new. What a run of edits of distinct items does to
the list: which items it leaves, in what order those stand that are not moved, and on which side
of its neighbour an item that was placed is found at the end.
-/

namespace Placement

variable {α : Type*}

inductive Anchor (α : Type*) where
  | before (target : α)
  | after (target : α)

inductive Edit (α : Type*) where
  | remove (item : α)
  | place (item : α) (anchor : Anchor α)
  | keep (item : α)

namespace Anchor

def target : Anchor α → α
  | before target | after target => target

/-- An item stands on its side of the other one. -/
def Holds (xs : List α) (item : α) : Anchor α → Prop
  | before target => [item, target].Sublist xs
  | after target => [target, item].Sublist xs

end Anchor

namespace Edit

def item : Edit α → α
  | remove a | place a _ | keep a => a

/-- The item is left where it is. -/
def Keeps : Edit α → Prop
  | keep _ => True
  | _ => False

def Removes : Edit α → Prop
  | remove _ => True
  | _ => False

end Edit

variable [DecidableEq α]

def place (xs : List α) (a : α) : Anchor α → Option (List α)
  | .before target => if target ∈ xs then some (xs.insertIdx (xs.idxOf target) a) else none
  | .after target => if target ∈ xs then some (xs.insertIdx (xs.idxOf target + 1) a) else none

def step (xs : List α) : Edit α → Option (List α)
  | .remove a => if a ∈ xs then some (xs.erase a) else none
  | .place a anchor => place (xs.erase a) a anchor
  | .keep a => some (if a ∈ xs then xs else xs ++ [a])

def run (xs : List α) : List (Edit α) → Option (List α)
  | [] => some xs
  | edit :: edits => (step xs edit).bind fun xs => run xs edits

omit [DecidableEq α] in
theorem insertIdx_length (front back : List α) (a : α) :
    (front ++ back).insertIdx front.length a = front ++ a :: back := by
  induction front with
  | nil => exact List.insertIdx_zero
  | cons b front ih =>
      rw [List.cons_append, List.length_cons, List.insertIdx_succ_cons, ih]
      rfl

/-- What is placed next to an item is inserted at one place of the list, on its side of it. -/
theorem place_spec {xs ys : List α} {a : α} {anchor : Anchor α} (h : place xs a anchor = some ys) :
    ∃ front back, xs = front ++ back ∧ ys = front ++ a :: back ∧
      match anchor with
      | .before target => target ∈ back
      | .after target => target ∈ front := by
  cases anchor with
  | before target =>
      rw [place] at h
      split at h
      · next hmem =>
          cases h
          obtain ⟨front, back, rfl, hfront⟩ := List.eq_append_cons_of_mem hmem
          refine ⟨front, target :: back, rfl, ?_, List.mem_cons_self⟩
          rw [List.idxOf_append_of_notMem hfront, List.idxOf_cons_self, Nat.add_zero,
            insertIdx_length]
      · cases h
  | after target =>
      rw [place] at h
      split at h
      · next hmem =>
          cases h
          obtain ⟨front, back, rfl, hfront⟩ := List.eq_append_cons_of_mem hmem
          have hcut : front ++ target :: back = front ++ [target] ++ back := by
            rw [List.append_assoc]
            rfl
          have hindex : (front ++ target :: back).idxOf target + 1 =
              (front ++ [target]).length := by
            rw [List.idxOf_append_of_notMem hfront, List.idxOf_cons_self, List.length_append]
            rfl
          exact ⟨front ++ [target], back, hcut, by rw [hindex, hcut, insertIdx_length], by simp⟩
      · cases h

theorem isSome_place {xs : List α} {a : α} {anchor : Anchor α} :
    (place xs a anchor).isSome = true ↔ anchor.target ∈ xs := by
  cases anchor with
  | before target | after target =>
      rw [place]
      split <;> simp_all [Anchor.target]

section Step

variable {xs ys : List α} {edit : Edit α}

theorem nodup_step (hxs : xs.Nodup) (h : step xs edit = some ys) : ys.Nodup := by
  cases edit with
  | remove a =>
      rw [step] at h
      split at h
      · cases h
        exact hxs.erase a
      · cases h
  | place a anchor =>
      obtain ⟨front, back, hcut, rfl, -⟩ := place_spec h
      have hnodup := hxs.erase a
      rw [hcut] at hnodup
      rw [List.nodup_middle, List.nodup_cons]
      exact ⟨hcut ▸ hxs.not_mem_erase, hnodup⟩
  | keep a =>
      rw [step] at h
      cases h
      split
      · exact hxs
      · next hnew =>
          rw [List.nodup_append]
          refine ⟨hxs, List.nodup_singleton a, fun b hb c hc => ?_⟩
          rw [List.mem_singleton.mp hc]
          rintro rfl
          exact hnew hb

theorem mem_step (hxs : xs.Nodup) (h : step xs edit = some ys) (b : α) :
    b ∈ ys ↔ (b ∈ xs ∨ b = edit.item) ∧ (edit.Removes → b ≠ edit.item) := by
  cases edit with
  | remove a =>
      rw [step] at h
      split at h
      · next hmem =>
          cases h
          rw [hxs.mem_erase_iff]
          simp only [Edit.Removes, Edit.item, forall_const, ne_eq]
          constructor
          · rintro ⟨hne, hb⟩
            exact ⟨Or.inl hb, hne⟩
          · rintro ⟨hb | hb, hne⟩
            · exact ⟨hne, hb⟩
            · exact absurd hb hne
      · cases h
  | place a anchor =>
      obtain ⟨front, back, hcut, rfl, -⟩ := place_spec h
      have hmem : b ∈ front ++ a :: back ↔ b = a ∨ b ∈ xs.erase a := by
        rw [hcut, List.mem_append, List.mem_append, List.mem_cons]
        tauto
      rw [hmem, hxs.mem_erase_iff]
      simp only [Edit.Removes, Edit.item, false_imp_iff, and_true]
      tauto
  | keep a =>
      rw [step] at h
      cases h
      simp only [Edit.Removes, Edit.item, false_imp_iff, and_true]
      split
      · next hmem =>
          constructor
          · exact Or.inl
          · rintro (hb | rfl)
            · exact hb
            · exact hmem
      · rw [List.mem_append, List.mem_singleton]

/-- The order of items that an edit leaves where they are; a new one stands behind them. -/
theorem filter_step (hxs : xs.Nodup) (h : step xs edit = some ys) (p : α → Bool)
    (hp : p edit.item = true → edit.Keeps) :
    ys.filter p = (xs ++ if edit.item ∈ xs then [] else [edit.item]).filter p := by
  have hnew (a : α) (ha : ¬p a = true) :
      (xs ++ if a ∈ xs then [] else [a]).filter p = xs.filter p := by
    rw [List.filter_append]
    split <;> simp [ha]
  have herase (a : α) (ha : ¬p a = true) : (xs.erase a).filter p = xs.filter p := by
    rw [hxs.erase_eq_filter, List.filter_filter]
    apply List.filter_congr
    intro b _
    by_cases hb : p b = true
    · rw [hb, Bool.true_and, bne_iff_ne]
      rintro rfl
      exact ha hb
    · rw [Bool.eq_false_iff.mpr hb, Bool.false_and]
  cases edit with
  | remove a =>
      rw [step] at h
      split at h
      · cases h
        exact (herase a hp).trans (hnew a hp).symm
      · cases h
  | place a anchor =>
      obtain ⟨front, back, hcut, rfl, -⟩ := place_spec h
      have hback := herase a hp
      rw [hcut] at hback
      refine Eq.trans ?_ (hback.trans (hnew a hp).symm)
      have ha : ¬p a = true := hp
      rw [List.filter_append, List.filter_append, List.filter_cons_of_neg ha]
  | keep a =>
      rw [step] at h
      cases h
      rw [Edit.item]
      split
      · rw [List.append_nil]
      · rfl

end Step

section Run

variable {xs ys : List α} {edits : List (Edit α)}

theorem run_append (xs : List α) (edits more : List (Edit α)) :
    run xs (edits ++ more) = (run xs edits).bind fun xs => run xs more := by
  induction edits generalizing xs with
  | nil => rfl
  | cons edit edits ih =>
      rw [List.cons_append, run, run, Option.bind_assoc]
      exact Option.bind_congr fun xs _ => ih xs

theorem nodup_run (hxs : xs.Nodup) (h : run xs edits = some ys) : ys.Nodup := by
  induction edits generalizing xs with
  | nil =>
      cases h
      exact hxs
  | cons edit edits ih =>
      obtain ⟨zs, hstep, h⟩ := Option.bind_eq_some_iff.mp h
      exact ih (nodup_step hxs hstep) h

/-- The items that edits of distinct items leave: the old and the new ones, except those that
are removed. -/
theorem mem_run (hxs : xs.Nodup) (hedits : (edits.map Edit.item).Nodup)
    (h : run xs edits = some ys) (b : α) :
    b ∈ ys ↔ (b ∈ xs ∨ b ∈ edits.map Edit.item) ∧
      ∀ edit ∈ edits, edit.Removes → b ≠ edit.item := by
  induction edits generalizing xs with
  | nil =>
      cases h
      simp
  | cons edit edits ih =>
      obtain ⟨zs, hstep, h⟩ := Option.bind_eq_some_iff.mp h
      rw [List.map_cons, List.nodup_cons] at hedits
      rw [ih (nodup_step hxs hstep) hedits.2 h, mem_step hxs hstep, List.map_cons, List.mem_cons,
        List.forall_mem_cons]
      constructor
      · rintro ⟨⟨hb, hne⟩ | hb, hrest⟩
        · exact ⟨by tauto, hne, hrest⟩
        · refine ⟨Or.inr (Or.inr hb), fun _ heq => hedits.1 (heq ▸ hb), hrest⟩
      · rintro ⟨hb, hne, hrest⟩
        exact ⟨by tauto, hrest⟩

/-- The items that no edit moves or removes stand in their order, the new ones behind. -/
theorem filter_run (hxs : xs.Nodup) (hedits : (edits.map Edit.item).Nodup)
    (h : run xs edits = some ys) (p : α → Bool)
    (hp : ∀ edit ∈ edits, p edit.item = true → edit.Keeps) :
    ys.filter p = (xs ++ (edits.map Edit.item).filter (· ∉ xs)).filter p := by
  induction edits generalizing xs with
  | nil =>
      cases h
      rw [List.map_nil, List.filter_nil, List.append_nil]
  | cons edit edits ih =>
      obtain ⟨zs, hstep, h⟩ := Option.bind_eq_some_iff.mp h
      rw [List.map_cons, List.nodup_cons] at hedits
      obtain ⟨hfirst, hrest⟩ := List.forall_mem_cons.mp hp
      have hsame : (edits.map Edit.item).filter (· ∉ zs) =
          (edits.map Edit.item).filter (· ∉ xs) := by
        apply List.filter_congr
        intro b hb
        have hne : b ≠ edit.item := fun heq => hedits.1 (heq ▸ hb)
        rw [decide_eq_decide, mem_step hxs hstep]
        tauto
      rw [ih (nodup_step hxs hstep) hedits.2 h hrest, List.filter_append,
        filter_step hxs hstep p hfirst, ← List.filter_append, hsame, List.map_cons,
        List.append_assoc, List.filter_cons]
      split <;> split <;> first | rfl | simp_all

end Run

section Sides

variable {xs ys : List α} {front rest : List (Edit α)} {a : α} {anchor : Anchor α}

/-- Items that no edit moves or removes keep their order. -/
theorem sublist_run (hxs : xs.Nodup) (hrest : (rest.map Edit.item).Nodup)
    (h : run xs rest = some ys) {b c : α} (hsub : [b, c].Sublist xs)
    (hb : ∀ edit ∈ rest, edit.item = b → edit.Keeps)
    (hc : ∀ edit ∈ rest, edit.item = c → edit.Keeps) : [b, c].Sublist ys := by
  have hfilter := filter_run hxs hrest h (fun d => d = b ∨ d = c) fun edit hmem hitem => by
    rcases of_decide_eq_true hitem with heq | heq
    · exact hb edit hmem heq
    · exact hc edit hmem heq
  have hkept := hsub.filter fun d => decide (d = b ∨ d = c)
  rw [List.filter_cons_of_pos (by simp), List.filter_cons_of_pos (by simp),
    List.filter_nil] at hkept
  have hmore := hkept.trans ((List.sublist_append_left xs
    ((rest.map Edit.item).filter (· ∉ xs))).filter _)
  rw [← hfilter] at hmore
  exact hmore.trans List.filter_sublist

/-- An item that is placed stands on its side of the other one also in the end, unless that one
is moved or removed afterwards. -/
theorem placed_run (hxs : xs.Nodup)
    (hedits : ((front ++ .place a anchor :: rest).map Edit.item).Nodup)
    (h : run xs (front ++ .place a anchor :: rest) = some ys)
    (htarget : ∀ edit ∈ rest, edit.item = anchor.target → edit.Keeps) : anchor.Holds ys a := by
  rw [run_append] at h
  obtain ⟨zs, hfront, hplace⟩ := Option.bind_eq_some_iff.mp h
  obtain ⟨ws, hstep, hrun⟩ := Option.bind_eq_some_iff.mp hplace
  have hzs := nodup_run hxs hfront
  have hws := nodup_step hzs hstep
  rw [List.map_append, List.map_cons] at hedits
  have hrest := (List.nodup_append.mp hedits).2.1
  rw [List.nodup_cons] at hrest
  have hitem : ∀ edit ∈ rest, edit.item = a → edit.Keeps := fun edit hmem heq =>
    absurd (List.mem_map.mpr ⟨edit, hmem, heq⟩) hrest.1
  obtain ⟨first, last, -, rfl, hside⟩ := place_spec hstep
  cases anchor with
  | before target =>
      refine sublist_run hws hrest.2 hrun ?_ hitem htarget
      exact (List.singleton_sublist.mpr hside).cons_cons a |>.trans (List.sublist_append_right _ _)
  | after target =>
      refine sublist_run hws hrest.2 hrun ?_ htarget hitem
      exact (List.singleton_sublist.mpr hside).append
        (List.singleton_sublist.mpr List.mem_cons_self)

end Sides

end Placement
