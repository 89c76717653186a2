import Mathlib.Data.List.Count
import Mathlib.Data.List.DropRight
import Mathlib.Data.List.TakeWhile

/-!
Lists trimmed at both ends of the elements of a kind, and when two kinds leave the
same list.
-/

namespace Trimming

variable {α : Type*} {p q keep : α → Bool}

def trimWith (p : α → Bool) (l : List α) : List α :=
  ((l.dropWhile p).reverse.dropWhile p).reverse

/-- At either end, the first element that is not of both kinds is of neither. -/
def EdgesAlike (p q : α → Bool) (l : List α) : Prop :=
  ∀ a, (l.find? (fun b => !(p b && q b)) = some a ∨
    l.reverse.find? (fun b => !(p b && q b)) = some a) → p a = q a

theorem dropWhile_eq {l : List α}
    (h : ∀ a, l.find? (fun b => !(p b && q b)) = some a → p a = q a) :
    l.dropWhile p = l.dropWhile q := by
  induction l with
  | nil => rfl
  | cons b l ih =>
      rw [List.dropWhile_cons, List.dropWhile_cons]
      cases hboth : p b && q b with
      | true =>
          obtain ⟨hp, hq⟩ := Bool.and_eq_true_iff.mp hboth
          rw [if_pos hp, if_pos hq]
          exact ih fun a ha => h a ((List.find?_cons_of_neg (by simp [hboth])).trans ha)
      | false =>
          have hsame := h b (List.find?_cons_of_pos (by simp [hboth]))
          rw [hsame, Bool.and_self] at hboth
          rw [hsame, if_neg (Bool.eq_false_iff.mp hboth), if_neg (Bool.eq_false_iff.mp hboth)]

theorem EdgesAlike.trimWith_eq {l : List α} (h : EdgesAlike p q l) :
    trimWith p l = trimWith q l := by
  rw [trimWith, trimWith, dropWhile_eq fun a ha => h a (.inl ha)]
  refine congrArg List.reverse (dropWhile_eq fun a ha => h a (.inr ?_))
  obtain ⟨front, hfront⟩ := List.dropWhile_suffix (l := l) q
  rw [← hfront, List.reverse_append, List.find?_append, ha]
  rfl

/-- The end of a list trimmed at its start is trimmed on its own. -/
theorem dropWhile_rdropWhile {l : List α} (h : l.dropWhile p = l) :
    (l.rdropWhile p).dropWhile p = l.rdropWhile p := by
  rw [List.dropWhile_eq_self_iff] at h ⊢
  intro hlength
  have hstripped := List.rdropWhile_prefix p l
  rw [hstripped.getElem hlength]
  exact h (hlength.trans_le hstripped.length_le)

theorem dropWhile_trimWith (l : List α) : (trimWith p l).dropWhile p = trimWith p l :=
  dropWhile_rdropWhile (List.dropWhile_idempotent p l)

theorem of_head?_trimWith {l : List α} {a : α} (h : (trimWith p l).head? = some a) :
    p a = false := by
  have hhead := List.head?_dropWhile_not p (trimWith p l)
  rw [dropWhile_trimWith, h] at hhead
  exact hhead

theorem of_getLast?_trimWith {l : List α} {a : α} (h : (trimWith p l).getLast? = some a) :
    p a = false := by
  have hhead := List.head?_dropWhile_not p (l.dropWhile p).reverse
  rw [trimWith, List.getLast?_reverse] at h
  rw [h] at hhead
  exact hhead

theorem trimWith_trimWith (l : List α) : trimWith p (trimWith p l) = trimWith p l := by
  have htrim : trimWith p l = (l.dropWhile p).rdropWhile p := rfl
  show ((trimWith p l).dropWhile p).rdropWhile p = _
  rw [dropWhile_trimWith, htrim, List.rdropWhile_idempotent]

theorem dropWhile_of_forall_not {l : List α} (h : ∀ a ∈ l, p a = false) : l.dropWhile p = l := by
  cases l with
  | nil => rfl
  | cons a l => exact List.dropWhile_cons_of_neg (by simp [h a List.mem_cons_self])

/-- A trim takes what is of its kind off both sides of what is not. -/
theorem trimWith_append {before middle behind : List α} (hbefore : ∀ a ∈ before, p a = true)
    (hmiddle : ∀ a ∈ middle, p a = false) (hbehind : ∀ a ∈ behind, p a = true) :
    trimWith p (before ++ (middle ++ behind)) = middle := by
  rw [trimWith, List.dropWhile_append_of_pos hbefore]
  cases middle with
  | nil => rw [List.nil_append, List.dropWhile_eq_nil_iff.mpr hbehind]; rfl
  | cons a middle =>
      have hreverse : ∀ b ∈ (a :: middle).reverse, p b = false := fun b hb =>
        hmiddle b (List.mem_reverse.mp hb)
      rw [List.cons_append, List.dropWhile_cons_of_neg (by simp [hmiddle a List.mem_cons_self]),
        ← List.cons_append, List.reverse_append, List.dropWhile_append_of_pos fun b hb =>
        hbehind b (List.mem_reverse.mp hb), dropWhile_of_forall_not hreverse, List.reverse_reverse]

section Count

variable [DecidableEq α]

theorem count_dropWhile {l : List α} {a : α} (h : p a = false) :
    (l.dropWhile p).count a = l.count a := by
  induction l with
  | nil => rfl
  | cons b l ih =>
      rw [List.dropWhile_cons]
      split
      · next hb =>
          rw [ih, List.count_cons_of_ne]
          intro heq
          rw [heq, h] at hb
          cases hb
      · rfl

/-- A trim drops no element of another kind. -/
theorem count_trimWith {l : List α} {a : α} (h : p a = false) :
    (trimWith p l).count a = l.count a := by
  rw [trimWith, List.count_reverse, count_dropWhile h, List.count_reverse, count_dropWhile h]

theorem count_dropWhile_le (l : List α) (a : α) : (l.dropWhile p).count a ≤ l.count a :=
  (List.dropWhile_suffix p).sublist.count_le a

/-- An element that is dropped after elements that are all dropped. -/
theorem count_dropWhile_lt {l : List α} {a : α} (hkeep : ∀ b, keep b = false → p b = true)
    (hfound : l.find? keep = some a) (ha : p a = true) :
    (l.dropWhile p).count a < l.count a := by
  induction l with
  | nil => cases hfound
  | cons b l ih =>
      rw [List.dropWhile_cons]
      cases hb : keep b with
      | true =>
          rw [List.find?_cons_of_pos hb] at hfound
          obtain rfl := Option.some.inj hfound
          rw [if_pos ha, List.count_cons_self]
          exact Nat.lt_succ_of_le (count_dropWhile_le l b)
      | false =>
          rw [List.find?_cons_of_neg (Bool.eq_false_iff.mp hb)] at hfound
          rw [if_pos (hkeep b hb)]
          exact Nat.lt_of_lt_of_le (ih hfound) List.count_le_count_cons

theorem count_trimWith_lt {l : List α} {a : α} (hkeep : ∀ b, keep b = false → p b = true)
    (hfound : l.find? keep = some a ∨ l.reverse.find? keep = some a) (ha : p a = true) :
    (trimWith p l).count a < l.count a := by
  rw [trimWith, List.count_reverse]
  cases hfound with
  | inl hfront =>
      refine Nat.lt_of_le_of_lt (count_dropWhile_le _ a) ?_
      rw [List.count_reverse]
      exact count_dropWhile_lt hkeep hfront ha
  | inr hback =>
      have hle : (l.dropWhile p).reverse.count a ≤ l.count a := by
        rw [List.count_reverse]
        exact count_dropWhile_le l a
      obtain ⟨front, hsplit⟩ := List.dropWhile_suffix (l := l) p
      rw [← hsplit, List.reverse_append, List.find?_append] at hback
      cases hrest : (l.dropWhile p).reverse.find? keep with
      | some b =>
          rw [hrest, Option.some_or] at hback
          obtain rfl := Option.some.inj hback
          exact Nat.lt_of_lt_of_le (count_dropWhile_lt hkeep hrest ha) hle
      | none =>
          -- nothing of its kind is left for the trim at the end
          rw [hrest, Option.none_or] at hback
          have hnot : a ∉ (l.dropWhile p).reverse := fun hmem =>
            List.find?_eq_none.mp hrest a hmem (List.find?_some hback)
          refine Nat.lt_of_le_of_lt (count_dropWhile_le _ a) ?_
          rw [List.count_eq_zero_of_not_mem hnot, List.count_pos_iff, ← hsplit]
          exact List.mem_append_left _ (List.mem_reverse.mp (List.mem_of_find?_eq_some hback))

/-- Trims that leave as many of the elements they disagree on drop the same ones. -/
theorem edgesAlike_of_count {l : List α}
    (h : ∀ a, p a ≠ q a → (trimWith p l).count a = (trimWith q l).count a) :
    EdgesAlike p q l := by
  intro a hfound
  by_contra hne
  have hsame := h a hne
  have hdropped : ∀ b, (!(p b && q b)) = false → p b = true ∧ q b = true := by
    intro b hb
    rwa [Bool.not_eq_false', Bool.and_eq_true] at hb
  cases hp : p a with
  | true =>
      have hq : q a = false := by
        rw [hp] at hne
        exact Bool.eq_false_iff.mpr (Ne.symm hne)
      have hlt := count_trimWith_lt (l := l)
        (fun b hb => (hdropped b hb).1) hfound hp
      rw [hsame, count_trimWith hq] at hlt
      exact Nat.lt_irrefl _ hlt
  | false =>
      have hq : q a = true := by
        rw [hp] at hne
        exact Bool.not_eq_false _ |>.mp (Ne.symm hne)
      have hlt := count_trimWith_lt (l := l)
        (fun b hb => (hdropped b hb).2) hfound hq
      rw [← hsame, count_trimWith hp] at hlt
      exact Nat.lt_irrefl _ hlt

end Count

end Trimming
