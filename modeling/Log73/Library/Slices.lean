import Mathlib.Data.List.Perm.Basic
import Mathlib.Data.List.Nodup

/-!
One position of a slice: taking it out, writing to it and finding it, up to the
order of the other positions.
-/

namespace Slices

variable {α : Type*} {slice : List α} {index : Nat} {a b : α}

theorem length_of_getElem? (h : slice[index]? = some a) : index < slice.length :=
  (List.getElem?_eq_some_iff.mp h).1

theorem perm_cons_eraseIdx (h : slice[index]? = some a) :
    slice.Perm (a :: slice.eraseIdx index) := by
  obtain ⟨hlt, rfl⟩ := List.getElem?_eq_some_iff.mp h
  exact (List.getElem_cons_eraseIdx_perm hlt).symm

theorem set_perm_cons_eraseIdx (h : slice[index]? = some a) (b : α) :
    (slice.set index b).Perm (b :: slice.eraseIdx index) :=
  List.set_perm_cons_eraseIdx (length_of_getElem? h) b

theorem modify_self (h : slice[index]? = some a) (change : α → α) :
    (slice.modify index change)[index]? = some (change a) := by
  rw [List.getElem?_modify_eq, h]
  rfl

theorem modify_eq_some (h : slice[index]? = some a) {change : α → α} {other : Nat}
    (hfound : (slice.modify index change)[other]? = some b) :
    other = index ∧ b = change a ∨ other ≠ index ∧ slice[other]? = some b := by
  by_cases heq : other = index
  · subst heq
    rw [modify_self h] at hfound
    exact .inl ⟨rfl, (Option.some.inj hfound).symm⟩
  · rw [List.getElem?_modify_ne _ _ (Ne.symm heq)] at hfound
    exact .inr ⟨heq, hfound⟩

theorem concat_of_some (h : slice[index]? = some b) (a : α) : (slice ++ [a])[index]? = some b :=
  (List.getElem?_append_left (length_of_getElem? h)).trans h

theorem concat_eq_some (h : (slice ++ [a])[index]? = some b) :
    slice[index]? = some b ∨ index = slice.length ∧ b = a := by
  rcases Nat.lt_trichotomy index slice.length with hlt | rfl | hgt
  · exact .inl ((List.getElem?_append_left hlt).symm.trans h)
  · rw [List.getElem?_concat_length] at h
    exact .inr ⟨rfl, (Option.some.inj h).symm⟩
  · have hlt := length_of_getElem? h
    rw [List.length_append, List.length_singleton] at hlt
    omega

/-- A kept element stands in front of the rest that is kept. -/
theorem filter_perm_of_pos (p : α → Bool) (h : slice[index]? = some a) (ha : p a = true) :
    (slice.filter p).Perm (a :: (slice.eraseIdx index).filter p) := by
  refine ((perm_cons_eraseIdx h).filter p).trans (List.Perm.of_eq ?_)
  rw [List.filter_cons_of_pos ha]

theorem filter_set_perm_of_pos (p : α → Bool) (h : slice[index]? = some a) (hb : p b = true) :
    ((slice.set index b).filter p).Perm (b :: (slice.eraseIdx index).filter p) := by
  refine ((set_perm_cons_eraseIdx h b).filter p).trans (List.Perm.of_eq ?_)
  rw [List.filter_cons_of_pos hb]

theorem filter_perm_of_neg (p : α → Bool) (h : slice[index]? = some a) (ha : p a = false) :
    (slice.filter p).Perm ((slice.eraseIdx index).filter p) := by
  refine ((perm_cons_eraseIdx h).filter p).trans (List.Perm.of_eq ?_)
  rw [List.filter_cons_of_neg (by simp [ha])]

theorem filter_set_perm_of_neg (p : α → Bool) (h : slice[index]? = some a) (hb : p b = false) :
    ((slice.set index b).filter p).Perm ((slice.eraseIdx index).filter p) := by
  refine ((set_perm_cons_eraseIdx h b).filter p).trans (List.Perm.of_eq ?_)
  rw [List.filter_cons_of_neg (by simp [hb])]

/-- A search that fails found no element. -/
theorem not_mem_of_findIdx?_none {p : α → Bool} (h : slice.findIdx? p = none) :
    ∀ x ∈ slice, p x = false :=
  List.findIdx?_eq_none_iff.mp h

/-- A search that succeeds stands on the first element that it accepts. -/
theorem getElem?_of_findIdx? {p : α → Bool} (h : slice.findIdx? p = some index) :
    ∃ a, slice[index]? = some a ∧ p a = true ∧
      ∀ j < index, ∀ x, slice[j]? = some x → p x = false := by
  obtain ⟨hlt, hp, hbefore⟩ := List.findIdx?_eq_some_iff_getElem.mp h
  refine ⟨slice[index], List.getElem?_eq_getElem hlt, hp, fun j hj x hx => ?_⟩
  obtain ⟨hjlt, rfl⟩ := List.getElem?_eq_some_iff.mp hx
  simpa using hbefore j hj

theorem pairwise_set {R : α → α → Prop} {l : List α} {index : Nat} {old new : α}
    (h : l.Pairwise R) (hget : l[index]? = some old) (hleft : ∀ a ∈ l, R a old → R a new)
    (hright : ∀ a ∈ l, R old a → R new a) : (l.set index new).Pairwise R := by
  induction l generalizing index with
  | nil => exact h
  | cons a l ih =>
      obtain ⟨ha, hl⟩ := List.pairwise_cons.mp h
      cases index with
      | zero =>
          obtain rfl := Option.some.inj hget
          exact List.pairwise_cons.mpr
            ⟨fun b hmem => hright b (List.mem_cons_of_mem a hmem) (ha b hmem), hl⟩
      | succ index =>
          refine List.pairwise_cons.mpr ⟨fun b hmem => ?_, ih hl hget
            (fun b hmem => hleft b (List.mem_cons_of_mem a hmem))
            fun b hmem => hright b (List.mem_cons_of_mem a hmem)⟩
          cases List.mem_or_eq_of_mem_set hmem with
          | inl hold => exact ha b hold
          | inr hnew =>
              rw [hnew]
              exact hleft a List.mem_cons_self (ha old (List.mem_of_getElem? hget))

/-- What stands in a list after one element of it was set. -/
theorem mem_set {l : List α} {index : Nat} {new a : α} (h : a ∈ l.set index new) :
    a = new ∨ ∃ other, other ≠ index ∧ l[other]? = some a := by
  obtain ⟨other, hget⟩ := List.mem_iff_getElem?.mp h
  rw [List.getElem?_set] at hget
  split at hget
  · split at hget
    · exact Or.inl (Option.some.inj hget).symm
    · cases hget
  · next hne => exact Or.inr ⟨other, Ne.symm hne, hget⟩

theorem mem_set_of_ne {l : List α} {index other : Nat} {a : α} (new : α)
    (hget : l[other]? = some a) (hne : other ≠ index) : a ∈ l.set index new := by
  refine List.mem_iff_getElem?.mpr ⟨other, ?_⟩
  rw [List.getElem?_set_ne (Ne.symm hne)]
  exact hget

/-- An element other than the one at a place stands elsewhere. -/
theorem exists_place_ne {l : List α} {index : Nat} {a other : α} (hget : l[index]? = some a)
    (hmem : other ∈ l) (hne : other ≠ a) : ∃ place, place ≠ index ∧ l[place]? = some other := by
  obtain ⟨place, hplace⟩ := List.mem_iff_getElem?.mp hmem
  refine ⟨place, fun hsame => ?_, hplace⟩
  rw [hsame, hget] at hplace
  exact hne (Option.some.inj hplace).symm

theorem mem_set_of_mem {l : List α} {index : Nat} {a other : α} (new : α)
    (hget : l[index]? = some a) (hmem : other ∈ l) (hne : other ≠ a) :
    other ∈ l.set index new := by
  obtain ⟨place, hplace, hother⟩ := exists_place_ne hget hmem hne
  exact mem_set_of_ne new hother hplace

theorem mem_eraseIdx_of_mem {l : List α} {index : Nat} {a other : α} (hget : l[index]? = some a)
    (hmem : other ∈ l) (hne : other ≠ a) : other ∈ l.eraseIdx index := by
  obtain ⟨place, hplace, hother⟩ := exists_place_ne hget hmem hne
  exact List.mem_eraseIdx_iff_getElem?.mpr ⟨place, hplace, hother⟩

end Slices
