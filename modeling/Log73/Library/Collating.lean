import Mathlib.Data.List.InsertIdx
import Mathlib.Order.Lattice

/-!
Comparison functions that answer with a sign, slices that are sorted by them, and the binary
search for the place of one item more.
-/

namespace Collating

variable {α β : Type*}

/-- The sign of a total preorder. -/
structure Comparator (cmp : α → α → Int) : Prop where
  swap : ∀ a b, cmp a b ≤ 0 ↔ 0 ≤ cmp b a
  trans : ∀ a b c, cmp a b ≤ 0 → cmp b c ≤ 0 → cmp a c ≤ 0

section Comparators

variable {cmp next : α → α → Int}

theorem Comparator.comap (h : Comparator cmp) (f : β → α) :
    Comparator fun a b => cmp (f a) (f b) where
  swap a b := h.swap (f a) (f b)
  trans a b c := h.trans (f a) (f b) (f c)

theorem comparator_sub : Comparator fun a b : Int => a - b where
  swap _ _ := by omega
  trans _ _ _ hab hbc := by omega

theorem comparator_lt [LinearOrder α] :
    Comparator fun a b : α => if a < b then -1 else if b < a then 1 else 0 where
  swap a b := by
    rcases lt_trichotomy a b with hlt | rfl | hlt
    · rw [if_pos hlt, if_neg hlt.asymm, if_pos hlt]
      decide
    · rw [if_neg (lt_irrefl a), if_neg (lt_irrefl a)]
    · rw [if_neg hlt.asymm, if_pos hlt, if_pos hlt]
      decide
  trans a b c hab hbc := by
    have hle {a b : α} (h : (if a < b then (-1 : Int) else if b < a then 1 else 0) ≤ 0) :
        a ≤ b := by
      split at h
      · next hlt => exact hlt.le
      · split at h
        · omega
        · next hnot => exact not_lt.mp hnot
    have hac := (hle hab).trans (hle hbc)
    rw [if_neg (not_lt.mpr hac)]
    split <;> omega

/-- What the first comparison leaves open is up to the next one. -/
def andThen (cmp next : α → α → Int) (a b : α) : Int :=
  if cmp a b ≠ 0 then cmp a b else next a b

theorem andThen_le_iff {a b : α} : andThen cmp next a b ≤ 0 ↔
    cmp a b < 0 ∨ cmp a b = 0 ∧ next a b ≤ 0 := by
  rw [andThen]
  split <;> omega

theorem Comparator.andThen (h : Comparator cmp) (hnext : Comparator next) :
    Comparator (andThen cmp next) where
  swap a b := by
    have hle := h.swap a b
    have hge := h.swap b a
    have hrest := hnext.swap a b
    rw [Collating.andThen, Collating.andThen]
    split <;> split <;> omega
  trans a b c hab hbc := by
    rw [andThen_le_iff] at hab hbc ⊢
    have hac := h.trans a b c
    have hcab := h.trans c a b
    have hbca := h.trans b c a
    have hrest := hnext.trans a b c
    have hswap₁ := h.swap a c
    have hswap₂ := h.swap c a
    have hswap₃ := h.swap a b
    have hswap₄ := h.swap b a
    have hswap₅ := h.swap b c
    have hswap₆ := h.swap c b
    omega

end Comparators

section Search

/-- The rounds of a binary search between two bounds. -/
def searchLoop (before : α → Bool) (items : List α) : Nat → Nat → Nat → Nat
  | 0, low, _ => low
  | rounds + 1, low, high =>
      if low < high then
        let middle := (low + high) / 2
        if (items[middle]?).all before then searchLoop before items rounds (middle + 1) high
        else searchLoop before items rounds low middle
      else low

variable {before : α → Bool} {items : List α}

/-- Everything in front of the low bound comes before, nothing from the high bound on. -/
structure Bounds (before : α → Bool) (items : List α) (low high : Nat) : Prop where
  le : low ≤ high
  length : high ≤ items.length
  front : ∀ index a, items[index]? = some a → index < low → before a = true
  back : ∀ index a, items[index]? = some a → high ≤ index → before a = false

theorem searchLoop_spec (hsorted : items.Pairwise fun a b => before b = true → before a = true)
    (rounds low high : Nat) (hrounds : high - low ≤ rounds) (h : Bounds before items low high) :
    Bounds before items (searchLoop before items rounds low high)
      (searchLoop before items rounds low high) := by
  have hpair {i j : Nat} {a b : α} (hij : i < j) (ha : items[i]? = some a)
      (hb : items[j]? = some b) (hbefore : before b = true) : before a = true := by
    obtain ⟨hi, rfl⟩ := List.getElem?_eq_some_iff.mp ha
    obtain ⟨hj, rfl⟩ := List.getElem?_eq_some_iff.mp hb
    exact List.pairwise_iff_getElem.mp hsorted i j hi hj hij hbefore
  induction rounds generalizing low high with
  | zero =>
      have heq : low = high := by
        have := h.le
        omega
      rw [searchLoop]
      exact heq ▸ h
  | succ rounds ih =>
      rw [searchLoop]
      split
      · next hlt =>
          have hmiddle : (low + high) / 2 < items.length := by
            have := h.length
            omega
          have hget := List.getElem?_eq_getElem hmiddle
          dsimp only
          rw [hget, Option.all_some]
          split
          · next hbefore =>
              apply ih _ _ (by omega)
              refine ⟨by omega, h.length, fun index a ha hindex => ?_, h.back⟩
              by_cases heq : index = (low + high) / 2
              · rw [heq, hget] at ha
                exact Option.some.inj ha ▸ hbefore
              · exact hpair (by omega) ha hget hbefore
          · next hbefore =>
              apply ih _ _ (by omega)
              refine ⟨by omega, by omega, h.front, fun index a ha hindex => ?_⟩
              rw [Bool.eq_false_iff]
              intro ha'
              by_cases heq : index = (low + high) / 2
              · rw [heq, hget] at ha
                exact hbefore (Option.some.inj ha ▸ ha')
              · exact hbefore (hpair (by omega) hget ha ha')
      · have heq : low = high := by
          have := h.le
          omega
        exact heq ▸ h

def searchIndex (before : α → Bool) (items : List α) : Nat :=
  searchLoop before items items.length 0 items.length

theorem searchIndex_le (before : α → Bool) (items : List α) :
    searchIndex before items ≤ items.length := by
  suffices hloop : ∀ rounds low high, low ≤ high →
      searchLoop before items rounds low high ≤ high from
    hloop items.length 0 items.length (Nat.zero_le _)
  intro rounds
  induction rounds with
  | zero => exact fun _ _ h => h
  | succ rounds ih =>
      intro low high h
      rw [searchLoop]
      split
      · dsimp only
        split
        · exact ih _ _ (by omega)
        · exact Nat.le_trans (ih _ _ (by omega)) (by omega)
      · exact h

theorem searchIndex_spec (hsorted : items.Pairwise fun a b => before b = true → before a = true) :
    Bounds before items (searchIndex before items) (searchIndex before items) := by
  apply searchLoop_spec hsorted _ _ _ (Nat.sub_le _ _)
  refine ⟨Nat.zero_le _, Nat.le_refl _, fun _ _ _ hindex => absurd hindex (Nat.not_lt_zero _),
    fun index a ha hindex => ?_⟩
  exact absurd (List.getElem?_eq_some_iff.mp ha).1 (Nat.not_lt.mpr hindex)

end Search

section Sorted

variable {cmp : α → α → Int} {items : List α}

/-- No item comes after one that follows it. -/
def Sorted (cmp : α → α → Int) (items : List α) : Prop := items.Pairwise fun a b => cmp a b ≤ 0

theorem pairwise_iff_getElem? {R : α → α → Prop} :
    items.Pairwise R ↔ ∀ (i j : Nat) (a b : α), i < j → items[i]? = some a →
      items[j]? = some b → R a b := by
  rw [List.pairwise_iff_getElem]
  constructor
  · intro h i j a b hlt ha hb
    obtain ⟨hi, rfl⟩ := List.getElem?_eq_some_iff.mp ha
    obtain ⟨hj, rfl⟩ := List.getElem?_eq_some_iff.mp hb
    exact h i j hi hj hlt
  · intro h i j hi hj hlt
    exact h i j _ _ hlt (List.getElem?_eq_getElem hi) (List.getElem?_eq_getElem hj)

/-- What is put between the bounds of a search is related to what is on either side. -/
theorem Bounds.pairwise_insertIdx {R : α → α → Prop} {before : α → Bool} {index : Nat} {item : α}
    (hbounds : Bounds before items index index) (h : items.Pairwise R)
    (hfront : ∀ a, before a = true → R a item) (hback : ∀ a, before a = false → R item a) :
    (items.insertIdx index item).Pairwise R := by
  have hpair := pairwise_iff_getElem?.mp h
  apply pairwise_iff_getElem?.mpr
  intro i j a b hlt ha hb
  rw [List.getElem?_insertIdx] at ha hb
  split at ha
  · next hi =>
      split at hb
      · exact hpair i j a b hlt ha hb
      · split at hb
        · split at hb
          · cases hb
            exact hfront a (hbounds.front i a ha hi)
          · cases hb
        · exact hpair i (j - 1) a b (by omega) ha hb
  · rw [if_neg (by omega), if_neg (by omega)] at hb
    split at ha
    · split at ha
      · cases ha
        exact hback b (hbounds.back (j - 1) b hb (by omega))
      · cases ha
    · exact hpair (i - 1) (j - 1) a b (by omega) ha hb

/-- An item is put where the search finds its place. -/
theorem Sorted.insertIdx (hcmp : Comparator cmp) (h : Sorted cmp items) (item : α) :
    Sorted cmp (items.insertIdx (searchIndex (fun other => cmp other item ≤ 0) items) item) := by
  have hbefore : items.Pairwise fun a b =>
      decide (cmp b item ≤ 0) = true → decide (cmp a item ≤ 0) = true := by
    refine h.imp fun {a b} hab hb => ?_
    exact decide_eq_true (hcmp.trans a b item hab (of_decide_eq_true hb))
  apply (searchIndex_spec hbefore).pairwise_insertIdx h
  · exact fun a ha => of_decide_eq_true ha
  · intro a ha
    have hafter := of_decide_eq_false ha
    have hswap := hcmp.swap item a
    omega

/-- What is in front of the place found is what comes before. -/
theorem take_searchIndex {before : α → Bool}
    (hbefore : items.Pairwise fun a b => before b = true → before a = true) :
    items.take (searchIndex before items) = items.filter before := by
  have hbounds := searchIndex_spec hbefore
  have hfront : (items.take (searchIndex before items)).filter before
      = items.take (searchIndex before items) := by
    refine List.filter_eq_self.mpr fun a ha => ?_
    obtain ⟨i, hi⟩ := List.mem_iff_getElem?.mp ha
    rw [List.getElem?_take] at hi
    split at hi
    · next hlt => exact hbounds.front i a hi hlt
    · cases hi
  have hback : (items.drop (searchIndex before items)).filter before = [] := by
    refine List.filter_eq_nil_iff.mpr fun a ha => ?_
    obtain ⟨i, hi⟩ := List.mem_iff_getElem?.mp ha
    rw [List.getElem?_drop] at hi
    rw [hbounds.back _ a hi (Nat.le_add_right _ _)]
    exact Bool.false_ne_true
  conv_rhs => rw [← List.take_append_drop (searchIndex before items) items, List.filter_append,
    hfront, hback, List.append_nil]

theorem Sorted.filter (h : Sorted cmp items) (p : α → Bool) : Sorted cmp (items.filter p) :=
  List.Pairwise.filter p h

end Sorted

end Collating
