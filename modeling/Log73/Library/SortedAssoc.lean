import Mathlib.Data.List.Nodup
import Mathlib.Data.List.Perm.Basic
import Mathlib.Order.Lattice

/-!
Finite maps as lists of entries in key order, for value types that must stay
plain inductive data. The lookup laws need no sortedness: an insertion puts the
new entry in front of every entry it could be confused with.
-/

namespace SortedAssoc

variable {κ : Type*} {ν : Type*} [DecidableEq κ]

/-- The value of the first entry under a key. -/
def get? : List (κ × ν) → κ → Option ν
  | [], _ => none
  | (k', v) :: m, k => if k' = k then some v else get? m k

/-- Insert in key order, replacing the entry already under the key. -/
def insert [LT κ] [DecidableLT κ] : List (κ × ν) → κ → ν → List (κ × ν)
  | [], k, v => [(k, v)]
  | (k', v') :: m, k, v =>
      if k' = k then (k, v) :: m
      else if k < k' then (k, v) :: (k', v') :: m
      else (k', v') :: insert m k v

/-- Drop every entry under a key. -/
def erase (m : List (κ × ν)) (k : κ) : List (κ × ν) :=
  m.filter fun entry => entry.1 ≠ k

/-- Insert a list of entries from left to right, later entries replacing earlier ones. -/
def insertAll [LT κ] [DecidableLT κ] (m entries : List (κ × ν)) : List (κ × ν) :=
  entries.foldl (fun m entry => insert m entry.1 entry.2) m

@[simp] theorem get?_nil (k : κ) : get? ([] : List (κ × ν)) k = none := rfl

theorem get?_cons (k' : κ) (v : ν) (m : List (κ × ν)) (k : κ) :
    get? ((k', v) :: m) k = if k' = k then some v else get? m k := rfl

theorem get?_append (m m' : List (κ × ν)) (k : κ) :
    get? (m ++ m') k = (get? m k).or (get? m' k) := by
  induction m with
  | nil => simp
  | cons entry m ih =>
      rw [List.cons_append, get?_cons, get?_cons, ih]
      split <;> simp

/-- A key is found when some entry is under it. -/
theorem isSome_get? (m : List (κ × ν)) (k : κ) : (get? m k).isSome ↔ k ∈ m.map Prod.fst := by
  induction m with
  | nil => simp
  | cons entry m ih =>
      rw [get?_cons, List.map_cons, List.mem_cons]
      split
      · next h => simp [h]
      · next h => rw [ih]; simp [Ne.symm h]

theorem get?_eq_none (m : List (κ × ν)) (k : κ) : get? m k = none ↔ k ∉ m.map Prod.fst := by
  rw [← isSome_get?, Option.not_isSome_iff_eq_none]

theorem get?_of_mem {m : List (κ × ν)} (hnodup : (m.map Prod.fst).Nodup) {k : κ} {v : ν}
    (h : (k, v) ∈ m) : get? m k = some v := by
  induction m with
  | nil => simp at h
  | cons entry m ih =>
      rw [List.map_cons, List.nodup_cons] at hnodup
      rw [get?_cons]
      rcases List.mem_cons.mp h with rfl | h
      · simp
      · rw [if_neg, ih hnodup.2 h]
        rintro rfl
        exact hnodup.1 (List.mem_map.mpr ⟨_, h, rfl⟩)

theorem mem_of_get? {m : List (κ × ν)} {k : κ} {v : ν} (h : get? m k = some v) : (k, v) ∈ m := by
  induction m with
  | nil => simp at h
  | cons entry m ih =>
      rw [get?_cons] at h
      split at h
      · next heq =>
          obtain rfl := Option.some.inj h
          exact heq ▸ List.mem_cons_self
      · exact List.mem_cons_of_mem _ (ih h)

/-- With distinct keys the order of the entries does not matter. -/
theorem get?_perm {m m' : List (κ × ν)} (hnodup : (m.map Prod.fst).Nodup) (hperm : m.Perm m')
    (k : κ) : get? m k = get? m' k := by
  have hnodup' : (m'.map Prod.fst).Nodup := (hperm.map Prod.fst).nodup_iff.mp hnodup
  cases h : get? m k with
  | none =>
      refine Eq.symm ((get?_eq_none m' k).mpr fun hmem => (get?_eq_none m k).mp h ?_)
      exact (hperm.map Prod.fst).mem_iff.mpr hmem
  | some v => exact (get?_of_mem hnodup' (hperm.mem_iff.mp (mem_of_get? h))).symm

/-- A fold that writes one key a step is read through the entries it goes over. -/
theorem foldl_observe {σ V : Type*} {entries : List (κ × ν)}
    (hnodup : (entries.map Prod.fst).Nodup) (step : σ → κ × ν → σ) (observe : σ → κ → Option V)
    (write : κ → ν → V)
    (hstep : ∀ s, ∀ entry ∈ entries, ∀ k, observe (step s entry) k =
      if entry.1 = k then some (write entry.1 entry.2) else observe s k) (s : σ) (k : κ) :
    observe (entries.foldl step s) k = ((get? entries k).map (write k)).or (observe s k) := by
  induction entries generalizing s with
  | nil => rfl
  | cons entry entries ih =>
      obtain ⟨hfresh, hrest⟩ := List.nodup_cons.mp hnodup
      rw [List.foldl_cons,
        ih hrest (fun s entry hmem => hstep s entry (List.mem_cons_of_mem _ hmem)),
        hstep s entry List.mem_cons_self, get?_cons]
      split
      · next heq =>
          subst heq
          rw [(get?_eq_none _ _).mpr hfresh]
          rfl
      · rfl

/-- Write an entry where no order is kept. -/
def put (m : List (κ × ν)) (k : κ) (v : ν) : List (κ × ν) := (k, v) :: erase m k

theorem get?_erase (m : List (κ × ν)) (k k' : κ) :
    get? (erase m k) k' = if k = k' then none else get? m k' := by
  induction m with
  | nil => simp [erase]
  | cons entry m ih =>
      obtain ⟨a, v⟩ := entry
      by_cases ha : a = k
      · subst ha
        simp only [erase, List.filter_cons, ne_eq, not_true, decide_false] at ih ⊢
        by_cases hk : a = k'
        · simpa [hk] using ih
        · simpa [get?_cons, hk] using ih
      · simp only [erase, List.filter_cons, ne_eq, ha, not_false_iff, decide_true, if_true,
          get?_cons] at ih ⊢
        by_cases hk : a = k'
        · subst hk
          simp [Ne.symm ha]
        · simpa [hk] using ih

/-- An entry found under a key is the one that goes with it. -/
theorem cons_erase_perm {m : List (κ × ν)} (hnodup : (m.map Prod.fst).Nodup) {k : κ} {v : ν}
    (h : get? m k = some v) : ((k, v) :: erase m k).Perm m := by
  induction m with
  | nil => cases h
  | cons entry m ih =>
      obtain ⟨a, w⟩ := entry
      obtain ⟨hfresh, hrest⟩ := List.nodup_cons.mp hnodup
      rw [get?_cons] at h
      split at h
      · next heq =>
          subst heq
          obtain rfl := Option.some.inj h
          have hkeep : erase m a = m := List.filter_eq_self.mpr fun entry hmem => by
            have hkey : entry.1 ∈ m.map Prod.fst := List.mem_map_of_mem hmem
            exact decide_eq_true fun heq => hfresh (heq ▸ hkey)
          have herase : erase ((a, w) :: m) a = erase m a := List.filter_cons_of_neg (by simp)
          rw [herase, hkeep]
      · next hne =>
          have herase : erase ((a, w) :: m) k = (a, w) :: erase m k :=
            List.filter_cons_of_pos (by simpa using hne)
          rw [herase]
          exact (List.Perm.swap _ _ _).trans ((ih hrest h).cons _)

theorem nodup_erase {m : List (κ × ν)} (hnodup : (m.map Prod.fst).Nodup) (k : κ) :
    ((erase m k).map Prod.fst).Nodup :=
  hnodup.sublist ((List.filter_sublist).map Prod.fst)

/-- Changing the values under their keys changes what is found. -/
theorem get?_mapValues {ω : Type*} (m : List (κ × ν)) (f : ν → ω) (k : κ) :
    get? (m.map fun entry => (entry.1, f entry.2)) k = (get? m k).map f := by
  induction m with
  | nil => rfl
  | cons entry m ih =>
      rw [List.map_cons, get?_cons, get?_cons, ih]
      split
      · rfl
      · rfl

theorem get?_put (m : List (κ × ν)) (k : κ) (v : ν) (k' : κ) :
    get? (put m k v) k' = if k = k' then some v else get? m k' := by
  rw [put, get?_cons, get?_erase]
  split
  · rfl
  · rfl

section Ordered

variable [LT κ] [DecidableLT κ]

theorem get?_insert (m : List (κ × ν)) (k : κ) (v : ν) (k' : κ) :
    get? (insert m k v) k' = if k = k' then some v else get? m k' := by
  induction m with
  | nil => simp [insert, get?_cons]
  | cons entry m ih =>
      obtain ⟨a, w⟩ := entry
      simp only [insert]
      split
      · next h => subst h; simp only [get?_cons]; split <;> simp_all
      · split
        · simp [get?_cons]
        · next h _ =>
            simp only [get?_cons, ih]
            by_cases hk : a = k'
            · subst hk
              simp [Ne.symm h]
            · simp [hk]

@[simp] theorem get?_insert_self (m : List (κ × ν)) (k : κ) (v : ν) :
    get? (insert m k v) k = some v := by
  simp [get?_insert]

theorem get?_insert_of_ne (m : List (κ × ν)) {k k' : κ} (v : ν) (h : k ≠ k') :
    get? (insert m k v) k' = get? m k' := by
  simp [get?_insert, h]

theorem get?_insertAll_of_not_mem (m entries : List (κ × ν)) (k : κ)
    (h : k ∉ entries.map Prod.fst) : get? (insertAll m entries) k = get? m k := by
  induction entries generalizing m with
  | nil => rfl
  | cons entry entries ih =>
      simp only [List.map_cons, List.mem_cons, not_or] at h
      rw [insertAll, List.foldl_cons, ← insertAll, ih _ h.2, get?_insert_of_ne _ _ (Ne.symm h.1)]

theorem keys_insert (m : List (κ × ν)) (k : κ) (v : ν) (k' : κ) :
    k' ∈ (insert m k v).map Prod.fst ↔ k' = k ∨ k' ∈ m.map Prod.fst := by
  rw [← isSome_get?, ← isSome_get?, get?_insert]
  split
  · next h => simp [h]
  · next h => simp [Ne.symm h]

theorem mem_of_mem_insert {m : List (κ × ν)} {k : κ} {v : ν} {entry : κ × ν}
    (h : entry ∈ insert m k v) : entry = (k, v) ∨ entry ∈ m := by
  induction m with
  | nil => exact Or.inl (List.mem_singleton.mp h)
  | cons first m ih =>
      rw [insert] at h
      split_ifs at h
      · exact (List.mem_cons.mp h).imp_right (List.mem_cons_of_mem _)
      · exact List.mem_cons.mp h
      · rcases List.mem_cons.mp h with h | h
        · exact Or.inr (h ▸ List.mem_cons_self)
        · exact (ih h).imp_right (List.mem_cons_of_mem _)

theorem keys_insertAll (m entries : List (κ × ν)) (k : κ) :
    k ∈ (insertAll m entries).map Prod.fst ↔ k ∈ m.map Prod.fst ∨ k ∈ entries.map Prod.fst := by
  induction entries generalizing m with
  | nil => simp [insertAll]
  | cons entry entries ih =>
      rw [insertAll, List.foldl_cons, ← insertAll, ih, keys_insert, List.map_cons, List.mem_cons]
      tauto

/-- A new key adds its entry and nothing else. -/
theorem insert_perm {m : List (κ × ν)} {k : κ} (hk : k ∉ m.map Prod.fst) (v : ν) :
    (insert m k v).Perm ((k, v) :: m) := by
  induction m with
  | nil => exact .refl _
  | cons entry m ih =>
      rw [List.map_cons, List.mem_cons, not_or] at hk
      rw [insert, if_neg (Ne.symm hk.1)]
      split
      · exact .refl _
      · exact ((ih hk.2).cons entry).trans (.swap _ _ _)

/-- The last entry for a key decides. -/
theorem get?_insertAll (m entries : List (κ × ν)) (k : κ) :
    get? (insertAll m entries) k = (get? entries.reverse k).or (get? m k) := by
  induction entries generalizing m with
  | nil => simp [insertAll]
  | cons entry entries ih =>
      rw [insertAll, List.foldl_cons, ← insertAll, ih, get?_insert, List.reverse_cons, get?_append,
        Option.or_assoc]
      congr 1
      rw [get?_cons]
      split <;> simp

end Ordered

/-- A lookup in the entries a key predicate keeps. -/
theorem get?_filter (m : List (κ × ν)) (p : κ → Bool) (k : κ) :
    get? (m.filter fun entry => p entry.1) k = if p k then get? m k else none := by
  induction m with
  | nil => simp
  | cons entry m ih =>
      obtain ⟨a, v⟩ := entry
      rw [List.filter_cons]
      by_cases hk : a = k
      · subst hk
        by_cases hp : p a <;> simp [hp, get?_cons, ih]
      · by_cases hp : p a <;> simp [hp, get?_cons, hk, ih]

section Sorted

variable [LinearOrder κ]

/-- Entries in strictly ascending key order. -/
def Sorted (m : List (κ × ν)) : Prop := m.Pairwise fun a b => a.1 < b.1

variable {m m' : List (κ × ν)}

omit [DecidableEq κ] in
theorem Sorted.nodup (h : Sorted m) : (m.map Prod.fst).Nodup :=
  List.pairwise_map.mpr (h.imp fun hlt => hlt.ne)

omit [DecidableEq κ] in
theorem Sorted.mapValues {ω : Type*} (h : Sorted m) (f : ν → ω) :
    Sorted (m.map fun entry => (entry.1, f entry.2)) :=
  List.pairwise_map.mpr h

omit [DecidableEq κ] in
theorem Sorted.filter (h : Sorted m) (p : κ × ν → Bool) : Sorted (m.filter p) :=
  List.Pairwise.filter p h

theorem Sorted.insert (h : Sorted m) (k : κ) (v : ν) : Sorted (insert m k v) := by
  induction m with
  | nil => exact List.pairwise_singleton _ _
  | cons entry m ih =>
      obtain ⟨hhead, hrest⟩ := List.pairwise_cons.mp h
      rw [SortedAssoc.insert]
      split
      · next heq => exact List.pairwise_cons.mpr ⟨fun b hb => heq ▸ hhead b hb, hrest⟩
      · next hne =>
          split
          · next hlt =>
              refine List.pairwise_cons.mpr ⟨fun b hb => ?_, h⟩
              cases List.mem_cons.mp hb with
              | inl heq => exact heq ▸ hlt
              | inr hb => exact hlt.trans (hhead b hb)
          · next hle =>
              refine List.pairwise_cons.mpr ⟨fun b hb => ?_, ih hrest⟩
              have hkey := (keys_insert m k v b.1).mp (List.mem_map_of_mem hb)
              cases hkey with
              | inl heq => exact heq ▸ lt_of_le_of_ne (not_lt.mp hle) hne
              | inr hmem =>
                  obtain ⟨c, hc, heq⟩ := List.mem_map.mp hmem
                  exact heq ▸ hhead c hc

theorem Sorted.insertAll (h : Sorted m) (entries : List (κ × ν)) :
    Sorted (insertAll m entries) := by
  induction entries generalizing m with
  | nil => exact h
  | cons entry entries ih => exact ih (h.insert entry.1 entry.2)

/-- A sorted map is determined by its lookups. -/
theorem Sorted.ext (h : Sorted m) (h' : Sorted m') (hget : ∀ k, get? m k = get? m' k) :
    m = m' := by
  have hmem : ∀ entry, entry ∈ m ↔ entry ∈ m' := by
    intro entry
    constructor
    · exact fun hin => mem_of_get? ((hget entry.1).symm.trans (get?_of_mem h.nodup hin))
    · exact fun hin => mem_of_get? ((hget entry.1).trans (get?_of_mem h'.nodup hin))
  have hperm : m.Perm m' := (List.perm_ext_iff_of_nodup
    (List.Nodup.of_map _ h.nodup) (List.Nodup.of_map _ h'.nodup)).mpr hmem
  exact hperm.eq_of_pairwise (fun a b _ _ hab hba => absurd hab hba.asymm) h h'

/-- Distinct entries inserted one after the other are found as they were given. -/
theorem get?_insertAll_of_nodup {entries : List (κ × ν)} (hnodup : (entries.map Prod.fst).Nodup)
    (k : κ) : get? (SortedAssoc.insertAll m entries) k = (get? entries k).or (get? m k) := by
  rw [get?_insertAll, get?_perm hnodup (List.reverse_perm entries).symm]

end Sorted

end SortedAssoc
