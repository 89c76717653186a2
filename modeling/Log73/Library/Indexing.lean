import Std.Data.ExtTreeMap.Lemmas
import Mathlib.Data.List.InsertIdx
import Mathlib.Data.List.Sort
import Mathlib.Order.Defs.LinearOrder

/-!
Indexes over a slice whose elements may carry a key: the position of each key, and
the keys of the elements of each group.
-/

namespace Indexing

open Std (ExtTreeMap TransOrd LawfulEqOrd ReflCmp)

variable {α κ γ : Type*}

section Positions

variable (key : α → Option κ)

/-- The keyed elements from a position on, with their positions. -/
def positions (slice : List α) (start : Nat) : List (κ × Nat) :=
  (slice.zipIdx.drop start).filterMap fun entry => (key entry.1).map (·, entry.2)

/-- The index holds the position of every key, and nothing else. -/
def IsPositions [Ord κ] [TransOrd κ] (index : ExtTreeMap κ Nat) (slice : List α) : Prop :=
  ∀ (k : κ) (i : Nat), index[k]? = some i ↔ ∃ a, slice[i]? = some a ∧ key a = some k

/-- No two elements share a key. -/
def Distinct (slice : List α) : Prop :=
  ∀ (i j : Nat) (a b : α) (k : κ), slice[i]? = some a → slice[j]? = some b →
    key a = some k → key b = some k → i = j

variable {key} {slice : List α} {start : Nat}

theorem mem_positions {k : κ} {i : Nat} :
    (k, i) ∈ positions key slice start ↔
      start ≤ i ∧ ∃ a, slice[i]? = some a ∧ key a = some k := by
  have hentry : ∀ a j, (a, j) ∈ slice.zipIdx.drop start ↔ start ≤ j ∧ slice[j]? = some a := by
    intro a j
    simp only [List.mem_iff_getElem?, List.getElem?_drop, List.getElem?_zipIdx, Nat.zero_add,
      Option.map_eq_some_iff, Prod.mk.injEq]
    constructor
    · rintro ⟨n, b, hb, rfl, rfl⟩
      exact ⟨Nat.le_add_right start n, hb⟩
    · rintro ⟨hj, ha⟩
      have heq : start + (j - start) = j := by omega
      exact ⟨j - start, a, by rw [heq, ha], rfl, heq⟩
  rw [positions, List.mem_filterMap]
  constructor
  · rintro ⟨⟨a, j⟩, hmem, hkey⟩
    obtain ⟨k', hk', heq⟩ := Option.map_eq_some_iff.mp hkey
    obtain ⟨rfl, rfl⟩ := Prod.mk.inj heq
    obtain ⟨hj, ha⟩ := (hentry a j).mp hmem
    exact ⟨hj, a, ha, hk'⟩
  · rintro ⟨hi, a, ha, hk⟩
    exact ⟨(a, i), (hentry a i).mpr ⟨hi, ha⟩, by rw [hk]; rfl⟩

variable [Ord κ]

theorem positions_pairwise [LawfulEqOrd κ] (hdistinct : Distinct key slice) :
    (positions key slice start).Pairwise fun a b => ¬compare a.1 b.1 = .eq := by
  rw [positions, List.pairwise_filterMap]
  refine List.pairwise_iff_getElem.mpr fun i j hi hj hlt entry hentry entry' hentry' heq => ?_
  simp only [List.getElem_drop, List.getElem_zipIdx, Nat.zero_add, Option.map_eq_some_iff]
    at hentry hentry'
  obtain ⟨k, hk, rfl⟩ := hentry
  obtain ⟨k', hk', rfl⟩ := hentry'
  obtain rfl : k = k' := LawfulEqOrd.eq_of_compare heq
  have := hdistinct (start + i) (start + j) _ _ k (List.getElem?_eq_getElem _)
    (List.getElem?_eq_getElem _) hk hk'
  omega

variable [TransOrd κ]

/-- An index cannot hold two positions of a key. -/
theorem IsPositions.distinct {index : ExtTreeMap κ Nat} (h : IsPositions key index slice) :
    Distinct key slice := by
  intro i j a b k ha hb hak hbk
  exact Option.some.inj (((h k i).mpr ⟨a, ha, hak⟩).symm.trans ((h k j).mpr ⟨b, hb, hbk⟩))

theorem IsPositions.congr {index : ExtTreeMap κ Nat} {slice' : List α}
    (h : IsPositions key index slice) (hkeys : slice'.map key = slice.map key) :
    IsPositions key index slice' := by
  have hget : ∀ (i : Nat) (k : κ), (∃ a, slice'[i]? = some a ∧ key a = some k) ↔
      ∃ a, slice[i]? = some a ∧ key a = some k := by
    intro i k
    have := congrArg (·[i]?) hkeys
    simp only [List.getElem?_map] at this
    cases ha : slice'[i]? <;> cases hb : slice[i]? <;> simp_all
  exact fun k i => (h k i).trans (hget i k).symm

variable [LawfulEqOrd κ]

/-- Positions from one on are rewritten after the slice changed there. -/
theorem IsPositions.refresh [BEq κ] [LawfulBEq κ] {index : ExtTreeMap κ Nat} {old : List α}
    (h : IsPositions key index old) (hdistinct : Distinct key slice)
    (hkeys : ∀ a ∈ old, ∀ k, key a = some k → ∃ b ∈ slice, key b = some k)
    (hbelow : ∀ i < start, slice[i]? = old[i]?) :
    IsPositions key (index.insertMany (positions key slice start)) slice := by
  intro k i
  by_cases hmoved : ∃ j, (k, j) ∈ positions key slice start
  · obtain ⟨j, hj⟩ := hmoved
    rw [ExtTreeMap.getElem?_insertMany_list_of_mem (ReflCmp.compare_self)
      (positions_pairwise hdistinct) hj, Option.some.injEq]
    obtain ⟨hle, b, hb, hbk⟩ := mem_positions.mp hj
    constructor
    · rintro rfl
      exact ⟨b, hb, hbk⟩
    · rintro ⟨a, ha, hak⟩
      exact hdistinct j i b a k hb ha hbk hak
  · have hnot : ((positions key slice start).map Prod.fst).contains k = false := by
      rw [← Bool.not_eq_true, List.contains_iff_mem, List.mem_map]
      rintro ⟨⟨k', j⟩, hj, rfl⟩
      exact hmoved ⟨j, hj⟩
    rw [ExtTreeMap.getElem?_insertMany_list_of_contains_eq_false hnot, h k i]
    constructor
    · rintro ⟨a, ha, hak⟩
      obtain ⟨b, hb, hbk⟩ := hkeys a (List.mem_of_getElem? ha) k hak
      obtain ⟨j, hj⟩ := List.getElem?_of_mem hb
      have hlt : j < start := by
        by_contra hge
        exact hmoved ⟨j, mem_positions.mpr ⟨by omega, b, hj, hbk⟩⟩
      obtain rfl := h.distinct i j a b k ha ((hbelow j hlt).symm.trans hj) hak hbk
      exact ⟨b, hj, hbk⟩
    · rintro ⟨b, hb, hbk⟩
      have hlt : i < start := by
        by_contra hge
        exact hmoved ⟨i, mem_positions.mpr ⟨by omega, b, hb, hbk⟩⟩
      exact ⟨b, (hbelow i hlt).symm.trans hb, hbk⟩

/-- All positions are written to an empty index. -/
theorem IsPositions.rebuild [BEq κ] [LawfulBEq κ] (hdistinct : Distinct key slice) :
    IsPositions key ((∅ : ExtTreeMap κ Nat).insertMany (positions key slice 0)) slice :=
  have hempty : IsPositions key (∅ : ExtTreeMap κ Nat) [] := fun k i => by simp
  hempty.refresh hdistinct (by simp) (by simp)

/-- A lookup by key over a consistent index is a search. -/
theorem IsPositions.bind_eq_find? [BEq κ] [LawfulBEq κ] {index : ExtTreeMap κ Nat}
    (h : IsPositions key index slice) (k : κ) :
    index[k]?.bind (slice[·]?) = slice.find? (key · == some k) := by
  cases hfind : slice.find? (key · == some k) with
  | none =>
      cases hindex : index[k]? with
      | none => rfl
      | some i =>
          obtain ⟨a, ha, hak⟩ := (h k i).mp hindex
          have hno := List.find?_eq_none.mp hfind a (List.mem_of_getElem? ha)
          simp [hak] at hno
  | some a =>
      have hak : key a = some k := by simpa using List.find?_some hfind
      obtain ⟨i, hi⟩ := List.getElem?_of_mem (List.mem_of_find?_eq_some hfind)
      rw [(h k i).mpr ⟨a, hi, hak⟩]
      exact hi

end Positions

section Groups

variable [Ord γ] [TransOrd γ] [DecidableEq γ] (key : α → Option κ)
  (group : α → Option γ)

/-- Append the key of an element to its group. -/
def addToGroup (index : ExtTreeMap γ (List κ)) (a : α) : ExtTreeMap γ (List κ) :=
  match key a, group a with
  | some k, some g => index.insert g (index[g]?.getD [] ++ [k])
  | _, _ => index

/-- The keys of the elements of a group. -/
def members (slice : List α) (g : γ) : List κ :=
  (slice.filter fun a => group a = some g).filterMap key

/-- Each group lists the keys of its elements; no group is empty. -/
def IsGroups (index : ExtTreeMap γ (List κ)) (slice : List α) : Prop :=
  ∀ g, (index[g]?.getD []).Perm (members key group slice g) ∧ index[g]? ≠ some []

variable {key group} {slice slice' : List α} {index : ExtTreeMap γ (List κ)}

theorem IsGroups.empty : IsGroups key group (∅ : ExtTreeMap γ (List κ)) [] :=
  fun g => by simp [members]

theorem IsGroups.perm (h : IsGroups key group index slice) (hperm : slice.Perm slice') :
    IsGroups key group index slice' :=
  fun g => ⟨(h g).1.trans ((hperm.filter _).filterMap key), (h g).2⟩

theorem IsGroups.congr (h : IsGroups key group index slice)
    (hslice : slice'.map (fun a => (key a, group a)) = slice.map fun a => (key a, group a)) :
    IsGroups key group index slice' := by
  have hmembers : ∀ (l : List α) (g : γ), members key group l g =
      ((l.map fun a => (key a, group a)).filter fun e => e.2 = some g).filterMap Prod.fst := by
    intro l g
    rw [members, List.filter_map, List.filterMap_map]
    rfl
  intro g
  rw [hmembers, hslice, ← hmembers]
  exact h g

variable [LawfulEqOrd γ]

theorem IsGroups.addToGroup (h : IsGroups key group index slice) (a : α) :
    IsGroups key group (addToGroup key group index a) (a :: slice) := by
  intro g
  obtain ⟨hperm, hne⟩ := h g
  have hmembers : members key group (a :: slice) g =
      (if group a = some g then (key a).toList else []) ++ members key group slice g := by
    rw [members, List.filter_cons]
    split
    · next hg =>
        rw [decide_eq_true_eq] at hg
        rw [if_pos hg, List.filterMap_cons]
        cases key a <;> rfl
    · next hg =>
        rw [decide_eq_true_eq] at hg
        rw [if_neg hg]
        rfl
  rw [hmembers, Indexing.addToGroup]
  cases hk : key a with
  | none => simpa using ⟨hperm, hne⟩
  | some k =>
      cases hg : group a with
      | none => simpa using ⟨hperm, hne⟩
      | some g' =>
          by_cases heq : g' = g
          · subst heq
            simp only [ExtTreeMap.getElem?_insert_self, Option.getD_some, if_true,
              Option.toList_some]
            exact ⟨(List.perm_append_comm).trans (hperm.cons k), by simp⟩
          · have hget : (index.insert g' (index[g']?.getD [] ++ [k]))[g]? = index[g]? := by
              rw [ExtTreeMap.getElem?_insert, if_neg (fun h => heq (LawfulEqOrd.eq_of_compare h))]
            simp only [hget, Option.some.injEq, heq, if_false, List.nil_append]
            exact ⟨hperm, hne⟩

/-- Building an index group by group. -/
theorem IsGroups.foldl (h : IsGroups key group index slice) (more : List α) :
    IsGroups key group (more.foldl (Indexing.addToGroup key group) index) (slice ++ more) := by
  induction more generalizing index slice with
  | nil => simpa using h
  | cons a more ih =>
      exact (ih (h.addToGroup a)).perm List.perm_middle.symm

end Groups

/-- Tests that agree on a list agree on how far they go. -/
theorem takeWhile_congr {p q : α → Bool} {slice : List α} (h : ∀ a ∈ slice, p a = q a) :
    slice.takeWhile p = slice.takeWhile q := by
  induction slice with
  | nil => rfl
  | cons a slice ih =>
      rw [List.takeWhile_cons, List.takeWhile_cons, h a List.mem_cons_self,
        ih fun b hb => h b (List.mem_cons_of_mem a hb)]

section Descending

variable {ω : Type*} [LinearOrder ω] (rank : α → ω)

/-- Elements in descending rank. -/
def Descending (slice : List α) : Prop := slice.Pairwise fun a b => rank b ≤ rank a

/-- A stable sort by descending rank. -/
def sortDescending (slice : List α) : List α :=
  slice.insertionSort fun a b => rank b ≤ rank a

variable {rank} {slice : List α}

theorem sortDescending_perm (slice : List α) : (sortDescending rank slice).Perm slice :=
  List.perm_insertionSort _ slice

theorem descending_sortDescending (slice : List α) :
    Descending rank (sortDescending rank slice) := by
  have : Std.Total fun a b : α => rank b ≤ rank a := ⟨fun a b => le_total (rank b) (rank a)⟩
  have : IsTrans α fun a b => rank b ≤ rank a := ⟨fun _ _ _ hab hbc => hbc.trans hab⟩
  exact List.pairwise_insertionSort _ slice

/-- What is in descending rank stays as it is. -/
theorem Descending.sort_eq (h : Descending rank slice) : sortDescending rank slice = slice :=
  List.Pairwise.insertionSort_eq h

/-- An element inserted behind those of its rank or a higher one. -/
theorem Descending.insertIdx (h : Descending rank slice) (a : α) :
    Descending rank
      (slice.insertIdx (slice.takeWhile fun b => decide (rank a ≤ rank b)).length a) := by
  induction slice with
  | nil => simp [Descending]
  | cons b slice ih =>
      obtain ⟨hb, hrest⟩ := List.pairwise_cons.mp h
      rw [List.takeWhile_cons]
      by_cases hle : rank a ≤ rank b
      · simp only [hle, decide_true, if_true, List.length_cons, List.insertIdx_succ_cons]
        refine List.pairwise_cons.mpr ⟨fun c hc => ?_, ih hrest⟩
        rcases List.eq_or_mem_of_mem_insertIdx hc with rfl | hc
        · exact hle
        · exact hb c hc
      · simp only [hle, decide_false, Bool.false_eq_true, if_false, List.length_nil,
          List.insertIdx_zero]
        refine List.pairwise_cons.mpr ⟨fun c hc => ?_, h⟩
        rcases List.mem_cons.mp hc with rfl | hc
        · exact (not_le.mp hle).le
        · exact (hb c hc).trans (not_le.mp hle).le

theorem Descending.congr {slice' : List α} (h : Descending rank slice)
    (hranks : slice'.map rank = slice.map rank) : Descending rank slice' := by
  have hmap : ∀ l : List α, Descending rank l ↔ (l.map rank).Pairwise fun a b => b ≤ a :=
    fun l => (List.pairwise_map (R := fun a b => b ≤ a) (f := rank)).symm
  rw [hmap, hranks]
  exact (hmap slice).mp h

/-- A list in descending rank, each rank once, is determined by its elements. -/
theorem Descending.eq_of_perm {slice' : List α} (h : Descending rank slice)
    (h' : Descending rank slice') (hperm : slice.Perm slice')
    (hinj : ∀ a ∈ slice, ∀ b ∈ slice, rank a = rank b → a = b) : slice = slice' :=
  hperm.eq_of_pairwise (fun a b ha hb hba hab =>
    hinj a ha b (hperm.mem_iff.mpr hb) (le_antisymm hab hba)) h h'

end Descending

end Indexing
