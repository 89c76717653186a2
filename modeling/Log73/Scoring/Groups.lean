import Log73.Scoring.Credits
import Mathlib.Data.List.Nodup

/-!
Dupe groups: the counts and owners of the dupe keys describe a list of contacts.
The owner of a key is the contact of its group that is not marked a dupe.
-/

namespace Log73

open Std

variable [Platform]

structure Groups (state : IncrementalLogState) (live : List Contact) : Prop where
  identified : ∀ contact ∈ live, (contactId contact).isSome
  distinct : (live.map contactId).Nodup
  count : state.totals.qsoCount = live.length
  counts : Tally.Represents state.dupeCounts fun key =>
    live.countP fun contact => state.module.value.dupeKeyFor contact = some key
  owners : ∀ (key : String) (id : Int), state.dupeOwners[key]? = some id ↔
    ∃ contact ∈ live, contactId contact = some id ∧ isDupeContact contact = false ∧
      state.module.value.dupeKeyFor contact = some key
  dupes : ∀ contact ∈ live, isDupeContact contact = true →
    (state.module.value.dupeKeyFor contact).isSome ∧ scoredI64 contact "pts" = 0 ∧
      scoredI64 contact "mult" = 0 ∧ scoredI64 contact "bonus" = 0

/-- The parts of two states that dupe groups speak about are the same. -/
structure SameGroups (state state' : IncrementalLogState) : Prop where
  module : state'.module = state.module
  count : state'.totals.qsoCount = state.totals.qsoCount
  counts : state'.dupeCounts = state.dupeCounts
  owners : state'.dupeOwners = state.dupeOwners

namespace Groups

variable {state state' : IncrementalLogState} {live live' : List Contact}
  {contact contact' : Contact} {id : Int} {key : String}

theorem perm (h : Groups state live) (hperm : live.Perm live') : Groups state live' where
  identified contact hmem := h.identified contact (hperm.mem_iff.mpr hmem)
  distinct := (hperm.map _).nodup_iff.mp h.distinct
  count := h.count.trans hperm.length_eq
  counts := h.counts.congr fun _ => hperm.countP_eq _
  owners key id := by
    rw [h.owners key id]
    exact exists_congr fun contact => and_congr_left fun _ => hperm.mem_iff
  dupes contact hmem := h.dupes contact (hperm.mem_iff.mpr hmem)

theorem congr (h : Groups state live) (hsame : SameGroups state state') : Groups state' live where
  identified := h.identified
  distinct := h.distinct
  count := hsame.count.trans h.count
  counts := by rw [hsame.module, hsame.counts]; exact h.counts
  owners := by rw [hsame.module, hsame.owners]; exact h.owners
  dupes := by rw [hsame.module]; exact h.dupes

theorem fresh_of_cons (h : Groups state (contact :: live)) (hid : contactId contact = some id) :
    ∀ other ∈ live, contactId other ≠ some id := by
  intro other hmem heq
  have hnot := (List.nodup_cons.mp h.distinct).1
  exact hnot (hid ▸ heq ▸ List.mem_map_of_mem hmem)

/-- Contacts with one id are one contact. -/
theorem eq_of_contactId (h : Groups state live) (hmem : contact ∈ live) (hmem' : contact' ∈ live)
    (hid : contactId contact = contactId contact') : contact = contact' :=
  List.inj_on_of_nodup_map h.distinct hmem hmem' hid

/-- A group has one original at most. -/
theorem original_unique (h : Groups state live) (hmem : contact ∈ live) (hmem' : contact' ∈ live)
    (horiginal : isDupeContact contact = false) (horiginal' : isDupeContact contact' = false)
    (hkey : state.module.value.dupeKeyFor contact = some key)
    (hkey' : state.module.value.dupeKeyFor contact' = some key) : contact = contact' := by
  obtain ⟨i, hi⟩ := Option.isSome_iff_exists.mp (h.identified contact hmem)
  obtain ⟨j, hj⟩ := Option.isSome_iff_exists.mp (h.identified contact' hmem')
  have howner := (h.owners key i).mpr ⟨contact, hmem, hi, horiginal, hkey⟩
  have howner' := (h.owners key j).mpr ⟨contact', hmem', hj, horiginal', hkey'⟩
  have hij : i = j := Option.some.inj (howner.symm.trans howner')
  exact h.eq_of_contactId hmem hmem' (hi.trans (hij ▸ hj.symm))

/-- The count of a key tells whether its group is empty. -/
theorem count_pos_iff (h : Groups state live) (key : String) :
    0 < state.dupeCounts[key]?.getD 0 ↔
      ∃ contact ∈ live, state.module.value.dupeKeyFor contact = some key := by
  rw [h.counts.getD key, List.countP_pos_iff]
  simp

/-- A contact joins: it is a dupe exactly when its group has a contact already. -/
theorem joinDupeGroup_snd (h : Groups state live) (contact : Contact) :
    (state.joinDupeGroup contact).2 = true ↔
      ∃ key, state.module.value.dupeKeyFor contact = some key ∧
        ∃ other ∈ live, state.module.value.dupeKeyFor other = some key := by
  rw [IncrementalLogState.joinDupeGroup]
  cases hkey : state.module.value.dupeKeyFor contact with
  | none => simp
  | some key => simp only [decide_eq_true_eq, h.count_pos_iff, Option.some.injEq,
      exists_eq_left']

/-- Joining, with the flag the join gives and the scores of a dupe cleared. -/
theorem join (h : Groups state live)
    (hreads : state.module.value.rules.scoring.ReadsNoScores)
    (hid : contactId contact = some id) (hfresh : ∀ other ∈ live, contactId other ≠ some id)
    (hsame : Unscored contact' contact)
    (hflag : isDupeContact contact' = (state.joinDupeGroup contact).2)
    (hzero : isDupeContact contact' = true → scoredI64 contact' "pts" = 0 ∧
      scoredI64 contact' "mult" = 0 ∧ scoredI64 contact' "bonus" = 0)
    (hcount : state'.totals.qsoCount = state.totals.qsoCount + 1)
    (hmodule : state'.module = state.module)
    (hcounts : state'.dupeCounts = (state.joinDupeGroup contact).1.dupeCounts)
    (howners : state'.dupeOwners = (state.joinDupeGroup contact).1.dupeOwners) :
    Groups state' (contact' :: live) := by
  have hkey' := ContestScoringModule.dupeKeyFor_congr hreads hsame
  have hjoin := h.joinDupeGroup_snd contact
  constructor
  · intro other hmem
    rcases List.mem_cons.mp hmem with rfl | hmem
    · rw [hsame.contactId_eq, hid]; rfl
    · exact h.identified other hmem
  · rw [List.map_cons, hsame.contactId_eq, hid]
    refine List.nodup_cons.mpr ⟨fun hmem => ?_, h.distinct⟩
    obtain ⟨other, hother, heq⟩ := List.mem_map.mp hmem
    exact hfresh other hother heq
  · rw [hcount, h.count, List.length_cons]
  · rw [hmodule, hcounts]
    simp only [IncrementalLogState.joinDupeGroup]
    cases hkey : state.module.value.dupeKeyFor contact with
    | none =>
        refine h.counts.congr fun key => ?_
        rw [List.countP_cons, hkey', hkey]
        simp
    | some key =>
        refine (h.counts.increment key).congr fun k => ?_
        rw [List.countP_cons, hkey', hkey]
        by_cases hk : k = key
        · simp [hk]
        · simp [hk, Ne.symm hk]
  · intro key i
    rw [hmodule, howners]
    simp only [List.exists_mem_cons_iff, hsame.contactId_eq, hkey', hid, Option.some.injEq]
    cases hkey : state.module.value.dupeKeyFor contact with
    | none =>
        simp only [IncrementalLogState.joinDupeGroup, hkey, h.owners key i, reduceCtorEq, and_false,
          false_or]
    | some k =>
        simp only [IncrementalLogState.joinDupeGroup, hkey, hid] at hflag ⊢
        by_cases hpos : 0 < state.dupeCounts[k]?.getD 0
        · simp only [hpos, decide_true] at hflag ⊢
          simp [hflag, h.owners key i]
        · simp only [hpos, decide_false] at hflag ⊢
          have hnone : k ∉ state.dupeOwners := by
            rw [ExtTreeMap.mem_iff_isSome_getElem?]
            intro hsome
            obtain ⟨j, hj⟩ := Option.isSome_iff_exists.mp hsome
            obtain ⟨other, hmem, -, -, hother⟩ := (h.owners k j).mp hj
            exact hpos ((h.count_pos_iff k).mpr ⟨other, hmem, hother⟩)
          rw [if_neg (by simpa [ExtTreeMap.contains_iff_mem] using hnone),
            ExtTreeMap.getElem?_insert]
          by_cases hk : k = key
          · subst hk
            have hempty : ¬ ∃ other ∈ live, contactId other = some i ∧
                isDupeContact other = false ∧
                state.module.value.dupeKeyFor other = some k := by
              rintro ⟨other, hmem, -, -, hother⟩
              exact hpos ((h.count_pos_iff k).mpr ⟨other, hmem, hother⟩)
            simp [hflag, hempty]
          · simp [hk, h.owners key i]
  · intro other hmem hdupe
    rw [hmodule]
    rcases List.mem_cons.mp hmem with rfl | hmem
    · obtain ⟨key, hkey, -⟩ := hjoin.mp (hflag ▸ hdupe)
      exact ⟨by rw [hkey', hkey]; rfl, hzero hdupe⟩
    · exact h.dupes other hmem hdupe

/-- The owners of the groups once a contact has left. -/
def departedOwners (state : IncrementalLogState) (contact : Contact) : KeyMap Int :=
  match state.module.value.dupeKeyFor contact with
  | none => state.dupeOwners
  | some key =>
      if (contactId contact).isSome && state.dupeOwners[key]? == contactId contact then
        state.dupeOwners.erase key
      else state.dupeOwners

theorem depart (h : Groups state (contact :: live)) (hid : contactId contact = some id)
    (hcount : state'.totals.qsoCount = state.totals.qsoCount - 1)
    (hmodule : state'.module = state.module)
    (hcounts : state'.dupeCounts =
      (state.module.value.dupeKeyFor contact).elim state.dupeCounts
        (decrementCount state.dupeCounts))
    (howners : state'.dupeOwners = departedOwners state contact) : Groups state' live := by
  have hfresh := h.fresh_of_cons hid
  constructor
  · exact fun other hmem => h.identified other (List.mem_cons_of_mem _ hmem)
  · exact (List.nodup_cons.mp h.distinct).2
  · rw [hcount, h.count, List.length_cons, Nat.add_sub_cancel]
  · rw [hmodule, hcounts]
    have hcounts := h.counts
    cases hkey : state.module.value.dupeKeyFor contact with
    | none =>
        refine hcounts.congr fun key => ?_
        rw [List.countP_cons, hkey]
        simp
    | some key =>
        refine (hcounts.decrement key).congr fun k => ?_
        rw [List.countP_cons, hkey]
        by_cases hk : k = key
        · simp [hk]
        · simp [hk, Ne.symm hk]
  · intro key i
    rw [hmodule, howners, departedOwners]
    have howner := h.owners key i
    simp only [List.exists_mem_cons_iff, hid, Option.some.injEq] at howner
    -- a contact left in the group is never the one that departs
    have hrest : (∃ other ∈ live, contactId other = some i ∧ isDupeContact other = false ∧
        state.module.value.dupeKeyFor other = some key) → i ≠ id := by
      rintro ⟨other, hmem, hi, -⟩ rfl
      exact hfresh other hmem hi
    cases hkey : state.module.value.dupeKeyFor contact with
    | none =>
        simp only [hkey, reduceCtorEq, and_false, false_or] at howner
        exact howner
    | some k =>
        simp only [hid, Option.isSome_some, Bool.true_and, beq_iff_eq]
        split
        · next hown =>
            rw [ExtTreeMap.getElem?_erase]
            by_cases hk : k = key
            · subst hk
              simp only [ReflOrd.compare_self, if_true, reduceCtorEq, false_iff]
              intro hex
              have hi := howner.mpr (.inr hex)
              exact hrest hex (Option.some.inj (hi.symm.trans hown))
            · simp only [LawfulEqOrd.compare_eq_iff_eq, hk, if_false]
              rw [howner, hkey]
              simp [hk]
        · next hown =>
            rw [howner, hkey]
            constructor
            · rintro (⟨rfl, horiginal, hk⟩ | hex)
              · refine absurd ?_ hown
                obtain rfl : k = key := Option.some.inj hk
                exact howner.mpr (.inl ⟨rfl, horiginal, hkey⟩)
              · exact hex
            · exact .inr
  · intro other hmem hdupe
    rw [hmodule]
    exact h.dupes other (List.mem_cons_of_mem _ hmem) hdupe

/-- A dupe whose group has no owner becomes its original. -/
theorem promote (h : Groups state (contact :: live))
    (hreads : state.module.value.rules.scoring.ReadsNoScores)
    (hid : contactId contact = some id)
    (hkey : state.module.value.dupeKeyFor contact = some key) (hfree : key ∉ state.dupeOwners)
    (hsame : Unscored contact' contact) (horiginal : isDupeContact contact' = false)
    (hcount : state'.totals.qsoCount = state.totals.qsoCount)
    (hmodule : state'.module = state.module) (hcounts : state'.dupeCounts = state.dupeCounts)
    (howners : state'.dupeOwners = state.dupeOwners.insert key id) :
    Groups state' (contact' :: live) := by
  have hkey' := ContestScoringModule.dupeKeyFor_congr hreads hsame
  have hnone : ∀ i, ¬ ∃ other ∈ contact :: live, contactId other = some i ∧
      isDupeContact other = false ∧ state.module.value.dupeKeyFor other = some key := by
    intro i hex
    have howner := (h.owners key i).mpr hex
    rw [ExtTreeMap.mem_iff_isSome_getElem?, howner] at hfree
    exact hfree rfl
  constructor
  · intro other hmem
    rcases List.mem_cons.mp hmem with rfl | hmem
    · rw [hsame.contactId_eq, hid]; rfl
    · exact h.identified other (List.mem_cons_of_mem _ hmem)
  · rw [List.map_cons, hsame.contactId_eq]
    exact h.distinct
  · rw [hcount, h.count, List.length_cons, List.length_cons]
  · rw [hmodule, hcounts]
    refine h.counts.congr fun k => ?_
    rw [List.countP_cons, List.countP_cons, hkey']
  · intro k i
    rw [hmodule, howners, ExtTreeMap.getElem?_insert]
    by_cases hk : key = k
    · subst hk
      have hlive : ¬ ∃ other ∈ live, contactId other = some i ∧ isDupeContact other = false ∧
          state.module.value.dupeKeyFor other = some key := by
        rintro ⟨other, hmem, hrest⟩
        exact hnone i ⟨other, List.mem_cons_of_mem _ hmem, hrest⟩
      simp [hsame.contactId_eq, hid, hkey', hkey, horiginal, hlive]
    · have hold := h.owners k i
      simp only [List.exists_mem_cons_iff, hkey, Option.some.injEq, hk, and_false,
        false_or] at hold
      simp [hk, hkey', hkey, hold]
  · intro other hmem hdupe
    rw [hmodule]
    rcases List.mem_cons.mp hmem with rfl | hmem
    · rw [horiginal] at hdupe
      cases hdupe
    · exact h.dupes other (List.mem_cons_of_mem _ hmem) hdupe

end Groups

end Log73
