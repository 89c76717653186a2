import Log73.Library.Ledger
import Log73.Scoring.Scorer

/-!
The list-folding scorer and the ownership maps of the tracker run in step: the
scorer's key sets are the key sets of the owners, and every count is the same.
-/

namespace Log73

variable [Platform]

/-- The scorer has seen exactly what the tracker has credited. -/
structure Agrees (scorer : ContestScorer) (state : IncrementalLogState) : Prop where
  module : scorer.module = state.module.value
  totals : scorer.totals = state.totals
  rawMultiplierCount : scorer.rawMultiplierCount = state.rawMultiplierCount
  directBonusPoints : scorer.directBonusPoints = state.directBonusPoints
  dupeKeys : scorer.dupeKeys = state.dupeCounts
  multiplierKeys : ∀ key, key ∈ scorer.multiplierKeys ↔ key ∈ state.multiplierOwners
  multiplierCounts : scorer.multiplierCounts = state.multiplierCounts
  bonusKeys : ∀ key, key ∈ scorer.bonusKeys ↔ key ∈ state.bonusOwners
  qsoCountBonusCounts : scorer.qsoCountBonusCounts = state.qsoCountBonusCounts

namespace Agrees

variable {scorer : ContestScorer} {state : IncrementalLogState}

theorem recalculateScore (h : Agrees scorer state) :
    Agrees scorer.recalculateScore state.recalculateScore where
  module := h.module
  totals := by
    simp only [ContestScorer.recalculateScore, IncrementalLogState.recalculateScore, h.module,
      h.totals, h.rawMultiplierCount, h.directBonusPoints, h.qsoCountBonusCounts,
      Ledger.keys_eq_of_mem_iff _ _ h.multiplierKeys]
  rawMultiplierCount := h.rawMultiplierCount
  directBonusPoints := h.directBonusPoints
  dupeKeys := h.dupeKeys
  multiplierKeys := h.multiplierKeys
  multiplierCounts := h.multiplierCounts
  bonusKeys := h.bonusKeys
  qsoCountBonusCounts := h.qsoCountBonusCounts

omit [Platform] in
/-- The multiplier loops credit the same candidates: the induction is on the candidates,
and the two accumulators keep equal key sets, cap counts and numbers of credits. -/
theorem foldMultipliers (id : Int) (candidates : List MultiplierCandidate)
    (scorer : ContestScorer) (owners : KeyMap Int) (counts : KeyMap Nat) (mults : Int64)
    (hkeys : ∀ key, key ∈ scorer.multiplierKeys ↔ key ∈ owners)
    (hcounts : scorer.multiplierCounts = counts) :
    let left := candidates.foldl (fun (acc : ContestScorer × Int64) candidate =>
      if acc.1.multiplierKeys.contains candidate.key
          || candidate.capReached acc.1.multiplierCounts then acc
      else
        ({ acc.1 with
            multiplierKeys := acc.1.multiplierKeys.insert candidate.key ()
            multiplierCounts := bump acc.1.multiplierCounts candidate.capKey }, acc.2 + 1))
      (scorer, mults)
    let right := candidates.foldl (fun (acc : KeyMap Int × KeyMap Nat × Int64) candidate =>
      if acc.1.contains candidate.key || candidate.capReached acc.2.1 then acc
      else (acc.1.insert candidate.key id, bump acc.2.1 candidate.capKey, acc.2.2 + 1))
      (owners, counts, mults)
    left.1 = { scorer with
        multiplierKeys := left.1.multiplierKeys
        multiplierCounts := right.2.1 } ∧
      (∀ key, key ∈ left.1.multiplierKeys ↔ key ∈ right.1) ∧ left.2 = right.2.2 := by
  induction candidates generalizing scorer owners counts mults with
  | nil => exact ⟨by rw [← hcounts]; rfl, hkeys, rfl⟩
  | cons candidate candidates ih =>
      simp only [List.foldl_cons, Ledger.contains_congr _ _ hkeys, hcounts]
      split
      · exact ih scorer owners counts mults hkeys hcounts
      · exact ih _ _ _ _ (Ledger.mem_insert_congr _ _ hkeys _ _ _) rfl

omit [Platform] in
theorem foldBonuses (id : Int) (entries : List (String × Int64)) (scorer : ContestScorer)
    (owners : KeyMap Int) (bonus : Int64)
    (hkeys : ∀ key, key ∈ scorer.bonusKeys ↔ key ∈ owners) :
    let left := entries.foldl (fun (acc : ContestScorer × Int64) entry =>
      if acc.1.bonusKeys.contains entry.1 then acc
      else ({ acc.1 with bonusKeys := acc.1.bonusKeys.insert entry.1 () }, acc.2 + entry.2))
      (scorer, bonus)
    let right := entries.foldl (fun (acc : KeyMap Int × Int64) entry =>
      if acc.1.contains entry.1 then acc else (acc.1.insert entry.1 id, acc.2 + entry.2))
      (owners, bonus)
    left.1 = { scorer with bonusKeys := left.1.bonusKeys } ∧
      (∀ key, key ∈ left.1.bonusKeys ↔ key ∈ right.1) ∧ left.2 = right.2 := by
  induction entries generalizing scorer owners bonus with
  | nil => exact ⟨rfl, hkeys, rfl⟩
  | cons entry entries ih =>
      simp only [List.foldl_cons, Ledger.contains_congr _ _ hkeys]
      split
      · exact ih scorer owners bonus hkeys
      · exact ih _ _ _ (Ledger.mem_insert_congr _ _ hkeys _ _ _)

theorem scoreOriginal (h : Agrees scorer state) (contact : Contact) (id : Int) :
    let left := scorer.scoreOriginal contact
    let right := state.scoreNonDupeContact contact (some id)
    Agrees left.1 right.1 ∧ left.2 = right.2 := by
  have hmults := foldMultipliers id (state.module.value.multiplierCandidatesFor contact)
    scorer state.multiplierOwners state.multiplierCounts 0 h.multiplierKeys h.multiplierCounts
  rw [← h.module] at hmults
  change let left := scorer.multipliers contact
    let right := IncrementalLogState.creditMultipliers (some id)
      (scorer.module.multiplierCandidatesFor contact) state.multiplierOwners
      state.multiplierCounts
    left.1 = { scorer with
      multiplierKeys := left.1.multiplierKeys
      multiplierCounts := right.2.1 } ∧
      (∀ key, key ∈ left.1.multiplierKeys ↔ key ∈ right.1) ∧ left.2 = right.2.2 at hmults
  generalize hleft : scorer.multipliers contact = left at hmults
  obtain ⟨middle, mults⟩ := left
  obtain ⟨hmiddle, hmultKeys, hmultCount⟩ := hmults
  simp only at hmiddle hmultKeys hmultCount
  have hkeys : ∀ key, key ∈ middle.bonusKeys ↔ key ∈ state.bonusOwners := by
    rw [hmiddle]
    exact h.bonusKeys
  have hmodule : middle.module = scorer.module := by rw [hmiddle]
  have hbonus := foldBonuses id (scorer.module.bonusKeysFor contact) middle state.bonusOwners 0
    hkeys
  rw [← hmodule] at hbonus
  change let left := middle.bonusPoints contact
    let right := IncrementalLogState.creditBonuses (some id) (middle.module.bonusKeysFor contact)
      state.bonusOwners
    left.1 = { middle with bonusKeys := left.1.bonusKeys } ∧
      (∀ key, key ∈ left.1.bonusKeys ↔ key ∈ right.1) ∧ left.2 = right.2 at hbonus
  generalize hlast : middle.bonusPoints contact = last at hbonus
  obtain ⟨final, bonus⟩ := last
  obtain ⟨hfinal, hbonusKeys, hbonusSum⟩ := hbonus
  simp only at hfinal hbonusKeys hbonusSum
  rw [hmodule] at hbonusKeys hbonusSum
  simp only [ContestScorer.scoreOriginal, IncrementalLogState.scoreNonDupeContact, hleft, hlast,
    ← h.module]
  refine ⟨?_, by rw [hmultCount, hbonusSum]⟩
  constructor
  · rw [hfinal]; exact hmodule.trans h.module
  · rw [hfinal, hmiddle]; exact h.totals
  · rw [hfinal, hmiddle]; exact h.rawMultiplierCount
  · rw [hfinal, hmiddle]; exact h.directBonusPoints
  · rw [hfinal, hmiddle]; exact h.dupeKeys
  · rw [hfinal]; exact hmultKeys
  · rw [hfinal, hmiddle]
  · exact hbonusKeys
  · rw [hfinal, hmiddle]; exact h.qsoCountBonusCounts

/-- Counting the contact in its dupe group, before anything is scored. -/
theorem joinDupeGroup (h : Agrees scorer state) (contact : Contact) :
    Agrees (scorer.isDupe contact).1 (state.joinDupeGroup contact).1 ∧
      (scorer.isDupe contact).2 = (state.joinDupeGroup contact).2 := by
  simp only [ContestScorer.isDupe, IncrementalLogState.joinDupeGroup, h.module]
  cases hkey : state.module.value.dupeKeyFor contact with
  | none => exact ⟨h, rfl⟩
  | some key =>
      simp only [h.dupeKeys, and_true]
      exact ⟨rfl, h.totals, h.rawMultiplierCount, h.directBonusPoints, rfl,
        h.multiplierKeys, h.multiplierCounts, h.bonusKeys, h.qsoCountBonusCounts⟩

omit [Platform] in
theorem countQso (h : Agrees scorer state) :
    Agrees { scorer with totals := { scorer.totals with qsoCount := scorer.totals.qsoCount + 1 } }
      { state with totals := { state.totals with qsoCount := state.totals.qsoCount + 1 } } :=
  ⟨h.module, by rw [h.totals], h.rawMultiplierCount, h.directBonusPoints, h.dupeKeys,
    h.multiplierKeys, h.multiplierCounts, h.bonusKeys, h.qsoCountBonusCounts⟩

/-- One contact through both scorers: the same scores on it, and agreeing states. -/
theorem addContact (h : Agrees scorer state) (contact : Contact) (id : Int)
    (hid : contactId contact = some id) :
    Agrees (scorer.addQso contact).1 (state.addContact contact).1 ∧
      (scorer.addQso contact).2 = (state.addContact contact).2 := by
  obtain ⟨hjoin, hdupe⟩ := h.countQso.joinDupeGroup contact
  simp only [ContestScorer.addQso, IncrementalLogState.addContact]
  generalize ContestScorer.isDupe _ contact = left at hjoin hdupe
  generalize IncrementalLogState.joinDupeGroup _ contact = right at hjoin hdupe
  obtain ⟨left, isDupe⟩ := left
  obtain ⟨right, isDupe'⟩ := right
  simp only at hjoin hdupe
  subst hdupe
  cases isDupe with
  | true =>
      simp only [if_true, Bool.not_true, Bool.false_and, Bool.false_eq_true, if_false, add_zero,
        and_true]
      exact hjoin.recalculateScore
  | false =>
      obtain ⟨hscored, hscores⟩ := hjoin.scoreOriginal contact id
      simp only [Bool.false_eq_true, if_false, IncrementalLogState.scoreOriginal, hid,
        Bool.not_false, Bool.true_and, decide_eq_true_eq]
      generalize left.scoreOriginal contact = left at hscored hscores
      generalize right.scoreNonDupeContact contact (some id) = right at hscored hscores
      obtain ⟨left, points, mults, bonus⟩ := left
      obtain ⟨right, points', mults', bonus'⟩ := right
      simp only [Prod.mk.injEq] at hscores
      obtain ⟨rfl, rfl, rfl⟩ := hscores
      refine ⟨recalculateScore ?_, rfl⟩
      simp only at hscored
      exact ⟨hscored.module, by rw [hscored.totals], by rw [hscored.rawMultiplierCount],
        by rw [hscored.directBonusPoints], hscored.dupeKeys, hscored.multiplierKeys,
        hscored.multiplierCounts, hscored.bonusKeys,
        by simp only [hscored.module, hscored.qsoCountBonusCounts]⟩

theorem addContacts (h : Agrees scorer state) (contacts : List Contact)
    (hids : ∀ contact ∈ contacts, (contactId contact).isSome) :
    Agrees (scorer.addQsos contacts).1 (state.addContacts contacts).1 ∧
      (scorer.addQsos contacts).2 = (state.addContacts contacts).2 := by
  induction contacts generalizing scorer state with
  | nil => exact ⟨h, rfl⟩
  | cons contact contacts ih =>
      obtain ⟨id, hid⟩ := Option.isSome_iff_exists.mp (hids contact List.mem_cons_self)
      obtain ⟨hstep, hcontact⟩ := h.addContact contact id hid
      obtain ⟨hrest, hcontacts⟩ := ih hstep fun c hc => hids c (List.mem_cons_of_mem _ hc)
      exact ⟨hrest, congrArg₂ List.cons hcontact hcontacts⟩

end Agrees

omit [Platform] in
theorem agrees_new (module : Arc ContestScoringModule) :
    Agrees { module := module.value } { module := module } :=
  ⟨rfl, rfl, rfl, rfl, rfl, by simp, rfl, by simp, rfl⟩

/-- Scoring a list and resetting the tracker with it give the same totals and the same
scores on every contact. -/
theorem scoreContacts_eq_reset (address : Nat) (rules : ContestRules) (contestParams : Value)
    (contacts : List Contact) (hids : ∀ contact ∈ contacts, (contactId contact).isSome) :
    let reset := IncrementalLogState.reset ⟨address, .new rules contestParams⟩ contacts
    scoreContacts rules contestParams contacts = (reset.1.totals, reset.2) := by
  obtain ⟨hstate, hcontacts⟩ :=
    (agrees_new ⟨address, .new rules contestParams⟩).addContacts contacts hids
  exact Prod.ext hstate.totals hcontacts

end Log73

namespace Log73

attribute [local instance] asciiPlatform

/-- Two contacts of one station and one of another. -/
def stateContacts : List Contact :=
  [stateContact 1 "K1ABC" "CA" 100, stateContact 2 "K1ABC" "CA" 200,
    stateContact 3 "W2XYZ" "CA" 300]

theorem scoreContacts_eq_reset_stateContest :
    scoreContacts stateContest .null stateContacts =
      ((IncrementalLogState.reset ⟨0, .new stateContest .null⟩ stateContacts).1.totals,
        (IncrementalLogState.reset ⟨0, .new stateContest .null⟩ stateContacts).2) :=
  scoreContacts_eq_reset 0 stateContest .null stateContacts (by decide)

end Log73
