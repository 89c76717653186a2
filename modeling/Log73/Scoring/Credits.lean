import Log73.Library.Ledger
import Log73.Library.Tally
import Log73.Scoring.Rescoring

/-!
Credits: the totals and ownership maps of a tracker state account for a list of
original contacts. Scoring an original, withdrawing one and handing a free key to
one keep the account.
-/

namespace Log73

open Std

section ScoreFields

variable (contact : Contact)

theorem scoredI64_setContactMeta (key key' : String) (value : Int64) :
    scoredI64 (setContactMeta contact key (.ofI64 value)) key' =
      if key = key' then value else scoredI64 contact key' := by
  rw [scoredI64, contactMetaValue_setContactMeta]
  split
  · simp [Value.asI64_ofI64]
  · rfl

theorem scoredI64_setContactMeta_bool (key key' : String) (b : Bool) (h : key ≠ key') :
    scoredI64 (setContactMeta contact key (.bool b)) key' = scoredI64 contact key' := by
  rw [scoredI64, contactMetaValue_setContactMeta_of_ne _ _ h, scoredI64]

variable (points mults bonus : Int64) (isDupe : Bool)

@[simp] theorem scoredI64_setContactScoreFields_pts :
    scoredI64 (setContactScoreFields contact points mults bonus isDupe) "pts" = points := by
  simp [setContactScoreFields, scoredI64_setContactMeta_bool, scoredI64_setContactMeta]

@[simp] theorem scoredI64_setContactScoreFields_mult :
    scoredI64 (setContactScoreFields contact points mults bonus isDupe) "mult" = mults := by
  simp [setContactScoreFields, scoredI64_setContactMeta_bool, scoredI64_setContactMeta]

@[simp] theorem scoredI64_setContactScoreFields_bonus :
    scoredI64 (setContactScoreFields contact points mults bonus isDupe) "bonus" = bonus := by
  simp [setContactScoreFields, scoredI64_setContactMeta_bool, scoredI64_setContactMeta]

@[simp] theorem isDupeContact_setContactScoreFields :
    isDupeContact (setContactScoreFields contact points mults bonus isDupe) = isDupe := by
  simp [isDupeContact, setContactScoreFields]

@[simp] theorem contactId_setContactScoreFields :
    contactId (setContactScoreFields contact points mults bonus isDupe) = contactId contact :=
  (Unscored.setContactScoreFields contact points mults bonus isDupe).contactId_eq

theorem scoredI64_incrementContactScoreField (field field' : String) (delta : Int64) :
    scoredI64 (incrementContactScoreField contact field delta) field' =
      scoredI64 contact field' + if field = field' then delta else 0 := by
  rw [incrementContactScoreField, scoredI64_setContactMeta]
  split
  · next h => rw [h]
  · rw [add_zero]

theorem isDupeContact_incrementContactScoreField {field : String} (delta : Int64)
    (h : field ≠ "dupe") :
    isDupeContact (incrementContactScoreField contact field delta) = isDupeContact contact := by
  rw [isDupeContact, incrementContactScoreField, contactMetaValue_setContactMeta_of_ne _ _ h,
    isDupeContact]

end ScoreFields

/-- The scores in one field are the holdings in one ownership map, whose owners are all
among the contacts and carry what they own. -/
structure Held (field : String) (worth : Contact → String → Int64)
    (keys : Contact → List String) (owners : KeyMap Int) (originals : List Contact) : Prop where
  holding : ∀ contact ∈ originals, ∀ id, contactId contact = some id →
    scoredI64 contact field = Ledger.holding (worth contact) owners id
  grounded : ∀ (key : String) (id : Int), owners[key]? = some id →
    ∃ contact ∈ originals, contactId contact = some id ∧ key ∈ keys contact

namespace Held

variable {field : String} {worth : Contact → String → Int64} {keys : Contact → List String}
  {owners owners' : KeyMap Int} {originals originals' : List Contact} {contact contact' : Contact}
  {id : Int}

theorem perm (h : Held field worth keys owners originals) (hperm : originals.Perm originals') :
    Held field worth keys owners originals' where
  holding contact hmem := h.holding contact (hperm.mem_iff.mpr hmem)
  grounded key id howner := by
    obtain ⟨contact, hmem, hrest⟩ := h.grounded key id howner
    exact ⟨contact, hperm.mem_iff.mp hmem, hrest⟩

theorem not_owner (h : Held field worth keys owners originals)
    (hfresh : ∀ other ∈ originals, contactId other ≠ some id) (key : String) :
    owners[key]? ≠ some id := by
  intro howner
  obtain ⟨other, hmem, hid, -⟩ := h.grounded key id howner
  exact hfresh other hmem hid

/-- A new contact comes in with nothing. -/
theorem enter (h : Held field worth keys owners originals) (hid : contactId contact = some id)
    (hfresh : ∀ other ∈ originals, contactId other ≠ some id)
    (hzero : scoredI64 contact field = 0) :
    Held field worth keys owners (contact :: originals) where
  holding other hmem i hi := by
    rcases List.mem_cons.mp hmem with rfl | hmem
    · obtain rfl : id = i := Option.some.inj (hid.symm.trans hi)
      rw [hzero, Ledger.holding_eq_zero _ _ _ (h.not_owner hfresh)]
    · exact h.holding other hmem i hi
  grounded key i howner := by
    obtain ⟨other, hmem, hrest⟩ := h.grounded key i howner
    exact ⟨other, List.mem_cons_of_mem _ hmem, hrest⟩

/-- A contact claims keys it carries, and its score grows by what they are worth. -/
theorem claim (h : Held field worth keys owners (contact :: originals)) (gain : Int64)
    (hid : contactId contact = some id)
    (hfresh : ∀ other ∈ originals, contactId other ≠ some id)
    (hclaim : Ledger.Claimed (worth contact) id (keys contact) owners owners' gain)
    (hid' : contactId contact' = contactId contact)
    (hworth : worth contact' = worth contact) (hkeys : keys contact' = keys contact)
    (hscore : scoredI64 contact' field = scoredI64 contact field + gain) :
    Held field worth keys owners' (contact' :: originals) where
  holding other hmem i hi := by
    rcases List.mem_cons.mp hmem with rfl | hmem
    · obtain rfl : id = i := Option.some.inj (hid.symm.trans (hid' ▸ hi))
      rw [hscore, h.holding contact List.mem_cons_self id hid, hworth, hclaim.holding, if_pos rfl]
    · have hne : id ≠ i := fun heq => hfresh other hmem (heq ▸ hi)
      have hsame : Ledger.holding (worth other) owners' i =
          Ledger.holding (worth other) owners i := by
        refine Ledger.holding_congr_owners _ _ _ _ fun key => ?_
        constructor
        · intro howner
          exact (hclaim.owner_cases howner).resolve_right fun hnew => hne hnew.1.symm
        · intro howner
          rw [hclaim.getElem?_of_mem (ExtTreeMap.mem_iff_isSome_getElem?.mpr (by simp [howner]))]
          exact howner
      rw [hsame]
      exact h.holding other (List.mem_cons_of_mem _ hmem) i hi
  grounded key i howner := by
    rcases hclaim.owner_cases howner with hold | ⟨rfl, hmem⟩
    · obtain ⟨other, hmem, hi, hkey⟩ := h.grounded key i hold
      rcases List.mem_cons.mp hmem with rfl | hmem
      · exact ⟨contact', List.mem_cons_self, hid'.trans hi, hkeys ▸ hkey⟩
      · exact ⟨other, List.mem_cons_of_mem _ hmem, hi, hkey⟩
    · exact ⟨contact', List.mem_cons_self, hid'.trans hid, hkeys ▸ hmem⟩

/-- A contact that is not among the originals any more gives up its keys. -/
theorem release (h : Held field worth keys owners (contact :: originals))
    (hid : contactId contact = some id)
    (hfresh : ∀ other ∈ originals, contactId other ≠ some id) :
    Held field worth keys (Ledger.release owners id) originals where
  holding other hmem i hi := by
    have hne : id ≠ i := fun heq => hfresh other hmem (heq ▸ hi)
    rw [Ledger.holding_release, if_neg hne]
    exact h.holding other (List.mem_cons_of_mem _ hmem) i hi
  grounded key i howner := by
    rw [Ledger.getElem?_release, Option.filter_eq_some_iff] at howner
    obtain ⟨other, hmem, hi, hkey⟩ := h.grounded key i howner.1
    rcases List.mem_cons.mp hmem with rfl | hmem
    · exact absurd (Option.some.inj (hi.symm.trans hid)) (by simpa using howner.2)
    · exact ⟨other, hmem, hi, hkey⟩

end Held

variable [Platform]

/-- How often a contact counts under a key of the QSO-count bonuses. -/
def qsoCountCredits (module : ContestScoringModule) (key : String) (contact : Contact) : Nat :=
  if 0 < scoredI64 contact "pts" then (module.qsoCountBonusKeysFor contact).count key else 0

/-- The totals and the credit maps of a state account for the originals. -/
structure Credits (state : IncrementalLogState) (originals : List Contact) : Prop where
  identified : ∀ contact ∈ originals, (contactId contact).isSome
  distinct : (originals.map contactId).Nodup
  original : ∀ contact ∈ originals, isDupeContact contact = false
  points : state.totals.qsoPoints = (originals.map (scoredI64 · "pts")).sum
  mults : state.rawMultiplierCount = (originals.map (scoredI64 · "mult")).sum
  bonus : state.directBonusPoints = (originals.map (scoredI64 · "bonus")).sum
  scored : ∀ contact ∈ originals,
    scoredI64 contact "pts" = state.module.value.qsoPointsFor contact
  entries : state.rawMultiplierCount = Ledger.total (fun _ => 1) state.multiplierOwners
  multipliers : Held "mult" (fun _ _ => 1) state.module.value.multiplierKeysFor
    state.multiplierOwners originals
  bonuses : Held "bonus" state.bonusWorth
    (fun contact => (state.module.value.bonusKeysFor contact).map Prod.fst)
    state.bonusOwners originals
  qsoCounts : Tally.Represents state.qsoCountBonusCounts fun key =>
    (originals.map (qsoCountCredits state.module.value key)).sum

/-- The parts of two states that credits speak about are the same. -/
structure SameCredits (state state' : IncrementalLogState) : Prop where
  module : state'.module = state.module
  points : state'.totals.qsoPoints = state.totals.qsoPoints
  mults : state'.rawMultiplierCount = state.rawMultiplierCount
  bonus : state'.directBonusPoints = state.directBonusPoints
  multiplierOwners : state'.multiplierOwners = state.multiplierOwners
  bonusOwners : state'.bonusOwners = state.bonusOwners
  qsoCounts : state'.qsoCountBonusCounts = state.qsoCountBonusCounts

section CreditLoops

variable (id : Int)

omit [Platform] in
/-- The multiplier loop claims free keys of the candidates, each worth one. -/
theorem creditMultipliers_claimed (candidates : List MultiplierCandidate) (owners : KeyMap Int)
    (counts : KeyMap Nat) :
    let result := IncrementalLogState.creditMultipliers (some id) candidates owners counts
    Ledger.Claimed (fun _ => (1 : Int64)) id (candidates.map (·.key)) owners result.1
      result.2.2 := by
  have hloop : ∀ (rest : List MultiplierCandidate) (acc : KeyMap Int × KeyMap Nat × Int64),
      (∀ candidate ∈ rest, candidate.key ∈ candidates.map (·.key)) →
      Ledger.Claimed (fun _ => (1 : Int64)) id (candidates.map (·.key)) owners acc.1 acc.2.2 →
      let result := rest.foldl (fun acc candidate =>
        if acc.1.contains candidate.key || candidate.capReached acc.2.1 then acc
        else (acc.1.insert candidate.key id, bump acc.2.1 candidate.capKey, acc.2.2 + 1)) acc
      Ledger.Claimed (fun _ => (1 : Int64)) id (candidates.map (·.key)) owners result.1
        result.2.2 := by
    intro rest
    induction rest with
    | nil => exact fun acc _ h => h
    | cons candidate rest ih =>
        intro acc hkeys h
        refine ih _ (fun c hc => hkeys c (List.mem_cons_of_mem _ hc)) ?_
        beta_reduce
        split
        · exact h
        · next hfree =>
            simp only [Bool.or_eq_true, not_or, ExtTreeMap.contains_iff_mem] at hfree
            exact h.insert (hkeys candidate List.mem_cons_self) hfree.1
  exact hloop candidates (owners, counts, 0)
    (fun candidate hmem => List.mem_map_of_mem hmem) (.refl _ _ _ _)

omit [Platform] in
/-- Without caps the multiplier loop leaves no candidate without an owner. -/
theorem creditMultipliers_covers (candidates : List MultiplierCandidate) (owners : KeyMap Int)
    (counts : KeyMap Nat) (huncapped : ∀ candidate ∈ candidates, candidate.maxCount = none)
    (key : String) :
    key ∈ (IncrementalLogState.creditMultipliers (some id) candidates owners counts).1 ↔
      key ∈ owners ∨ key ∈ candidates.map (·.key) := by
  simp only [IncrementalLogState.creditMultipliers]
  generalize (0 : Int64) = mults
  induction candidates generalizing owners counts mults with
  | nil => simp
  | cons candidate candidates ih =>
      have hcap : candidate.capReached counts = false := by
        simp [MultiplierCandidate.capReached, huncapped candidate List.mem_cons_self]
      have hrest := fun owners counts mults => ih owners counts
        (fun c hc => huncapped c (List.mem_cons_of_mem _ hc)) mults
      simp only [List.foldl_cons, hcap, Bool.or_false, List.map_cons, List.mem_cons]
      split
      · next hmem =>
          rw [ExtTreeMap.contains_iff_mem] at hmem
          rw [hrest]
          constructor
          · rintro (h | h)
            · exact .inl h
            · exact .inr (.inr h)
          · rintro (h | rfl | h)
            · exact .inl h
            · exact .inl hmem
            · exact .inr h
      · rw [hrest, ExtTreeMap.mem_insert, LawfulEqOrd.compare_eq_iff_eq, or_assoc, or_left_comm,
          eq_comm]

omit [Platform] in
/-- The bonus loop claims free keys of the entries, each worth what its first entry gives. -/
theorem creditBonuses_claimed (entries : List (String × Int64)) (owners : KeyMap Int) :
    let result := IncrementalLogState.creditBonuses (some id) entries owners
    Ledger.Claimed (fun key => ((entries.find? fun entry => entry.1 = key).map Prod.snd).getD 0)
      id (entries.map Prod.fst) owners result.1 result.2 := by
  have hloop : ∀ (rest : List (String × Int64)) (acc : KeyMap Int × Int64) (worth : String → Int64),
      (∀ entry ∈ rest, entry.1 ∈ entries.map Prod.fst) →
      (∀ key entry, key ∉ acc.1 → rest.find? (fun entry => entry.1 = key) = some entry →
        entry.2 = worth key) →
      Ledger.Claimed worth id (entries.map Prod.fst) owners acc.1 acc.2 →
      let result := rest.foldl (fun acc entry =>
        if acc.1.contains entry.1 then acc else (acc.1.insert entry.1 id, acc.2 + entry.2)) acc
      Ledger.Claimed worth id (entries.map Prod.fst) owners result.1 result.2 := by
    intro rest
    induction rest with
    | nil => exact fun acc _ _ _ h => h
    | cons entry rest ih =>
        intro acc worth hkeys hworth h
        have hrest : ∀ e ∈ rest, e.1 ∈ entries.map Prod.fst :=
          fun e he => hkeys e (List.mem_cons_of_mem _ he)
        simp only [List.foldl_cons]
        split
        · next hmem =>
            rw [ExtTreeMap.contains_iff_mem] at hmem
            refine ih acc worth hrest (fun key found hkey hfind => hworth key found hkey ?_) h
            have hne : ¬ entry.1 = key := fun heq => hkey (heq ▸ hmem)
            rw [List.find?_cons_of_neg (by simpa using hne), hfind]
        · next hfree =>
            rw [ExtTreeMap.contains_iff_mem] at hfree
            have hentry : entry.2 = worth entry.1 := hworth entry.1 entry hfree (by simp)
            refine ih _ worth hrest (fun key found hkey hfind => ?_)
              (hentry ▸ h.insert (hkeys entry List.mem_cons_self) hfree)
            rw [ExtTreeMap.mem_insert, not_or, LawfulEqOrd.compare_eq_iff_eq] at hkey
            refine hworth key found hkey.2 ?_
            rw [List.find?_cons_of_neg (by simpa using hkey.1), hfind]
  refine hloop entries (owners, 0) _ (fun entry hmem => List.mem_map_of_mem hmem) ?_
    (.refl _ _ _ _)
  intro key entry _ hfind
  rw [hfind]
  rfl

omit [Platform] in
theorem creditBonuses_covers (entries : List (String × Int64)) (owners : KeyMap Int)
    (key : String) :
    key ∈ (IncrementalLogState.creditBonuses (some id) entries owners).1 ↔
      key ∈ owners ∨ key ∈ entries.map Prod.fst := by
  simp only [IncrementalLogState.creditBonuses]
  generalize (0 : Int64) = bonus
  induction entries generalizing owners bonus with
  | nil => simp
  | cons entry entries ih =>
      simp only [List.foldl_cons, List.map_cons, List.mem_cons]
      split
      · next hmem =>
          rw [ExtTreeMap.contains_iff_mem] at hmem
          rw [ih]
          constructor
          · rintro (h | h)
            · exact .inl h
            · exact .inr (.inr h)
          · rintro (h | rfl | h)
            · exact .inl h
            · exact .inl hmem
            · exact .inr h
      · rw [ih, ExtTreeMap.mem_insert, LawfulEqOrd.compare_eq_iff_eq, or_assoc, or_left_comm,
          eq_comm]

end CreditLoops

namespace Credits

variable {state state' : IncrementalLogState} {originals originals' : List Contact}
  {contact : Contact} {id : Int}

theorem perm (h : Credits state originals) (hperm : originals.Perm originals') :
    Credits state originals' where
  identified contact hmem := h.identified contact (hperm.mem_iff.mpr hmem)
  distinct := (hperm.map _).nodup_iff.mp h.distinct
  original contact hmem := h.original contact (hperm.mem_iff.mpr hmem)
  points := h.points.trans (hperm.map _).sum_eq
  mults := h.mults.trans (hperm.map _).sum_eq
  bonus := h.bonus.trans (hperm.map _).sum_eq
  scored contact hmem := h.scored contact (hperm.mem_iff.mpr hmem)
  entries := h.entries
  multipliers := h.multipliers.perm hperm
  bonuses := h.bonuses.perm hperm
  qsoCounts := h.qsoCounts.congr fun _ => (hperm.map _).sum_eq

theorem congr (h : Credits state originals) (hsame : SameCredits state state') :
    Credits state' originals where
  identified := h.identified
  distinct := h.distinct
  original := h.original
  points := hsame.points.trans h.points
  mults := hsame.mults.trans h.mults
  bonus := hsame.bonus.trans h.bonus
  scored := by rw [hsame.module]; exact h.scored
  entries := by rw [hsame.mults, hsame.multiplierOwners]; exact h.entries
  multipliers := by rw [hsame.module, hsame.multiplierOwners]; exact h.multipliers
  bonuses := by
    have hworth : state'.bonusWorth = state.bonusWorth := by
      funext contact key
      rw [IncrementalLogState.bonusWorth, IncrementalLogState.bonusWorth, hsame.module]
    rw [hworth, hsame.module, hsame.bonusOwners]
    exact h.bonuses
  qsoCounts := by rw [hsame.module, hsame.qsoCounts]; exact h.qsoCounts

theorem fresh_of_cons (h : Credits state (contact :: originals))
    (hid : contactId contact = some id) : ∀ other ∈ originals, contactId other ≠ some id := by
  intro other hmem heq
  have hnot := (List.nodup_cons.mp h.distinct).1
  exact hnot (hid ▸ heq ▸ List.mem_map_of_mem hmem)

/-- A contact that is no original yet is scored as one. -/
theorem scoreOriginal (h : Credits state originals)
    (hreads : state.module.value.rules.scoring.ReadsNoScores)
    (hid : contactId contact = some id)
    (hfresh : ∀ other ∈ originals, contactId other ≠ some id) :
    Credits (state.scoreOriginal contact).1
      ((state.scoreOriginal contact).2 :: originals) := by
  have hmults := creditMultipliers_claimed id
    (state.module.value.multiplierCandidatesFor contact) state.multiplierOwners
    state.multiplierCounts
  have hbonus := creditBonuses_claimed id (state.module.value.bonusKeysFor contact)
    state.bonusOwners
  simp only [IncrementalLogState.scoreOriginal, IncrementalLogState.scoreNonDupeContact, hid]
  generalize IncrementalLogState.creditMultipliers (some id) _ _ _ = credited at hmults
  generalize IncrementalLogState.creditBonuses (some id) _ _ = bonused at hbonus
  obtain ⟨multiplierOwners, multiplierCounts, mults⟩ := credited
  obtain ⟨bonusOwners, bonus⟩ := bonused
  generalize hpoints : state.module.value.qsoPointsFor contact = points
  -- the contact enters with zero scores, then claims
  let entered := setContactScoreFields contact 0 0 0 false
  let final := setContactScoreFields contact points mults bonus false
  have hentered : Unscored entered contact := Unscored.setContactScoreFields ..
  have hfinal : Unscored final contact := Unscored.setContactScoreFields ..
  have hboth : Unscored final entered := hfinal.trans hentered.symm
  have henteredId : contactId entered = some id := hentered.contactId_eq.trans hid
  have hmultipliers : Held "mult" (fun _ _ => 1) state.module.value.multiplierKeysFor
      multiplierOwners (final :: originals) := by
    refine (h.multipliers.enter henteredId hfresh (by simp [entered])).claim mults henteredId
      hfresh ?_ hboth.contactId_eq rfl
      (ContestScoringModule.multiplierKeysFor_congr hreads hboth) (by simp [final, entered])
    rw [ContestScoringModule.multiplierKeysFor_congr hreads hentered]
    exact hmults
  have hbonuses : Held "bonus" state.bonusWorth
      (fun contact => (state.module.value.bonusKeysFor contact).map Prod.fst)
      bonusOwners (final :: originals) := by
    refine (h.bonuses.enter henteredId hfresh (by simp [entered])).claim bonus henteredId
      hfresh ?_ hboth.contactId_eq ?_ ?_ (by simp [final, entered])
    · rw [ContestScoringModule.bonusKeysFor_congr hreads hentered]
      convert hbonus using 1
      funext key
      rw [IncrementalLogState.bonusWorth,
        ContestScoringModule.bonusKeysFor_congr hreads hentered]
    · funext key
      rw [IncrementalLogState.bonusWorth, IncrementalLogState.bonusWorth,
        ContestScoringModule.bonusKeysFor_congr hreads hboth]
    · rw [ContestScoringModule.bonusKeysFor_congr hreads hboth]
  have hcredit : ∀ key, qsoCountCredits state.module.value key final =
      if 0 < points then (state.module.value.qsoCountBonusKeysFor contact).count key else 0 := by
    intro key
    rw [qsoCountCredits, ContestScoringModule.qsoCountBonusKeysFor_congr hreads hfinal]
    simp [final]
  constructor
  · intro other hmem
    rcases List.mem_cons.mp hmem with rfl | hmem
    · rw [contactId_setContactScoreFields, hid]; rfl
    · exact h.identified other hmem
  · rw [List.map_cons, contactId_setContactScoreFields, hid]
    refine List.nodup_cons.mpr ⟨fun hmem => ?_, h.distinct⟩
    obtain ⟨other, hother, heq⟩ := List.mem_map.mp hmem
    exact hfresh other hother heq
  · intro other hmem
    rcases List.mem_cons.mp hmem with rfl | hmem
    · exact isDupeContact_setContactScoreFields ..
    · exact h.original other hmem
  · simp only [List.map_cons, List.sum_cons, scoredI64_setContactScoreFields_pts, h.points]
    exact add_comm _ _
  · simp only [List.map_cons, List.sum_cons, scoredI64_setContactScoreFields_mult, h.mults]
    exact add_comm _ _
  · simp only [List.map_cons, List.sum_cons, scoredI64_setContactScoreFields_bonus, h.bonus]
    exact add_comm _ _
  · intro other hmem
    rcases List.mem_cons.mp hmem with rfl | hmem
    · rw [scoredI64_setContactScoreFields_pts,
        ContestScoringModule.qsoPointsFor_congr hreads hfinal, hpoints]
    · exact h.scored other hmem
  · rw [hmults.total, ← h.entries]
  · exact hmultipliers
  · exact hbonuses
  · simp only [List.map_cons, List.sum_cons]
    change Tally.Represents _ fun key => qsoCountCredits state.module.value key final + _
    by_cases hpos : 0 < points
    · simp only [hpos, if_true]
      refine (h.qsoCounts.foldl_increment _).congr fun key => ?_
      rw [hcredit key, if_pos hpos, add_comm]
    · simp only [hpos, if_false]
      refine h.qsoCounts.congr fun key => ?_
      rw [hcredit key, if_neg hpos, zero_add]

/-- An original is withdrawn and gives up its keys. -/
theorem withdraw (h : Credits state (contact :: originals)) (hid : contactId contact = some id) :
    Credits ((state.withdraw contact).releaseKeys (some id)) originals := by
  have hfresh := h.fresh_of_cons hid
  have hhead := h.multipliers.holding contact List.mem_cons_self id hid
  have hnotDupe := h.original contact List.mem_cons_self
  simp only [IncrementalLogState.withdraw, IncrementalLogState.releaseKeys, Option.elim_some,
    hnotDupe, Bool.not_false, Bool.true_and, decide_eq_true_eq]
  constructor
  · exact fun other hmem => h.identified other (List.mem_cons_of_mem _ hmem)
  · exact (List.nodup_cons.mp h.distinct).2
  · exact fun other hmem => h.original other (List.mem_cons_of_mem _ hmem)
  · simp only [h.points, List.map_cons, List.sum_cons, add_sub_cancel_left]
  · simp only [h.mults, List.map_cons, List.sum_cons, add_sub_cancel_left]
  · simp only [h.bonus, List.map_cons, List.sum_cons, add_sub_cancel_left]
  · exact fun other hmem => h.scored other (List.mem_cons_of_mem _ hmem)
  · rw [h.entries, hhead, ← Ledger.total_release _ state.multiplierOwners id,
      add_sub_cancel_left]
  · exact h.multipliers.release hid hfresh
  · exact h.bonuses.release hid hfresh
  · have hcounts := h.qsoCounts
    simp only [List.map_cons, List.sum_cons, qsoCountCredits] at hcounts
    by_cases hpos : 0 < scoredI64 contact "pts"
    · simp only [hpos, if_true] at hcounts ⊢
      refine (hcounts.foldl_decrement _).congr fun key => ?_
      exact Nat.add_sub_cancel_left _ _
    · simp only [hpos, if_false, zero_add] at hcounts ⊢
      exact hcounts

/-- A dupe carries no scores and owns no keys. -/
theorem withdraw_dupe (h : Credits state originals) (hdupe : isDupeContact contact = true)
    (hpoints : scoredI64 contact "pts" = 0) (hmults : scoredI64 contact "mult" = 0)
    (hbonus : scoredI64 contact "bonus" = 0)
    (hfresh : ∀ other ∈ originals, contactId other ≠ some id) :
    Credits ((state.withdraw contact).releaseKeys (some id)) originals := by
  have hrelease : ∀ owners : KeyMap Int, (∀ key : String, owners[key]? ≠ some id) →
      Ledger.release owners id = owners := by
    intro owners hnone
    refine Ledger.ext_of_getElem? fun key => ?_
    rw [Ledger.getElem?_release]
    cases howner : owners[key]? with
    | none => rfl
    | some j =>
        have hne : j ≠ id := fun heq => hnone key (heq ▸ howner)
        simp [hne]
  refine h.congr ?_
  simp only [IncrementalLogState.withdraw, IncrementalLogState.releaseKeys, Option.elim_some]
  exact ⟨rfl, by simp [hpoints], by simp [hmults], by simp [hbonus],
    hrelease _ (h.multipliers.not_owner hfresh), hrelease _ (h.bonuses.not_owner hfresh),
    by simp [hdupe]⟩

/-- An original claims free keys it carries, and its scores grow by what they are worth. -/
theorem claim (h : Credits state (contact :: originals))
    (hreads : state.module.value.rules.scoring.ReadsNoScores)
    (hid : contactId contact = some id) {contact' : Contact} (hsame : Unscored contact' contact)
    (hdupe : isDupeContact contact' = isDupeContact contact)
    (hpoints : scoredI64 contact' "pts" = scoredI64 contact "pts")
    {multiplierOwners bonusOwners : KeyMap Int} {mults bonus : Int64}
    (hmultipliers : Ledger.Claimed (fun _ => (1 : Int64)) id
      (state.module.value.multiplierKeysFor contact) state.multiplierOwners multiplierOwners mults)
    (hmults : scoredI64 contact' "mult" = scoredI64 contact "mult" + mults)
    (hbonuses : Ledger.Claimed (state.bonusWorth contact) id
      ((state.module.value.bonusKeysFor contact).map Prod.fst) state.bonusOwners bonusOwners bonus)
    (hbonus : scoredI64 contact' "bonus" = scoredI64 contact "bonus" + bonus) :
    Credits { state with
        multiplierOwners := multiplierOwners
        bonusOwners := bonusOwners
        rawMultiplierCount := state.rawMultiplierCount + mults
        directBonusPoints := state.directBonusPoints + bonus } (contact' :: originals) := by
  have hfresh := h.fresh_of_cons hid
  constructor
  · intro other hmem
    rcases List.mem_cons.mp hmem with rfl | hmem
    · rw [hsame.contactId_eq, hid]; rfl
    · exact h.identified other (List.mem_cons_of_mem _ hmem)
  · rw [List.map_cons, hsame.contactId_eq]
    exact h.distinct
  · intro other hmem
    rcases List.mem_cons.mp hmem with rfl | hmem
    · rw [hdupe]
      exact h.original contact List.mem_cons_self
    · exact h.original other (List.mem_cons_of_mem _ hmem)
  · rw [h.points, List.map_cons, List.map_cons, List.sum_cons, List.sum_cons, hpoints]
  · rw [h.mults, List.map_cons, List.map_cons, List.sum_cons, List.sum_cons, hmults,
      add_right_comm]
  · rw [h.bonus, List.map_cons, List.map_cons, List.sum_cons, List.sum_cons, hbonus,
      add_right_comm]
  · intro other hmem
    rcases List.mem_cons.mp hmem with rfl | hmem
    · rw [hpoints, ContestScoringModule.qsoPointsFor_congr hreads hsame]
      exact h.scored contact List.mem_cons_self
    · exact h.scored other (List.mem_cons_of_mem _ hmem)
  · rw [hmultipliers.total, ← h.entries]
  · exact h.multipliers.claim mults hid hfresh hmultipliers hsame.contactId_eq rfl
      (ContestScoringModule.multiplierKeysFor_congr hreads hsame) hmults
  · refine h.bonuses.claim bonus hid hfresh hbonuses hsame.contactId_eq ?_ ?_ hbonus
    · funext key
      rw [IncrementalLogState.bonusWorth, IncrementalLogState.bonusWorth,
        ContestScoringModule.bonusKeysFor_congr hreads hsame]
    · rw [ContestScoringModule.bonusKeysFor_congr hreads hsame]
  · refine h.qsoCounts.congr fun key => ?_
    rw [List.map_cons, List.map_cons, List.sum_cons, List.sum_cons, qsoCountCredits,
      qsoCountCredits, hpoints, ContestScoringModule.qsoCountBonusKeysFor_congr hreads hsame]

/-- A free multiplier that an original carries is handed to it. -/
theorem creditMultiplier (h : Credits state (contact :: originals))
    (hreads : state.module.value.rules.scoring.ReadsNoScores)
    (hid : contactId contact = some id) {key : String}
    (hkey : key ∈ state.module.value.multiplierKeysFor contact)
    (hfree : key ∉ state.multiplierOwners) :
    Credits { state with
        multiplierOwners := state.multiplierOwners.insert key id
        rawMultiplierCount := state.rawMultiplierCount + 1 }
      (incrementContactScoreField contact "mult" 1 :: originals) := by
  have hclaim : Ledger.Claimed (fun _ => (1 : Int64)) id
      (state.module.value.multiplierKeysFor contact) state.multiplierOwners
      (state.multiplierOwners.insert key id) (0 + 1) :=
    (Ledger.Claimed.refl _ _ _ _).insert hkey hfree
  have hsame : Unscored (incrementContactScoreField contact "mult" 1) contact :=
    .incrementContactScoreField contact 1 (by decide)
  have hcredits := h.claim hreads hid hsame
    (isDupeContact_incrementContactScoreField contact 1 (by decide))
    (by simp [scoredI64_incrementContactScoreField]) hclaim
    (by simp [scoredI64_incrementContactScoreField]) (.refl _ _ _ _)
    (by simp [scoredI64_incrementContactScoreField])
  rwa [zero_add, add_zero] at hcredits

/-- A free bonus that an original carries is handed to it. -/
theorem creditBonus (h : Credits state (contact :: originals))
    (hreads : state.module.value.rules.scoring.ReadsNoScores)
    (hid : contactId contact = some id) {key : String}
    (hkey : key ∈ (state.module.value.bonusKeysFor contact).map Prod.fst)
    (hfree : key ∉ state.bonusOwners) :
    Credits { state with
        bonusOwners := state.bonusOwners.insert key id
        directBonusPoints := state.directBonusPoints + state.bonusWorth contact key }
      (incrementContactScoreField contact "bonus" (state.bonusWorth contact key) ::
        originals) := by
  have hclaim : Ledger.Claimed (state.bonusWorth contact) id
      ((state.module.value.bonusKeysFor contact).map Prod.fst) state.bonusOwners
      (state.bonusOwners.insert key id) (0 + state.bonusWorth contact key) :=
    (Ledger.Claimed.refl _ _ _ _).insert hkey hfree
  generalize state.bonusWorth contact key = points at hclaim ⊢
  have hsame : Unscored (incrementContactScoreField contact "bonus" points) contact :=
    .incrementContactScoreField contact points (by decide)
  have hcredits := h.claim hreads hid hsame
    (isDupeContact_incrementContactScoreField contact points (by decide))
    (by simp [scoredI64_incrementContactScoreField]) (.refl _ _ _ _)
    (by simp [scoredI64_incrementContactScoreField]) hclaim
    (by simp [scoredI64_incrementContactScoreField])
  rwa [add_zero, zero_add] at hcredits

end Credits

end Log73
