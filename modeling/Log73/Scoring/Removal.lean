import Log73.Scoring.Accounting

/-!
Removing one accounted contact: its scores are withdrawn, its dupe group gets a new
original, and the keys it owned are handed to the originals that carry them.
-/

namespace Log73

open Std

variable [Platform]

namespace IncrementalLogState

/-- Leaving a dupe group: either nobody takes over, or the contact found in the slice does. -/
theorem leaveDupeGroup_cases (state : IncrementalLogState) (deleted : Contact)
    (contacts : List Contact) (skip : Option Int) :
    let dupeCounts := (state.module.value.dupeKeyFor deleted).elim state.dupeCounts
      (decrementCount state.dupeCounts)
    (state.leaveDupeGroup deleted contacts skip =
        ({ state with
            dupeCounts := dupeCounts
            dupeOwners := Groups.departedOwners state deleted }, none) ∧
      ∀ key id, state.module.value.dupeKeyFor deleted = some key → contactId deleted = some id →
        state.dupeOwners[key]? = some id →
        ∀ contact ∈ contacts, state.isDupeReplacement key skip contact = false) ∨
    ∃ key id index replacement replacementId,
      state.module.value.dupeKeyFor deleted = some key ∧ contactId deleted = some id ∧
      state.dupeOwners[key]? = some id ∧
      contacts.findIdx? (state.isDupeReplacement key skip) = some index ∧
      contacts[index]? = some replacement ∧ contactId replacement = some replacementId ∧
      state.leaveDupeGroup deleted contacts skip =
        ({ state with
            dupeCounts := dupeCounts
            dupeOwners := (Groups.departedOwners state deleted).insert key replacementId },
          some index) := by
  simp only [leaveDupeGroup, Groups.departedOwners]
  cases hkey : state.module.value.dupeKeyFor deleted with
  | none => exact .inl ⟨rfl, by simp⟩
  | some key =>
      simp only [Option.elim_some]
      split
      · next howner =>
          rw [Bool.and_eq_true, beq_iff_eq] at howner
          obtain ⟨id, hid⟩ := Option.isSome_iff_exists.mp howner.1
          cases hfind : contacts.findIdx? (state.isDupeReplacement key skip) with
          | none =>
              refine .inl ⟨rfl, ?_⟩
              rintro k i hk - -
              obtain rfl : key = k := Option.some.inj hk
              exact Slices.not_mem_of_findIdx?_none hfind
          | some index =>
              obtain ⟨replacement, hget, hreplacement, -⟩ := Slices.getElem?_of_findIdx? hfind
              have hsome : (contactId replacement).isSome := by
                rw [isDupeReplacement, isCandidate] at hreplacement
                cases hr : contactId replacement with
                | none => simp [hr] at hreplacement
                | some _ => rfl
              obtain ⟨replacementId, hreplacementId⟩ := Option.isSome_iff_exists.mp hsome
              exact .inr ⟨key, id, index, replacement, replacementId, rfl, hid, hid ▸ howner.2,
                hfind, hget, hreplacementId, by simp [hget, hreplacementId]⟩
      · next howner =>
          refine .inl ⟨rfl, ?_⟩
          rintro k id hk hid howns
          obtain rfl : key = k := Option.some.inj hk
          refine absurd ?_ howner
          rw [Bool.and_eq_true, beq_iff_eq]
          exact ⟨hid ▸ rfl, hid ▸ howns⟩

end IncrementalLogState

namespace IncrementalLogState

variable (state : IncrementalLogState) (contact : Contact)

theorem scoreOriginal_sameGroups : SameGroups state (state.scoreOriginal contact).1 :=
  ⟨rfl, rfl, rfl, rfl⟩

theorem scoreOriginal_original : isDupeContact (state.scoreOriginal contact).2 = false :=
  isDupeContact_setContactScoreFields ..

/-- What scoring an original does to the owners of the multipliers. -/
theorem scoreOriginal_claimed {contact : Contact} {id : Int} (hid : contactId contact = some id) :
    ∃ gain, Ledger.Claimed (fun _ => (1 : Int64)) id
      (state.module.value.multiplierKeysFor contact) state.multiplierOwners
      (state.scoreOriginal contact).1.multiplierOwners gain := by
  simp only [scoreOriginal, scoreNonDupeContact, hid]
  exact ⟨_, creditMultipliers_claimed id _ _ _⟩

theorem scoreOriginal_claimed_bonus {contact : Contact} {id : Int}
    (hid : contactId contact = some id) :
    ∃ gain, Ledger.Claimed (state.bonusWorth contact) id
      ((state.module.value.bonusKeysFor contact).map Prod.fst) state.bonusOwners
      (state.scoreOriginal contact).1.bonusOwners gain := by
  simp only [scoreOriginal, scoreNonDupeContact, hid]
  exact ⟨_, creditBonuses_claimed id _ _⟩

theorem maxCount_eq_none (module : ContestScoringModule)
    (huncapped : module.hasCappedMultipliers = false) (contact : Contact) :
    ∀ candidate ∈ module.multiplierCandidatesFor contact, candidate.maxCount = none := by
  intro candidate hmem
  rw [ContestScoringModule.multiplierCandidatesFor] at hmem
  split at hmem
  · obtain ⟨rule, hrule, rfl⟩ := List.mem_map.mp hmem
    have hnot := List.any_eq_false.mp huncapped rule (List.mem_filter.mp hrule).1
    simpa using hnot
  · cases hmem

/-- Without caps an original ends up with all of its keys owned, by it or by another. -/
theorem scoreOriginal_covers {contact : Contact} {id : Int} (hid : contactId contact = some id)
    (huncapped : state.module.value.hasCappedMultipliers = false) :
    (∀ key ∈ state.module.value.multiplierKeysFor contact,
      key ∈ (state.scoreOriginal contact).1.multiplierOwners) ∧
    ∀ key ∈ (state.module.value.bonusKeysFor contact).map Prod.fst,
      key ∈ (state.scoreOriginal contact).1.bonusOwners := by
  simp only [scoreOriginal, scoreNonDupeContact, hid]
  constructor
  · intro key hkey
    exact (creditMultipliers_covers id _ _ _ (maxCount_eq_none _ huncapped contact) key).mpr
      (.inr hkey)
  · intro key hkey
    exact (creditBonuses_covers id _ _ key).mpr (.inr hkey)

end IncrementalLogState

theorem Balanced.withdraw {state : IncrementalLogState} {live : List Contact} {contact : Contact}
    {id : Int} (h : Balanced state (contact :: live)) (hid : contactId contact = some id) :
    Credits ((state.withdraw contact).releaseKeys (some id)) (live.filter isOriginal) := by
  cases hdupe : isDupeContact contact with
  | false => exact (h.credits_cons hdupe).withdraw hid
  | true =>
      have hcredits := h.credits
      rw [List.filter_cons_of_neg (by simp [isOriginal, hdupe])] at hcredits
      obtain ⟨-, hpoints, hmults, hbonus⟩ := h.groups.dupes contact List.mem_cons_self hdupe
      exact hcredits.withdraw_dupe hdupe hpoints hmults hbonus fun other hmem =>
        h.groups.fresh_of_cons hid other (List.mem_filter.mp hmem).1

omit [Platform] in
/-- Keys owned before the release of one party are owned after it or were freed. -/
theorem mem_release_or_freed (owners : KeyMap Int) (id : Int) {key : String} (h : key ∈ owners) :
    key ∈ Ledger.release owners id ∨ key ∈ Ledger.keysOf owners id := by
  rw [ExtTreeMap.mem_iff_isSome_getElem?] at h
  obtain ⟨j, hj⟩ := Option.isSome_iff_exists.mp h
  by_cases hji : j = id
  · exact .inr ((Ledger.mem_keysOf _ _ _).mpr (hji ▸ hj))
  · left
    rw [ExtTreeMap.mem_iff_isSome_getElem?, Ledger.getElem?_release, hj]
    simp [hji]

omit [Platform] in
theorem getElem?_of_release {owners : KeyMap Int} {id : Int} {key : String} {j : Int}
    (h : (Ledger.release owners id)[key]? = some j) : owners[key]? = some j := by
  rw [Ledger.getElem?_release, Option.filter_eq_some_iff] at h
  exact h.1

section Removal

variable {pending : List Int} {remaining : List Contact} {start sweep : Sweep}
  {skip : Option Int} {deleted : Contact} {id : Int}

/-- The sweep after the withdrawal and before the freed keys are handed out. -/
def Sweep.depart (sweep : Sweep) (deleted : Contact) (skip : Option Int) : Sweep :=
  let left := (sweep.state.withdraw deleted).leaveDupeGroup deleted sweep.contacts skip
  Sweep.promoteReplacement { sweep with state := left.1.releaseKeys (contactId deleted) } left.2

/-- What the searches of a removal find is accounted for. -/
structure SearchesSettled (pending : List Int) (skip : Option Int) (start : Sweep)
    (deleted : Contact) : Prop where
  dupes : ∀ key, start.state.module.value.dupeKeyFor deleted = some key →
    isDupeContact deleted = false → ∀ sweep, Tracks pending start sweep → ∀ index contact,
      sweep.contacts.findIdx? (sweep.state.isDupeReplacement key skip) = some index →
      sweep.contacts[index]? = some contact → settled pending contact = true
  multipliers : ∀ key, start.state.multiplierOwners[key]? = contactId deleted →
    ∀ sweep, Tracks pending start sweep → ∀ index contact,
      sweep.contacts.findIdx? (sweep.state.isMultiplierReplacement key skip) = some index →
      sweep.contacts[index]? = some contact → settled pending contact = true
  bonuses : ∀ key, start.state.bonusOwners[key]? = contactId deleted →
    ∀ sweep, Tracks pending start sweep → ∀ index contact,
      sweep.contacts.findIdx? (sweep.state.isBonusReplacement key skip) = some index →
      sweep.contacts[index]? = some contact → settled pending contact = true

theorem SweepOk.depart_none (h : SweepOk pending (deleted :: remaining) [] [] sweep)
    (hid : contactId deleted = some id) (heligible : Eligible pending skip)
    {state : IncrementalLogState}
    (hgroups : Groups state (sweep.contacts.filter (settled pending) ++ remaining))
    (hcredits : Credits state
      ((sweep.contacts.filter (settled pending) ++ remaining).filter isOriginal))
    (hmodule : state.module = sweep.state.module)
    (hmultipliers : state.multiplierOwners = Ledger.release sweep.state.multiplierOwners id)
    (hbonuses : state.bonusOwners = Ledger.release sweep.state.bonusOwners id)
    (hnone : ∀ key, sweep.state.module.value.dupeKeyFor deleted = some key →
      sweep.state.dupeOwners[key]? = some id →
      ∀ contact ∈ sweep.contacts, sweep.state.isDupeReplacement key skip contact = false) :
    SweepOk pending remaining (Ledger.keysOf sweep.state.multiplierOwners id)
      (Ledger.keysOf sweep.state.bonusOwners id) { sweep with state := state } := by
  refine ⟨by rw [hmodule]; exact h.rules, ⟨hgroups, hcredits⟩, ?_, ?_⟩
  · intro contact hmem key hkey
    simp only [hmodule] at hkey ⊢
    obtain ⟨original, horig, hnot, hgroup⟩ := h.dupes contact hmem key hkey
    rcases List.mem_append.mp horig with horig | horig
    · exact ⟨original, List.mem_append_left _ horig, hnot, hgroup⟩
    · rcases List.mem_cons.mp horig with rfl | horig
      · -- the original that left had no candidate in its group, but the contact is one
        have howner := (h.balanced.groups.owners key id).mpr
          ⟨original, List.mem_append_right _ List.mem_cons_self, hid, hnot, hgroup⟩
        have hcandidate := heligible contact (List.mem_filter.mp hmem).2 (h.identified hmem)
        have hfalse := hnone key hgroup howner contact (List.mem_filter.mp hmem).1
        simp [IncrementalLogState.isDupeReplacement, hcandidate, hkey] at hfalse
      · exact ⟨original, List.mem_append_right _ horig, hnot, hgroup⟩
  · intro contact hmem horiginal
    simp only [hmodule, hmultipliers, hbonuses]
    obtain ⟨hm, hb⟩ := h.keys contact hmem horiginal
    exact ⟨fun key hkey => mem_release_or_freed _ _ ((hm key hkey).resolve_right (by simp)),
      fun key hkey => mem_release_or_freed _ _ ((hb key hkey).resolve_right (by simp))⟩

/-- The state of a departure whose group gets a new original: groups and credits without the
contact that left, then with the promoted one. -/
theorem Balanced.promote {state departed : IncrementalLogState} {live : List Contact}
    {contact : Contact} {id : Int} {key : String} (hgroups : Groups departed (contact :: live))
    (hcredits : Credits state (live.filter isOriginal))
    (hreads : state.module.value.rules.scoring.ReadsNoScores)
    (hid : contactId contact = some id)
    (hkey : state.module.value.dupeKeyFor contact = some key) (hfree : key ∉ departed.dupeOwners)
    (hcount : state.totals.qsoCount = departed.totals.qsoCount)
    (hmodule : state.module = departed.module) (hcounts : state.dupeCounts = departed.dupeCounts)
    (howners : state.dupeOwners = departed.dupeOwners.insert key id) :
    Balanced (state.scoreOriginal contact).1 ((state.scoreOriginal contact).2 :: live) := by
  have hsame := state.scoreOriginal_unscored contact
  have horiginal := state.scoreOriginal_original contact
  refine .mk_cons ?_ ?_ horiginal
  · exact hgroups.promote (hmodule ▸ hreads) hid (hmodule ▸ hkey) hfree hsame horiginal hcount
      hmodule hcounts howners
  · exact hcredits.scoreOriginal hreads hid fun other hmem =>
      hgroups.fresh_of_cons hid other (List.mem_filter.mp hmem).1

/-- The contact at `index` takes over the dupe group that loses its original. -/
structure Promotion (pending : List Int) (sweep : Sweep) (deleted : Contact) (key : String)
    (index : Nat) (replacement : Contact) (replacementId : Int) : Prop where
  group : sweep.state.module.value.dupeKeyFor deleted = some key
  original : isDupeContact deleted = false
  found : sweep.contacts[index]? = some replacement
  identified : contactId replacement = some replacementId
  sameGroup : sweep.state.module.value.dupeKeyFor replacement = some key
  settled : settled pending replacement = true
  dupe : isDupeContact replacement = true

section Promotion

variable {key : String} {index : Nat} {replacement : Contact} {replacementId : Int}
  {state : IncrementalLogState}

theorem SweepOk.promotion (h : SweepOk pending (deleted :: remaining) [] [] sweep)
    (htracks : Tracks pending start sweep) (hid : contactId deleted = some id)
    (hpending : id ∈ pending) (hsearch : SearchesSettled pending skip start deleted)
    (hkey : sweep.state.module.value.dupeKeyFor deleted = some key)
    (howner : sweep.state.dupeOwners[key]? = some id)
    (hfind : sweep.contacts.findIdx? (sweep.state.isDupeReplacement key skip) = some index)
    (hget : sweep.contacts[index]? = some replacement)
    (hreplacementId : contactId replacement = some replacementId) :
    Promotion pending sweep deleted key index replacement replacementId := by
  have hgroups := (h.balanced.perm (List.perm_middle)).groups
  -- the contact that left owned its group, so it was the original
  have hdeletedOriginal : isDupeContact deleted = false := by
    obtain ⟨original, hmem, hi, hnot, -⟩ := (hgroups.owners key id).mp howner
    have heq : original = deleted := hgroups.eq_of_contactId hmem List.mem_cons_self
      (hi.trans hid.symm)
    exact heq ▸ hnot
  have hsettled : Log73.settled pending replacement = true :=
    hsearch.dupes key (htracks.module ▸ hkey) hdeletedOriginal sweep htracks index replacement
      hfind hget
  have hreplacementKey : sweep.state.module.value.dupeKeyFor replacement = some key := by
    obtain ⟨found, hfound, hmatch, -⟩ := Slices.getElem?_of_findIdx? hfind
    obtain rfl : found = replacement := Option.some.inj (hfound.symm.trans hget)
    simp only [IncrementalLogState.isDupeReplacement, Bool.and_eq_true, beq_iff_eq] at hmatch
    exact hmatch.2
  refine ⟨hkey, hdeletedOriginal, hget, hreplacementId, hreplacementKey, hsettled, ?_⟩
  by_contra hnot
  have hmem := List.mem_filter.mpr ⟨List.mem_of_getElem? hget, hsettled⟩
  have hsame := hgroups.original_unique (List.mem_cons_of_mem _ (List.mem_append_left _ hmem))
    List.mem_cons_self (by simpa using hnot) hdeletedOriginal hreplacementKey hkey
  have hsameId : replacementId = id :=
    Option.some.inj ((hsame ▸ hreplacementId).symm.trans hid)
  simp [Log73.settled, hreplacementId, hsameId, hpending] at hsettled

namespace Promotion

theorem not_mem_pending
    (p : Promotion pending sweep deleted key index replacement replacementId) :
    replacementId ∉ pending := by
  simpa [Log73.settled, p.identified] using p.settled

/-- The group without its original, before the replacement is entered as its owner. -/
theorem groups (p : Promotion pending sweep deleted key index replacement replacementId)
    (h : SweepOk pending (deleted :: remaining) [] [] sweep) (hid : contactId deleted = some id) :
    Groups { sweep.state.withdraw deleted with
      dupeCounts := (sweep.state.module.value.dupeKeyFor deleted).elim sweep.state.dupeCounts
        (decrementCount sweep.state.dupeCounts)
      dupeOwners := Groups.departedOwners (sweep.state.withdraw deleted) deleted }
      (replacement ::
        ((sweep.contacts.eraseIdx index).filter (Log73.settled pending) ++ remaining)) :=
  Groups.perm ((h.balanced.perm (List.perm_middle)).groups.depart hid rfl rfl rfl rfl)
    (live_perm p.found p.settled remaining)

theorem not_mem_departedOwners
    (p : Promotion pending sweep deleted key index replacement replacementId)
    (h : SweepOk pending (deleted :: remaining) [] [] sweep) (hid : contactId deleted = some id) :
    key ∉ Groups.departedOwners (sweep.state.withdraw deleted) deleted := by
  have hgroups := (h.balanced.perm (List.perm_middle)).groups
  have hlive := live_perm p.found p.settled remaining
  intro hmem
  rw [ExtTreeMap.mem_iff_isSome_getElem?] at hmem
  obtain ⟨i, hi⟩ := Option.isSome_iff_exists.mp hmem
  obtain ⟨original, horig, hi, hnot, hgroup⟩ := ((p.groups h hid).owners key i).mp hi
  have heq := hgroups.original_unique (List.mem_cons_of_mem _ (hlive.mem_iff.mpr horig))
    List.mem_cons_self hnot p.original hgroup p.group
  exact hgroups.fresh_of_cons hid original (hlive.mem_iff.mpr horig) (heq ▸ hid)

/-- The account with the promoted contact in the place of the one that left. -/
theorem balanced (p : Promotion pending sweep deleted key index replacement replacementId)
    (h : SweepOk pending (deleted :: remaining) [] [] sweep) (hid : contactId deleted = some id)
    (hmodule : state.module = sweep.state.module)
    (hcredits : SameCredits ((sweep.state.withdraw deleted).releaseKeys (some id)) state)
    (hcount : state.totals.qsoCount = (sweep.state.withdraw deleted).totals.qsoCount)
    (hcounts : state.dupeCounts = (sweep.state.module.value.dupeKeyFor deleted).elim
      sweep.state.dupeCounts (decrementCount sweep.state.dupeCounts))
    (howners : state.dupeOwners =
      (Groups.departedOwners (sweep.state.withdraw deleted) deleted).insert key replacementId) :
    Balanced (state.scoreOriginal replacement).1
      ((sweep.contacts.set index (state.scoreOriginal replacement).2).filter
        (Log73.settled pending) ++ remaining) := by
  have hsame := state.scoreOriginal_unscored replacement
  have hsettled := (settled_congr hsame.contactId_eq pending).trans p.settled
  have hlean := ((h.balanced.perm (List.perm_middle)).withdraw hid).perm
    ((live_perm p.found p.settled remaining).filter isOriginal)
  rw [List.filter_cons_of_neg (by simp [isOriginal, p.dupe])] at hlean
  exact Balanced.perm (.promote (p.groups h hid) (hlean.congr hcredits) (hmodule ▸ h.rules.reads)
    p.identified (hmodule ▸ p.sameGroup) (p.not_mem_departedOwners h hid) hcount hmodule hcounts
    howners) (live_set_perm p.found hsettled remaining).symm

/-- A contact accounted for afterwards is the promoted one or was accounted for before. -/
theorem mem_cases (p : Promotion pending sweep deleted key index replacement replacementId)
    {other : Contact}
    (hother : other ∈ (sweep.contacts.set index (state.scoreOriginal replacement).2).filter
      (Log73.settled pending)) :
    other = (state.scoreOriginal replacement).2 ∨
      other ∈ sweep.contacts.filter (Log73.settled pending) := by
  have hsettled := (settled_congr (state.scoreOriginal_unscored replacement).contactId_eq
    pending).trans p.settled
  have hslice := Slices.filter_set_perm_of_pos _ p.found hsettled
  cases List.mem_cons.mp (hslice.mem_iff.mp hother) with
  | inl heq => exact .inl heq
  | inr hother =>
      refine .inr ((Slices.filter_perm_of_pos _ p.found p.settled).mem_iff.mpr ?_)
      exact List.mem_cons_of_mem _ hother

theorem dupes (p : Promotion pending sweep deleted key index replacement replacementId)
    (h : SweepOk pending (deleted :: remaining) [] [] sweep)
    (hmodule : state.module = sweep.state.module) :
    DupesCovered (state.scoreOriginal replacement).1
      ((sweep.contacts.set index (state.scoreOriginal replacement).2).filter
        (Log73.settled pending))
      ((sweep.contacts.set index (state.scoreOriginal replacement).2).filter
        (Log73.settled pending) ++ remaining) := by
  have hreads := h.rules.reads
  have hsame := state.scoreOriginal_unscored replacement
  have hsettled := (settled_congr hsame.contactId_eq pending).trans p.settled
  have hlive := live_set_perm p.found hsettled remaining
  intro contact hcontact k hk
  simp only [(state.scoreOriginal_sameGroups replacement).module, hmodule] at hk ⊢
  have hk' : ∃ original ∈ sweep.contacts.filter (Log73.settled pending) ++ deleted :: remaining,
      isDupeContact original = false ∧
        sweep.state.module.value.dupeKeyFor original = some k := by
    cases p.mem_cases hcontact with
    | inl heq =>
        rw [heq, ContestScoringModule.dupeKeyFor_congr hreads hsame] at hk
        exact h.dupes replacement
          (List.mem_filter.mpr ⟨List.mem_of_getElem? p.found, p.settled⟩) k hk
    | inr hcontact => exact h.dupes contact hcontact k hk
  obtain ⟨original, horig, hnot, hgroup⟩ := hk'
  rcases List.mem_cons.mp (List.perm_middle.mem_iff.mp horig) with rfl | horig
  · -- the group that lost its original has the promoted contact
    refine ⟨_, hlive.mem_iff.mpr List.mem_cons_self, state.scoreOriginal_original replacement, ?_⟩
    rw [ContestScoringModule.dupeKeyFor_congr hreads hsame, p.sameGroup]
    exact p.group.symm.trans hgroup
  · rcases List.mem_cons.mp ((live_perm p.found p.settled remaining).mem_iff.mp horig) with
      rfl | horig
    · cases p.dupe.symm.trans hnot
    · exact ⟨original, hlive.mem_iff.mpr (List.mem_cons_of_mem _ horig), hnot, hgroup⟩

theorem keys (p : Promotion pending sweep deleted key index replacement replacementId)
    (h : SweepOk pending (deleted :: remaining) [] [] sweep)
    (hmodule : state.module = sweep.state.module)
    (hmultipliers : state.multiplierOwners = Ledger.release sweep.state.multiplierOwners id)
    (hbonuses : state.bonusOwners = Ledger.release sweep.state.bonusOwners id) :
    KeysOwned (state.scoreOriginal replacement).1
      ((sweep.contacts.set index (state.scoreOriginal replacement).2).filter
        (Log73.settled pending))
      (Ledger.keysOf sweep.state.multiplierOwners id)
      (Ledger.keysOf sweep.state.bonusOwners id) := by
  have hreads := h.rules.reads
  have hsame := state.scoreOriginal_unscored replacement
  intro contact hcontact hnot
  simp only [(state.scoreOriginal_sameGroups replacement).module, hmodule]
  cases p.mem_cases hcontact with
  | inl heq =>
      have hcovers := state.scoreOriginal_covers p.identified (hmodule ▸ h.rules.uncapped)
      rw [heq, ContestScoringModule.multiplierKeysFor_congr hreads hsame,
        ContestScoringModule.bonusKeysFor_congr hreads hsame]
      exact ⟨fun k hk => .inl (hcovers.1 k (hmodule ▸ hk)),
        fun k hk => .inl (hcovers.2 k (hmodule ▸ hk))⟩
  | inr hcontact =>
      obtain ⟨_, hclaimM⟩ := state.scoreOriginal_claimed p.identified
      obtain ⟨_, hclaimB⟩ := state.scoreOriginal_claimed_bonus p.identified
      obtain ⟨hm, hb⟩ := h.keys contact hcontact hnot
      refine ⟨fun k hk => ?_, fun k hk => ?_⟩
      · refine (mem_release_or_freed _ id ((hm k hk).resolve_right (by simp))).imp_left
          fun hin => ?_
        exact hclaimM.mem (hmultipliers ▸ hin)
      · refine (mem_release_or_freed _ id ((hb k hk).resolve_right (by simp))).imp_left
          fun hin => ?_
        exact hclaimB.mem (hbonuses ▸ hin)

theorem tracks (p : Promotion pending sweep deleted key index replacement replacementId)
    (htracks : Tracks pending start sweep) (hmodule : state.module = sweep.state.module)
    (hmultipliers : state.multiplierOwners = Ledger.release sweep.state.multiplierOwners id)
    (hbonuses : state.bonusOwners = Ledger.release sweep.state.bonusOwners id)
    (changed : List Int) :
    Tracks pending start
      { state := (state.scoreOriginal replacement).1
        contacts := sweep.contacts.set index (state.scoreOriginal replacement).2
        changed := changed } := by
  obtain ⟨_, hclaimM⟩ := state.scoreOriginal_claimed p.identified
  obtain ⟨_, hclaimB⟩ := state.scoreOriginal_claimed_bonus p.identified
  refine htracks.set p.found ⟨state.scoreOriginal_unscored replacement,
    fun _ => state.scoreOriginal_original replacement⟩
    (by rw [(state.scoreOriginal_sameGroups replacement).module, hmodule]) ?_ ?_ _
  · intro k i hi howns
    cases hclaimM.owner_cases howns with
    | inl howns => exact getElem?_of_release (hmultipliers ▸ howns)
    | inr hclaimed => exact absurd (hclaimed.1 ▸ hi) p.not_mem_pending
  · intro k i hi howns
    cases hclaimB.owner_cases howns with
    | inl howns => exact getElem?_of_release (hbonuses ▸ howns)
    | inr hclaimed => exact absurd (hclaimed.1 ▸ hi) p.not_mem_pending

end Promotion

end Promotion

theorem SweepOk.depart (h : SweepOk pending (deleted :: remaining) [] [] sweep)
    (htracks : Tracks pending start sweep) (hid : contactId deleted = some id)
    (hpending : id ∈ pending) (heligible : Eligible pending skip)
    (hsearch : SearchesSettled pending skip start deleted) :
    SweepOk pending remaining (Ledger.keysOf sweep.state.multiplierOwners id)
      (Ledger.keysOf sweep.state.bonusOwners id) (sweep.depart deleted skip) ∧
      Tracks pending start (sweep.depart deleted skip) := by
  have hbalanced := h.balanced.perm (List.perm_middle)
  rw [Sweep.depart, hid]
  rcases (sweep.state.withdraw deleted).leaveDupeGroup_cases deleted sweep.contacts skip with
    ⟨hleave, hnone⟩ |
    ⟨key, id', index, replacement, replacementId, hkey, hid', howner, hfind, hget, hreplacementId,
      hleave⟩
  · rw [hleave]
    refine ⟨h.depart_none hid heligible ?_ ?_ rfl rfl rfl ?_, ?_⟩
    · exact hbalanced.groups.depart hid rfl rfl rfl rfl
    · exact (hbalanced.withdraw hid).congr ⟨rfl, rfl, rfl, rfl, rfl, rfl, rfl⟩
    · exact fun key hkey howner => hnone key id hkey hid howner
    · exact ⟨htracks.module, htracks.length, htracks.evolves,
        fun key i hi howner => htracks.multiplierOwners key i hi (getElem?_of_release howner),
        fun key i hi howner => htracks.bonusOwners key i hi (getElem?_of_release howner)⟩
  · obtain rfl : id = id' := Option.some.inj (hid.symm.trans hid')
    rw [hleave]
    have p := h.promotion htracks hid hpending hsearch hkey howner hfind hget hreplacementId
    simp only [Sweep.promoteReplacement, Option.elim_some, Sweep.promoteContact, hget, p.dupe,
      if_true, hreplacementId]
    generalize hstate : IncrementalLogState.releaseKeys _ _ = state
    have hmodule : state.module = sweep.state.module := by rw [← hstate]; rfl
    have hmultipliers : state.multiplierOwners =
        Ledger.release sweep.state.multiplierOwners id := by
      rw [← hstate]; rfl
    have hbonuses : state.bonusOwners = Ledger.release sweep.state.bonusOwners id := by
      rw [← hstate]; rfl
    refine ⟨⟨?_, ?_, p.dupes h hmodule, p.keys h hmodule hmultipliers hbonuses⟩,
      p.tracks htracks hmodule hmultipliers hbonuses _⟩
    · exact (hmodule ▸ h.rules : PlainRules state.module.value)
    · exact hstate ▸ p.balanced h hid rfl ⟨rfl, rfl, rfl, rfl, rfl, rfl, rfl⟩ rfl rfl rfl

/-- Once each of the keys was looked for, none is owed. -/
theorem SweepOk.Owing.reassignKeys (kind : KeyKind) {others : List String} (keys : List String)
    (h : SweepOk.Owing kind pending remaining keys others sweep)
    (htracks : Tracks pending start sweep)
    (heligible : Eligible pending skip)
    (hsearch : ∀ key ∈ keys, ∀ sweep, Tracks pending start sweep → ∀ index contact,
      sweep.contacts.findIdx? (kind.isReplacement sweep.state key skip) = some index →
      sweep.contacts[index]? = some contact → settled pending contact = true) :
    SweepOk.Owing kind pending remaining [] others
        (keys.foldl (fun sweep key => sweep.reassignKey kind skip key) sweep) ∧
      Tracks pending start
        (keys.foldl (fun sweep key => sweep.reassignKey kind skip key) sweep) := by
  induction keys generalizing sweep with
  | nil => exact ⟨h, htracks⟩
  | cons key keys ih =>
      have hstep := h.reassignKey htracks heligible (hsearch key List.mem_cons_self sweep htracks)
      exact ih hstep.1 hstep.2 fun k hk => hsearch k (List.mem_cons_of_mem _ hk)

theorem SweepOk.recalculateScore {todoMultipliers todoBonuses : List String}
    (h : SweepOk pending remaining todoMultipliers todoBonuses sweep) :
    SweepOk pending remaining todoMultipliers todoBonuses sweep.recalculateScore :=
  ⟨h.rules, h.balanced.recalculateScore, h.dupes, h.keys⟩

theorem Tracks.recalculateScore (h : Tracks pending start sweep) :
    Tracks pending start sweep.recalculateScore :=
  ⟨h.module, h.length, h.evolves, h.multiplierOwners, h.bonusOwners⟩

/-- The steps of `remove_contact` after the departure. -/
theorem Sweep.removeContact_eq (sweep : Sweep) (hid : contactId deleted = some id) :
    sweep.removeContact deleted skip =
      (((sweep.depart deleted skip).reassignMultipliers skip
        (Ledger.keysOf sweep.state.multiplierOwners id)).reassignBonuses skip
          (Ledger.keysOf sweep.state.bonusOwners id)).recalculateScore := by
  have howners : ∀ state : IncrementalLogState,
      (state.leaveDupeGroup deleted sweep.contacts skip).1.multiplierOwners =
          state.multiplierOwners ∧
        (state.leaveDupeGroup deleted sweep.contacts skip).1.bonusOwners = state.bonusOwners := by
    intro state
    rcases state.leaveDupeGroup_cases deleted sweep.contacts skip with
      ⟨hleave, -⟩ | ⟨_, _, _, _, _, -, -, -, -, -, -, hleave⟩ <;> rw [hleave] <;> exact ⟨rfl, rfl⟩
  obtain ⟨hm, hb⟩ := howners (sweep.state.withdraw deleted)
  simp only [Sweep.removeContact, Sweep.depart, IncrementalLogState.freedKeys, hid,
    Option.elim_some, hm, hb]
  rfl

/-- Removing a contact keeps the account of all the others, when its searches find
contacts that are accounted for. -/
theorem SweepOk.removeContact (h : SweepOk pending (deleted :: remaining) [] [] sweep)
    (htracks : Tracks pending start sweep) (hid : contactId deleted = some id)
    (hpending : id ∈ pending) (heligible : Eligible pending skip)
    (hsearch : SearchesSettled pending skip start deleted) :
    SweepOk pending remaining [] [] (sweep.removeContact deleted skip) ∧
      Tracks pending start (sweep.removeContact deleted skip) := by
  obtain ⟨hdepart, htracks'⟩ := h.depart htracks hid hpending heligible hsearch
  obtain ⟨hmults, htracks'⟩ := SweepOk.Owing.reassignKeys .multiplier _ hdepart htracks'
    heligible fun key hkey => hsearch.multipliers key (by
      rw [hid]
      exact htracks.multiplierOwners key id hpending ((Ledger.mem_keysOf _ _ _).mp hkey))
  obtain ⟨hbonuses, htracks'⟩ := SweepOk.Owing.reassignKeys .bonus _ hmults htracks'
    heligible fun key hkey => hsearch.bonuses key (by
      rw [hid]
      exact htracks.bonusOwners key id hpending ((Ledger.mem_keysOf _ _ _).mp hkey))
  rw [sweep.removeContact_eq hid]
  exact ⟨hbonuses.recalculateScore, htracks'.recalculateScore⟩

end Removal

end Log73
