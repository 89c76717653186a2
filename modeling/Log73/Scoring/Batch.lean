import Log73.Scoring.Removal

/-!
Whole batches: a reset scores a list from nothing, an upsert removes the replaced
versions and scores the committed contacts, a deletion removes one contact. After
each of them the tracker accounts for the contacts of the slice.
-/

namespace Log73

open Std

variable [Platform]

/-- Take a candidate whose key is new, while the caps allow. -/
def earnMultiplier (earned : KeyMap Unit × KeyMap Nat) (candidate : MultiplierCandidate) :
    KeyMap Unit × KeyMap Nat :=
  if earned.1.contains candidate.key || candidate.capReached earned.2 then earned
  else (earned.1.insert candidate.key (), bump earned.2 candidate.capKey)

def earnedMultipliers (module : ContestScoringModule) (contacts : List Contact) :
    KeyMap Unit × KeyMap Nat :=
  (contacts.filter isOriginal).foldl
    (fun earned contact => (module.multiplierCandidatesFor contact).foldl earnMultiplier earned)
    (∅, ∅)

/-- The multiplier keys the contacts earn that are not marked dupes; without caps these are
the keys that any of them carries. -/
def EarnedMultiplierKey (module : ContestScoringModule) (contacts : List Contact) (key : String) :
    Prop :=
  if module.hasCappedMultipliers then key ∈ (earnedMultipliers module contacts).1
  else ∃ contact ∈ contacts, isDupeContact contact = false ∧
    key ∈ module.multiplierKeysFor contact

/-- The totals of the tracker are the sums over the contacts, the owned multipliers are the
earned ones, and every dupe group has exactly one original. -/
structure Accounted (state : IncrementalLogState) (contacts : List Contact) : Prop where
  qsoCount : state.totals.qsoCount = contacts.length
  qsoPoints : state.totals.qsoPoints = (contacts.map (scoredI64 · "pts")).sum
  rawMultiplierCount : state.rawMultiplierCount = (contacts.map (scoredI64 · "mult")).sum
  multiplierEntries : state.rawMultiplierCount = Int64.ofNat state.multiplierOwners.size
  directBonusPoints : state.directBonusPoints = (contacts.map (scoredI64 · "bonus")).sum
  multiplierKeys : ∀ key, key ∈ state.multiplierOwners ↔
    EarnedMultiplierKey state.module.value contacts key
  originals : ∀ key, (∃ contact ∈ contacts, state.module.value.dupeKeyFor contact = some key) →
    ∃! contact, contact ∈ contacts ∧ state.module.value.dupeKeyFor contact = some key ∧
      isDupeContact contact = false

omit [Platform] in
/-- Sums over all contacts are sums over the originals, where dupes add nothing. -/
theorem sum_originals (f : Contact → Int64) (contacts : List Contact)
    (hzero : ∀ contact ∈ contacts, isDupeContact contact = true → f contact = 0) :
    ((contacts.filter isOriginal).map f).sum = (contacts.map f).sum := by
  induction contacts with
  | nil => rfl
  | cons contact contacts ih =>
      have hrest := ih fun c hc => hzero c (List.mem_cons_of_mem _ hc)
      rw [List.filter_cons, List.map_cons, List.sum_cons, ← hrest]
      cases hdupe : isDupeContact contact with
      | false => simp [isOriginal, hdupe]
      | true => simp [isOriginal, hdupe, hzero contact List.mem_cons_self hdupe]

omit [Platform] in
theorem total_one_eq_size (owners : KeyMap Int) :
    Ledger.total (fun _ => (1 : Int64)) owners = Int64.ofNat owners.size := by
  rw [Ledger.total, ← ExtTreeMap.length_toList]
  generalize owners.toList = entries
  induction entries with
  | nil => rfl
  | cons entry entries ih =>
      rw [List.map_cons, List.sum_cons, ih, List.length_cons, MachineInt.ofNat_succ, add_comm]

namespace Balanced

variable {state : IncrementalLogState} {live : List Contact} {contact : Contact} {id : Int}

/-- Groups and credits give every equation of the account but the earned keys. -/
theorem accounted (h : Balanced state live) (hdupes : DupesCovered state live live)
    (hkeys : ∀ key, key ∈ state.multiplierOwners ↔
      EarnedMultiplierKey state.module.value live key) : Accounted state live where
  qsoCount := h.groups.count
  qsoPoints := h.credits.points.trans <|
    sum_originals _ live fun c hc hdupe => (h.groups.dupes c hc hdupe).2.1
  rawMultiplierCount := h.credits.mults.trans <|
    sum_originals _ live fun c hc hdupe => (h.groups.dupes c hc hdupe).2.2.1
  multiplierEntries := h.credits.entries.trans (total_one_eq_size _)
  directBonusPoints := h.credits.bonus.trans <|
    sum_originals _ live fun c hc hdupe => (h.groups.dupes c hc hdupe).2.2.2
  multiplierKeys := hkeys
  originals key := by
    rintro ⟨contact, hmem, hkey⟩
    obtain ⟨original, horig, hnot, hgroup⟩ := hdupes contact hmem key hkey
    refine ⟨original, ⟨horig, hgroup, hnot⟩, ?_⟩
    rintro other ⟨hother, hkey', hnot'⟩
    exact h.groups.original_unique hother horig hnot' hnot hkey' hgroup

theorem empty (module : Arc ContestScoringModule) : Balanced { module := module } [] where
  groups := ⟨by simp, by simp, rfl, Tally.Represents.empty, by simp, by simp⟩
  credits := by
    refine ⟨by simp, by simp, by simp, rfl, rfl, rfl, by simp, ?_, ⟨by simp, by simp⟩,
      ⟨by simp, by simp⟩, Tally.Represents.empty⟩
    simp [Ledger.total]

end Balanced

namespace IncrementalLogState

variable (state : IncrementalLogState) (contact : Contact)

theorem joinDupeGroup_totals (totals : ScoreTotals) :
    ({ state with totals := totals } : IncrementalLogState).joinDupeGroup contact =
      ({ (state.joinDupeGroup contact).1 with totals := totals },
        (state.joinDupeGroup contact).2) := by
  simp only [joinDupeGroup]
  cases state.module.value.dupeKeyFor contact <;> rfl

theorem joinDupeGroup_sameCredits : SameCredits state (state.joinDupeGroup contact).1 := by
  rw [joinDupeGroup]
  cases state.module.value.dupeKeyFor contact <;> exact ⟨rfl, rfl, rfl, rfl, rfl, rfl, rfl⟩

/-- The state a contact is scored in as an original: counted and in its group. -/
def joined : IncrementalLogState :=
  { (state.joinDupeGroup contact).1 with
    totals := { state.totals with qsoCount := state.totals.qsoCount + 1 } }

theorem joined_sameCredits : SameCredits state (state.joined contact) := by
  have h := state.joinDupeGroup_sameCredits contact
  exact ⟨h.module, rfl, h.mults, h.bonus, h.multiplierOwners, h.bonusOwners, h.qsoCounts⟩

theorem addContact_eq : state.addContact contact =
    if (state.joinDupeGroup contact).2 then
      ((state.joined contact).recalculateScore, setContactScoreFields contact 0 0 0 true)
    else
      (((state.joined contact).scoreOriginal contact).1.recalculateScore,
        ((state.joined contact).scoreOriginal contact).2) := by
  rw [addContact, joinDupeGroup_totals]
  rfl

theorem addContact_module : (state.addContact contact).1.module = state.module := by
  rw [addContact_eq]
  split <;> exact (state.joined_sameCredits contact).module

theorem addContact_isDupe :
    isDupeContact (state.addContact contact).2 = (state.joinDupeGroup contact).2 := by
  rw [addContact_eq]
  split
  · next h => rw [h, isDupeContact_setContactScoreFields]
  · next h => rw [scoreOriginal_original]; simpa using h

end IncrementalLogState

namespace Balanced

variable {state : IncrementalLogState} {live : List Contact} {contact : Contact} {id : Int}

/-- A new contact is scored: as a dupe when its group has a contact, else as an original. -/
theorem addContact (h : Balanced state live)
    (hreads : state.module.value.rules.scoring.ReadsNoScores)
    (hid : contactId contact = some id) (hfresh : ∀ other ∈ live, contactId other ≠ some id) :
    Balanced (state.addContact contact).1 ((state.addContact contact).2 :: live) := by
  have hjoined := h.credits.congr (state.joined_sameCredits contact)
  have hmodule := (state.joined_sameCredits contact).module
  have hjoin : ∀ contact', Unscored contact' contact →
      isDupeContact contact' = (state.joinDupeGroup contact).2 →
      (isDupeContact contact' = true → scoredI64 contact' "pts" = 0 ∧
        scoredI64 contact' "mult" = 0 ∧ scoredI64 contact' "bonus" = 0) →
      Groups (state.joined contact) (contact' :: live) := fun contact' hsame hflag hzero =>
    h.groups.join hreads hid hfresh hsame hflag hzero rfl hmodule rfl rfl
  rw [state.addContact_eq]
  cases hdupe : (state.joinDupeGroup contact).2 with
  | true =>
      simp only [if_true]
      refine recalculateScore ⟨hjoin _ (.setContactScoreFields ..) (by simp [hdupe]) (by simp), ?_⟩
      rw [List.filter_cons_of_neg (by simp [isOriginal])]
      exact hjoined
  | false =>
      simp only [Bool.false_eq_true, if_false]
      have hsame := (state.joined contact).scoreOriginal_unscored contact
      have horiginal := (state.joined contact).scoreOriginal_original contact
      have hgroups := hjoin _ hsame (by rw [horiginal, hdupe]) (by simp [horiginal])
      refine recalculateScore (mk_cons ?_ ?_ horiginal)
      · exact hgroups.congr ((state.joined contact).scoreOriginal_sameGroups contact)
      · exact hjoined.scoreOriginal (hmodule ▸ hreads) hid fun other hmem =>
          hfresh other (List.mem_filter.mp hmem).1

end Balanced

/-- Every group of the contacts keeps an original when one more contact is scored. -/
theorem DupesCovered.addContact {state : IncrementalLogState} {live : List Contact}
    {contact : Contact} (h : DupesCovered state live live) (hgroups : Groups state live)
    (hreads : state.module.value.rules.scoring.ReadsNoScores) :
    DupesCovered (state.addContact contact).1 ((state.addContact contact).2 :: live)
      ((state.addContact contact).2 :: live) := by
  intro other hmem key hkey
  rw [state.addContact_module] at hkey ⊢
  have hsame := ContestScoringModule.dupeKeyFor_congr hreads (state.addContact_unscored contact)
  by_cases hgroup : ∃ member ∈ live, state.module.value.dupeKeyFor member = some key
  · obtain ⟨member, hmember, hkey⟩ := hgroup
    obtain ⟨original, horig, hrest⟩ := h member hmember key hkey
    exact ⟨original, List.mem_cons_of_mem _ horig, hrest⟩
  · rcases List.mem_cons.mp hmem with rfl | hmem
    · refine ⟨_, List.mem_cons_self, ?_, hkey⟩
      rw [state.addContact_isDupe, Bool.eq_false_iff]
      intro hdupe
      obtain ⟨key', hkey', member, hmember, hmemberKey⟩ :=
        (hgroups.joinDupeGroup_snd contact).mp hdupe
      obtain rfl : key' = key := Option.some.inj (hkey'.symm.trans (hsame.symm.trans hkey))
      exact hgroup ⟨member, hmember, hmemberKey⟩
    · exact absurd ⟨other, hmem, hkey⟩ hgroup

/-- Without caps every key of an original is owned, also after one more contact. -/
theorem KeysOwned.addContact {state : IncrementalLogState} {live : List Contact}
    {contact : Contact} {id : Int} (h : KeysOwned state live [] [])
    (hrules : PlainRules state.module.value) (hid : contactId contact = some id) :
    KeysOwned (state.addContact contact).1 ((state.addContact contact).2 :: live) [] [] := by
  have hsame := state.joined_sameCredits contact
  have howners : (∀ key ∈ state.multiplierOwners,
      key ∈ (state.addContact contact).1.multiplierOwners) ∧
      ∀ key ∈ state.bonusOwners, key ∈ (state.addContact contact).1.bonusOwners := by
    rw [state.addContact_eq]
    split
    · exact ⟨fun key hkey => hsame.multiplierOwners ▸ hkey,
        fun key hkey => hsame.bonusOwners ▸ hkey⟩
    · obtain ⟨_, hm⟩ := (state.joined contact).scoreOriginal_claimed hid
      obtain ⟨_, hb⟩ := (state.joined contact).scoreOriginal_claimed_bonus hid
      exact ⟨fun key hkey => hm.mem (hsame.multiplierOwners ▸ hkey),
        fun key hkey => hb.mem (hsame.bonusOwners ▸ hkey)⟩
  intro other hmem horiginal
  rw [state.addContact_module]
  rcases List.mem_cons.mp hmem with rfl | hmem
  · rw [ContestScoringModule.multiplierKeysFor_congr hrules.reads
      (state.addContact_unscored contact),
      ContestScoringModule.bonusKeysFor_congr hrules.reads (state.addContact_unscored contact)]
    rw [state.addContact_isDupe] at horiginal
    rw [state.addContact_eq, horiginal]
    obtain ⟨hm, hb⟩ := (state.joined contact).scoreOriginal_covers hid
      (hsame.module ▸ hrules.uncapped)
    rw [hsame.module] at hm hb
    exact ⟨fun key hkey => .inl (hm key hkey), fun key hkey => .inl (hb key hkey)⟩
  · obtain ⟨hm, hb⟩ := h other hmem horiginal
    exact ⟨fun key hkey => .inl (howners.1 key ((hm key hkey).resolve_right (by simp))),
      fun key hkey => .inl (howners.2 key ((hb key hkey).resolve_right (by simp)))⟩

omit [Platform] in
/-- The multiplier loop of the tracker takes the candidates that are earned. -/
theorem creditMultipliers_earned (id : Int) (candidates : List MultiplierCandidate)
    (owners : KeyMap Int) (counts : KeyMap Nat) (earned : KeyMap Unit × KeyMap Nat)
    (hkeys : ∀ key, key ∈ earned.1 ↔ key ∈ owners) (hcounts : earned.2 = counts) :
    let result := IncrementalLogState.creditMultipliers (some id) candidates owners counts
    (∀ key, key ∈ (candidates.foldl earnMultiplier earned).1 ↔ key ∈ result.1) ∧
      (candidates.foldl earnMultiplier earned).2 = result.2.1 := by
  simp only [IncrementalLogState.creditMultipliers]
  generalize (0 : Int64) = mults
  induction candidates generalizing owners counts earned mults with
  | nil => exact ⟨hkeys, hcounts⟩
  | cons candidate candidates ih =>
      simp only [List.foldl_cons, earnMultiplier, Ledger.contains_congr _ _ hkeys, hcounts]
      split
      · exact ih owners counts earned hkeys hcounts mults
      · exact ih _ _ _ (Ledger.mem_insert_congr _ _ hkeys _ _ _) rfl _

/-- The tracker accounts for a list, and without caps owes nothing on it. -/
structure Kept (state : IncrementalLogState) (contacts : List Contact) : Prop where
  reads : state.module.value.rules.scoring.ReadsNoScores
  balanced : Balanced state contacts
  dupes : DupesCovered state contacts contacts
  keys : state.module.value.hasCappedMultipliers = false → KeysOwned state contacts [] []

/-- Without caps the owned keys are the keys of the originals. -/
theorem Kept.earned {state : IncrementalLogState} {contacts : List Contact}
    (h : Kept state contacts) (huncapped : state.module.value.hasCappedMultipliers = false)
    (key : String) : key ∈ state.multiplierOwners ↔
      EarnedMultiplierKey state.module.value contacts key := by
  rw [EarnedMultiplierKey, huncapped]
  simp only [Bool.false_eq_true, if_false]
  constructor
  · intro hmem
    rw [ExtTreeMap.mem_iff_isSome_getElem?] at hmem
    obtain ⟨id, hid⟩ := Option.isSome_iff_exists.mp hmem
    obtain ⟨contact, horig, -, hkey⟩ := h.balanced.credits.multipliers.grounded key id hid
    obtain ⟨hcontact, hnot⟩ := List.mem_filter.mp horig
    exact ⟨contact, hcontact, by simpa [isOriginal] using hnot, hkey⟩
  · rintro ⟨contact, hmem, hnot, hkey⟩
    exact ((h.keys huncapped contact hmem hnot).1 key hkey).resolve_right (by simp)

section Reset

variable {state : IncrementalLogState} {live contacts : List Contact}

/-- Scoring a list on top of the contacts already accounted for. -/
theorem Kept.addContacts (h : Kept state live)
    (hids : ∀ contact ∈ contacts, (contactId contact).isSome)
    (hdistinct : (contacts.map contactId).Nodup)
    (hfresh : ∀ contact ∈ contacts, ∀ other ∈ live, contactId other ≠ contactId contact) :
    Kept (state.addContacts contacts).1 ((state.addContacts contacts).2 ++ live) ∧
      (state.addContacts contacts).1.module = state.module ∧
      List.Forall₂ Unscored (state.addContacts contacts).2 contacts := by
  induction contacts generalizing state live with
  | nil => exact ⟨h, rfl, .nil⟩
  | cons contact contacts ih =>
      obtain ⟨id, hid⟩ := Option.isSome_iff_exists.mp (hids contact List.mem_cons_self)
      have hnot := List.nodup_cons.mp hdistinct
      have hmodule := state.addContact_module contact
      have hsame := state.addContact_unscored contact
      have hstep : Kept (state.addContact contact).1 ((state.addContact contact).2 :: live) :=
        ⟨hmodule ▸ h.reads,
          h.balanced.addContact h.reads hid fun other hmem =>
            hid ▸ hfresh contact List.mem_cons_self other hmem,
          h.dupes.addContact h.balanced.groups h.reads,
          fun huncapped => (h.keys (hmodule ▸ huncapped)).addContact
            ⟨hmodule ▸ huncapped, h.reads⟩ hid⟩
      obtain ⟨hkept, hmodule', hall⟩ := ih hstep
        (fun c hc => hids c (List.mem_cons_of_mem _ hc)) hnot.2 (by
          intro c hc other hmem
          rcases List.mem_cons.mp hmem with rfl | hmem
          · rw [hsame.contactId_eq]
            exact fun heq => hnot.1 (heq ▸ List.mem_map_of_mem hc)
          · exact hfresh c (List.mem_cons_of_mem _ hc) other hmem)
      refine ⟨?_, hmodule'.trans hmodule, .cons hsame hall⟩
      have hperm : ((state.addContact contact).1.addContacts contacts).2 ++
          (state.addContact contact).2 :: live |>.Perm
          ((state.addContact contact).2 ::
            (((state.addContact contact).1.addContacts contacts).2 ++ live)) := List.perm_middle
      refine ⟨hkept.reads, hkept.balanced.perm hperm, ?_, fun huncapped => ?_⟩
      · intro other hmem key hkey
        obtain ⟨original, horig, hrest⟩ := hkept.dupes other (hperm.mem_iff.mpr hmem) key hkey
        exact ⟨original, hperm.mem_iff.mp horig, hrest⟩
      · exact fun other hmem => hkept.keys huncapped other (hperm.mem_iff.mpr hmem)

/-- The owned keys and the cap counts of a list scored in order are the earned ones. -/
theorem addContacts_earned (state : IncrementalLogState) (earned : KeyMap Unit × KeyMap Nat)
    (hreads : state.module.value.rules.scoring.ReadsNoScores)
    (hids : ∀ contact ∈ contacts, (contactId contact).isSome)
    (hkeys : ∀ key, key ∈ earned.1 ↔ key ∈ state.multiplierOwners)
    (hcounts : earned.2 = state.multiplierCounts) :
    let result := state.addContacts contacts
    let total := (result.2.filter isOriginal).foldl (fun earned contact =>
      (state.module.value.multiplierCandidatesFor contact).foldl earnMultiplier earned) earned
    (∀ key, key ∈ total.1 ↔ key ∈ result.1.multiplierOwners) ∧
      total.2 = result.1.multiplierCounts := by
  induction contacts generalizing state earned with
  | nil => exact ⟨hkeys, hcounts⟩
  | cons contact contacts ih =>
      obtain ⟨id, hid⟩ := Option.isSome_iff_exists.mp (hids contact List.mem_cons_self)
      have hrest := fun c hc => hids c (List.mem_cons_of_mem contact hc)
      have hmodule := state.addContact_module contact
      have hsame := state.joined_sameCredits contact
      have hcandidates := ContestScoringModule.multiplierCandidatesFor_congr hreads
        (state.addContact_unscored contact)
      have hdupe := state.addContact_isDupe contact
      have hjoinedCounts : (state.joined contact).multiplierCounts = state.multiplierCounts := by
        simp only [IncrementalLogState.joined, IncrementalLogState.joinDupeGroup]
        cases state.module.value.dupeKeyFor contact <;> rfl
      simp only [IncrementalLogState.addContacts, List.filter_cons, isOriginal, hdupe]
      cases hjoin : (state.joinDupeGroup contact).2 with
      | true =>
          have howners : (state.addContact contact).1.multiplierOwners = state.multiplierOwners ∧
              (state.addContact contact).1.multiplierCounts = state.multiplierCounts := by
            rw [state.addContact_eq, hjoin]
            exact ⟨hsame.multiplierOwners, hjoinedCounts⟩
          have := ih (state.addContact contact).1 earned (hmodule ▸ hreads) hrest
            (howners.1 ▸ hkeys) (howners.2 ▸ hcounts)
          simpa only [hmodule, Bool.not_true, Bool.false_eq_true, if_false] using this
      | false =>
          have hcredit := creditMultipliers_earned id
            (state.module.value.multiplierCandidatesFor contact) state.multiplierOwners
            state.multiplierCounts earned hkeys hcounts
          have howners : (state.addContact contact).1.multiplierOwners =
                (IncrementalLogState.creditMultipliers (some id)
                  (state.module.value.multiplierCandidatesFor contact) state.multiplierOwners
                  state.multiplierCounts).1 ∧
              (state.addContact contact).1.multiplierCounts =
                (IncrementalLogState.creditMultipliers (some id)
                  (state.module.value.multiplierCandidatesFor contact) state.multiplierOwners
                  state.multiplierCounts).2.1 := by
            rw [state.addContact_eq, hjoin, ← hid, ← hsame.multiplierOwners, ← hjoinedCounts,
              ← hsame.module]
            exact ⟨rfl, rfl⟩
          have := ih (state.addContact contact).1
            ((state.module.value.multiplierCandidatesFor contact).foldl earnMultiplier earned)
            (hmodule ▸ hreads) hrest (howners.1 ▸ hcredit.1) (howners.2 ▸ hcredit.2)
          simpa only [hmodule, Bool.not_false, if_true, List.foldl_cons, hcandidates] using this

/-- A reset accounts for the list it scores. -/
theorem reset_kept (module : Arc ContestScoringModule)
    (hreads : module.value.rules.scoring.ReadsNoScores)
    (hids : ∀ contact ∈ contacts, (contactId contact).isSome)
    (hdistinct : (contacts.map contactId).Nodup) :
    Kept (IncrementalLogState.reset module contacts).1
        (IncrementalLogState.reset module contacts).2 ∧
      (∀ key, key ∈ (IncrementalLogState.reset module contacts).1.multiplierOwners ↔
        EarnedMultiplierKey module.value (IncrementalLogState.reset module contacts).2 key) ∧
      (IncrementalLogState.reset module contacts).1.module = module := by
  have hempty : Kept { module := module } [] :=
    ⟨hreads, .empty module, by intro c hc; simp at hc, by intro _ c hc; simp at hc⟩
  obtain ⟨hkept, hmodule, -⟩ := hempty.addContacts hids hdistinct (by simp)
  rw [List.append_nil] at hkept
  refine ⟨hkept, fun key => ?_, hmodule⟩
  cases hcapped : module.value.hasCappedMultipliers with
  | false =>
      have := hkept.earned (by rw [hmodule]; exact hcapped) key
      rwa [hmodule] at this
  | true =>
      have hearned := addContacts_earned { module := module } (∅, ∅) hreads hids
        (by simp) rfl
      rw [EarnedMultiplierKey, hcapped]
      exact (hearned.1 key).symm

end Reset

end Log73
