import Log73.Scoring.Batch

/-!
The contacts that the handlers of the tracker report: every contact of the slice they leave is as
it was, or is reported, or was committed.
-/

namespace Log73

variable [Platform]

namespace IncrementalLogState

variable (state : IncrementalLogState)

theorem leaveDupeGroup_module (deleted : Contact) (contacts : List Contact) (skip : Option Int) :
    (state.leaveDupeGroup deleted contacts skip).1.module = state.module := by
  rw [leaveDupeGroup]
  split
  · rfl
  · dsimp only
    split
    · split
      · rfl
      · rfl
    · rfl

omit [Platform] in
theorem releaseKeys_module (contactId : Option Int) :
    (state.releaseKeys contactId).module = state.module := by
  cases contactId with
  | none => rfl
  | some id => rfl

theorem addContacts_module (contacts : List Contact) :
    (state.addContacts contacts).1.module = state.module := by
  induction contacts generalizing state with
  | nil => rfl
  | cons contact contacts ih => exact (ih _).trans (state.addContact_module contact)

end IncrementalLogState

namespace Sweep

/-- A contact has none but these ids. -/
def Among (ids : List Int) (contact : Contact) : Prop :=
  ∀ id, contactId contact = some id → id ∈ ids

/-- What a part of a sweep leaves: a contact is as it was, or has an id that was noted or is among
the others. -/
structure Reports (others : List Int) (sweep after : Sweep) : Prop where
  module : after.state.module = sweep.state.module
  changed : ∀ id ∈ sweep.changed, id ∈ after.changed
  reported : ∀ (index : Nat) (contact : Contact), after.contacts[index]? = some contact →
    sweep.contacts[index]? = some contact ∨ Among (after.changed ++ others) contact

namespace Reports

omit [Platform]

variable {others : List Int} {sweep middle after : Sweep}

theorem refl (others : List Int) (sweep : Sweep) : Reports others sweep sweep :=
  ⟨rfl, fun _ hmem => hmem, fun _ _ hget => Or.inl hget⟩

theorem trans (h : Reports others sweep middle) (h' : Reports others middle after) :
    Reports others sweep after where
  module := h'.module.trans h.module
  changed id hmem := h'.changed id (h.changed id hmem)
  reported index contact hget := by
    cases h'.reported index contact hget with
    | inr hamong => exact Or.inr hamong
    | inl hsame =>
        refine (h.reported index contact hsame).imp_right fun hamong id hid => ?_
        rw [List.mem_append]
        exact (List.mem_append.mp (hamong id hid)).imp_left (h'.changed id)

/-- The contact at an index is set, and noted unless it is among the others. -/
theorem set (index : Nat) (contact : Contact) (state : IncrementalLogState) {changed : List Int}
    (hmodule : state.module = sweep.state.module) (hchanged : ∀ id ∈ sweep.changed, id ∈ changed)
    (hamong : Among (changed ++ others) contact) :
    Reports others sweep
      { state := state, contacts := sweep.contacts.set index contact, changed := changed } where
  module := hmodule
  changed := hchanged
  reported place other hget := by
    rw [List.getElem?_set] at hget
    split at hget
    · split at hget
      · obtain rfl := Option.some.inj hget
        exact Or.inr hamong
      · cases hget
    · exact Or.inl hget

end Reports

variable (others : List Int) (sweep : Sweep)

theorem promoteContact_reports (index : Nat) :
    Reports others sweep (sweep.promoteContact index) := by
  rw [promoteContact]
  split
  · exact .refl others sweep
  · next contact _ =>
      split
      · have hsame := (sweep.state.scoreOriginal_unscored contact).contactId_eq
        refine .set index (sweep.state.scoreOriginal contact).2
          (sweep.state.scoreOriginal contact).1
          (sweep.state.scoreOriginal_sameGroups contact).module
          (fun _ hmem => List.mem_append_right _ hmem) fun id hid => ?_
        rw [← hsame, hid]
        exact List.mem_cons_self
      · exact .refl others sweep

theorem reassignKey_reports (kind : KeyKind) (skip : Option Int) (key : String) :
    Reports others sweep (sweep.reassignKey kind skip key) := by
  rcases sweep.reassignKey_cases kind skip key with
    hsame | ⟨index, contact, id, -, hid, hreassigned⟩
  · rw [hsame]
    exact .refl others sweep
  · have hsame := (kind.credited_unscored sweep.state contact key).contactId_eq
    rw [hreassigned]
    refine .set index _ _ (kind.credit_module ..) (fun _ hmem => List.mem_cons_of_mem _ hmem)
      fun other hother => ?_
    rw [hsame, hid] at hother
    rw [← Option.some.inj hother]
    exact List.mem_cons_self

omit [Platform] in
/-- A loop whose every turn reports what it changes. -/
theorem foldl_reports {α : Type} (turn : Sweep → α → Sweep) (items : List α)
    (hturn : ∀ sweep, ∀ item ∈ items, Reports others sweep (turn sweep item)) :
    Reports others sweep (items.foldl turn sweep) := by
  induction items generalizing sweep with
  | nil => exact .refl others sweep
  | cons item items ih =>
      refine (hturn sweep item List.mem_cons_self).trans (ih _ fun sweep other hmem => ?_)
      exact hturn sweep other (List.mem_cons_of_mem _ hmem)

theorem removeContact_reports (deleted : Contact) (skip : Option Int) :
    Reports others sweep (sweep.removeContact deleted skip) := by
  rw [removeContact]
  have hmodule := (sweep.state.withdraw deleted).leaveDupeGroup_module deleted sweep.contacts skip
  generalize IncrementalLogState.leaveDupeGroup _ _ _ _ = left at hmodule ⊢
  obtain ⟨state, replacement⟩ := left
  have hleft : Reports others sweep { sweep with state := state.releaseKeys (contactId deleted) } :=
    ⟨(state.releaseKeys_module _).trans hmodule, fun _ hmem => hmem, fun _ _ hget => Or.inl hget⟩
  have hpromoted : Reports others sweep
      (promoteReplacement { sweep with state := state.releaseKeys (contactId deleted) }
        replacement) := by
    cases replacement with
    | none => exact hleft
    | some index => exact hleft.trans (promoteContact_reports others _ index)
  have hmultipliers := hpromoted.trans (foldl_reports others _
    (fun sweep key => reassignMultiplier sweep skip key)
    (IncrementalLogState.freedKeys state.multiplierOwners (contactId deleted))
    fun sweep key _ => sweep.reassignKey_reports others .multiplier skip key)
  have hbonuses := hmultipliers.trans (foldl_reports others _
    (fun sweep key => reassignBonus sweep skip key)
    (IncrementalLogState.freedKeys state.bonusOwners (contactId deleted))
    fun sweep key _ => sweep.reassignKey_reports others .bonus skip key)
  exact ⟨hbonuses.module, hbonuses.changed, hbonuses.reported⟩

theorem removePrevious_reports (previous : List Contact) :
    Reports others sweep (sweep.removePrevious previous) :=
  foldl_reports others sweep _ previous fun sweep deleted _ =>
    sweep.removeContact_reports others deleted _

theorem addCommitted_reports {committed : Contact} (hamong : Among others committed) :
    Reports others sweep (sweep.addCommitted committed) := by
  rw [addCommitted]
  split
  · exact .refl others sweep
  · next id hid =>
      split
      · exact .refl others sweep
      · next index hindex =>
          split
          · exact .refl others sweep
          · next contact hcontact =>
              obtain ⟨hlt, hfound, -⟩ := List.findIdx?_eq_some_iff_getElem.mp hindex
              obtain ⟨_, rfl⟩ := List.getElem?_eq_some_iff.mp hcontact
              have hsame := (sweep.state.addContact_unscored sweep.contacts[index]).contactId_eq
              refine .set index (sweep.state.addContact sweep.contacts[index]).2
                (sweep.state.addContact sweep.contacts[index]).1 (sweep.state.addContact_module _)
                (fun _ hmem => hmem) fun other hother => ?_
              rw [hsame, beq_iff_eq.mp hfound] at hother
              rw [← Option.some.inj hother]
              exact List.mem_append_right _ (hamong id hid)

theorem addAllCommitted_reports {committed : List Contact}
    (hamong : ∀ contact ∈ committed, Among others contact) :
    Reports others sweep (sweep.addAllCommitted committed) :=
  foldl_reports others sweep _ committed fun sweep contact hmem =>
    sweep.addCommitted_reports others (hamong contact hmem)

end Sweep

omit [Platform] in
theorem mem_collectChangedContacts {contacts : List Contact} {changedIds excludedIds : List Int}
    {contact : Contact} : contact ∈ collectChangedContacts contacts changedIds excludedIds ↔
      contact ∈ contacts ∧ ∃ id, contactId contact = some id ∧ id ∈ changedIds ∧
        id ∉ excludedIds := by
  rw [collectChangedContacts, List.mem_filter]
  cases contactId contact with
  | none => simp
  | some id => simp

/-- What a handler leaves of a slice, and reports of it. -/
structure Reported (module : Arc ContestScoringModule) (ids : List Int) (before : List Contact)
    (result : HandlerResult) : Prop where
  tracker : ∃ state, result.state = some state ∧ state.module = module
  scored : ScoredSlice before result.contacts
  changed : ∀ contact ∈ result.changed, contact ∈ result.contacts
  reported : ∀ contact ∈ result.contacts, (contactId contact).isSome →
    contact ∈ before ∨ contact ∈ result.changed ∨ Sweep.Among ids contact

namespace IncrementalScoreTracker

variable {state : IncrementalLogState} {contacts : List Contact}

omit [Platform] in
theorem sameModule_self (module : Arc ContestScoringModule) : sameModule module module = true :=
  beq_self_eq_true _

omit [Platform] in
/-- What is noted in a sweep and not excluded is reported. -/
theorem reported_of_reports {others : List Int} {sweep : Sweep}
    (hscored : ScoredSlice contacts sweep.contacts)
    (h : Sweep.Reports others { state := state, contacts := contacts, changed := [] } sweep) :
    Reported state.module others contacts
      { state := some sweep.state, contacts := sweep.contacts
        changed := collectChangedContacts sweep.contacts sweep.changed others } where
  tracker := ⟨_, rfl, h.module⟩
  scored := hscored
  changed _ hmem := (mem_collectChangedContacts.mp hmem).1
  reported contact hmem hsome := by
    obtain ⟨index, hget⟩ := List.mem_iff_getElem?.mp hmem
    obtain ⟨id, hid⟩ := Option.isSome_iff_exists.mp hsome
    refine (h.reported index contact hget).imp (fun hsame => List.mem_of_getElem? hsame)
      fun hamong => ?_
    by_cases hother : id ∈ others
    · refine Or.inr fun other hsame => ?_
      rw [hid] at hsame
      exact Option.some.inj hsame ▸ hother
    · have hchanged := (List.mem_append.mp (hamong id hid)).resolve_right hother
      exact Or.inl (mem_collectChangedContacts.mpr ⟨hmem, id, hid, hchanged, hother⟩)

/-- A contest with caps is scored anew, and every contact is reported. -/
theorem reported_of_reset (module : Arc ContestScoringModule) (others : List Int) :
    Reported module others contacts
      { state := some (IncrementalLogState.reset module contacts).1
        contacts := (IncrementalLogState.reset module contacts).2
        changed := collectChangedContacts (IncrementalLogState.reset module contacts).2
          ((IncrementalLogState.reset module contacts).2.filterMap contactId) others } where
  tracker := ⟨_, rfl, IncrementalLogState.addContacts_module _ contacts⟩
  scored := IncrementalLogState.reset_scored module contacts
  changed _ hmem := (mem_collectChangedContacts.mp hmem).1
  reported contact hmem hsome := by
    obtain ⟨id, hid⟩ := Option.isSome_iff_exists.mp hsome
    by_cases hother : id ∈ others
    · refine Or.inr (Or.inr fun other hsame => ?_)
      rw [hid] at hsame
      exact Option.some.inj hsame ▸ hother
    · exact Or.inr (Or.inl (mem_collectChangedContacts.mpr
        ⟨hmem, id, hid, List.mem_filterMap.mpr ⟨contact, hmem, hid⟩, hother⟩))

/-- An upsert reports every contact it rescores, except those it commits. -/
theorem onContactsUpserted_reported (state : IncrementalLogState)
    (contacts committed : List Contact)
    (previous : List (Option Contact)) :
    Reported state.module (committed.filterMap contactId) contacts
      (onContactsUpserted (some state) state.module contacts committed previous) := by
  simp only [onContactsUpserted, Option.getD_some, sameModule_self, if_true]
  split
  · exact reported_of_reset state.module _
  · let sweep : Sweep := { state := state, contacts := contacts, changed := [] }
    refine reported_of_reports ?_ ?_
    · exact (sweep.removePrevious_scored previous.reduceOption).trans
        (Sweep.addAllCommitted_scored _ committed)
    · refine (sweep.removePrevious_reports _ previous.reduceOption).trans
        (Sweep.addAllCommitted_reports _ _ fun contact hmem id hid => ?_)
      exact List.mem_filterMap.mpr ⟨contact, hmem, hid⟩

/-- A deletion reports every contact it rescores. -/
theorem onContactDeleted_reported (state : IncrementalLogState) (contacts : List Contact)
    (deleted : Contact) : Reported state.module [] contacts
      (onContactDeleted (some state) state.module contacts deleted) := by
  simp only [onContactDeleted, sameModule_self, Bool.not_true, Bool.false_eq_true, if_false]
  split
  · exact ⟨⟨_, rfl, IncrementalLogState.addContacts_module _ contacts⟩,
      IncrementalLogState.reset_scored _ contacts, fun _ hmem => hmem,
      fun _ hmem _ => Or.inr (Or.inl hmem)⟩
  · let sweep : Sweep := { state := state, contacts := contacts, changed := [] }
    exact reported_of_reports (sweep.removeContact_scored deleted none)
      (sweep.removeContact_reports [] deleted none)

end IncrementalScoreTracker

end Log73
