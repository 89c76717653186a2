import Log73.LogCache.Session
import Log73.Scoring.Reported

/-!
What an upsert and a deletion return of the log they leave: the contacts they commit and those
whose scores they change. Where the log was changed while the database wrote, it is loaded again
and every other contact is returned.
-/

namespace Log73

open Std

/-- The contact of the slice with an id. -/
def contactOf (contacts : List Contact) (id : Int) : Option Contact :=
  contacts.find? (contactId · == some id)

theorem contactOf_eq_some {contacts : List Contact} (hdistinct : (contacts.map contactId).Nodup)
    {id : Int} {contact : Contact} :
    contactOf contacts id = some contact ↔ contact ∈ contacts ∧ contactId contact = some id := by
  constructor
  · intro h
    have hid := List.find?_some h
    exact ⟨List.mem_of_find?_eq_some h, beq_iff_eq.mp hid⟩
  · rintro ⟨hmem, hid⟩
    cases hfind : contactOf contacts id with
    | none =>
        have hnot := List.find?_eq_none.mp hfind contact hmem
        rw [hid, beq_self_eq_true] at hnot
        exact absurd rfl hnot
    | some other =>
        have hother := List.find?_some hfind
        have hsame := List.inj_on_of_nodup_map hdistinct (List.mem_of_find?_eq_some hfind) hmem
          ((beq_iff_eq.mp hother).trans hid.symm)
        rw [hsame]

theorem contactOf_congr {contacts contacts' : List Contact}
    (hdistinct : (contacts.map contactId).Nodup) (hdistinct' : (contacts'.map contactId).Nodup)
    {id : Int} (hmem : ∀ contact, contactId contact = some id →
      (contact ∈ contacts ↔ contact ∈ contacts')) :
    contactOf contacts id = contactOf contacts' id := by
  refine Option.ext fun contact => ?_
  rw [contactOf_eq_some hdistinct, contactOf_eq_some hdistinct']
  exact and_congr_left fun hid => hmem contact hid

theorem mem_of_mem_dedupeContacts {contacts : List Contact} {excludedIds : List Int}
    {contact : Contact} (h : contact ∈ dedupeContacts contacts excludedIds) :
    contact ∈ contacts ∧ ∃ id, contactId contact = some id ∧ id ∉ excludedIds := by
  induction contacts generalizing excludedIds with
  | nil => cases h
  | cons head contacts ih =>
      rw [dedupeContacts] at h
      split at h
      · exact (ih h).imp_left (List.mem_cons_of_mem _)
      · next id hid =>
          split at h
          · exact (ih h).imp_left (List.mem_cons_of_mem _)
          · next hfresh =>
              cases List.mem_cons.mp h with
              | inl heq =>
                  rw [heq]
                  exact ⟨List.mem_cons_self, id, hid, by simpa using hfresh⟩
              | inr hrest =>
                  obtain ⟨hmem, other, hother, hnot⟩ := ih hrest
                  exact ⟨List.mem_cons_of_mem _ hmem, other, hother,
                    fun hin => hnot (List.mem_cons_of_mem _ hin)⟩

/-- An id that is not excluded is kept once. -/
theorem exists_mem_dedupeContacts {contacts : List Contact} {excludedIds : List Int}
    {contact : Contact} {id : Int} (hmem : contact ∈ contacts) (hid : contactId contact = some id)
    (hnot : id ∉ excludedIds) :
    ∃ kept ∈ dedupeContacts contacts excludedIds, contactId kept = some id := by
  induction contacts generalizing excludedIds with
  | nil => cases hmem
  | cons head contacts ih =>
      rw [dedupeContacts]
      split
      · next hnone =>
          cases List.mem_cons.mp hmem with
          | inl heq =>
              rw [heq, hnone] at hid
              cases hid
          | inr hrest => exact ih hrest hnot
      · next other hother =>
          split
          · next hexcluded =>
              cases List.mem_cons.mp hmem with
              | inl heq =>
                  rw [heq, hother] at hid
                  rw [Option.some.inj hid] at hexcluded
                  exact absurd (List.contains_iff_mem.mp hexcluded) hnot
              | inr hrest => exact ih hrest hnot
          · by_cases hsame : other = id
            · exact ⟨head, List.mem_cons_self, hsame ▸ hother⟩
            · have hrest : contact ∈ contacts := by
                refine (List.mem_cons.mp hmem).resolve_left fun heq => hsame ?_
                rw [heq, hother] at hid
                exact Option.some.inj hid
              obtain ⟨kept, hkept, hkeptId⟩ := @ih (other :: excludedIds) hrest
                fun hin => (List.mem_cons.mp hin).elim (fun heq => hsame heq.symm) hnot
              exact ⟨kept, List.mem_cons_of_mem _ hkept, hkeptId⟩

theorem nodup_dedupeContacts (contacts : List Contact) (excludedIds : List Int) :
    ((dedupeContacts contacts excludedIds).map contactId).Nodup := by
  induction contacts generalizing excludedIds with
  | nil => exact .nil
  | cons head contacts ih =>
      rw [dedupeContacts]
      split
      · exact ih excludedIds
      · next id hid =>
          split
          · exact ih excludedIds
          · refine List.nodup_cons.mpr ⟨fun hin => ?_, ih (id :: excludedIds)⟩
            obtain ⟨contact, hmem, heq⟩ := List.mem_map.mp hin
            obtain ⟨-, other, hother, hnot⟩ := mem_of_mem_dedupeContacts hmem
            rw [heq, hid] at hother
            exact hnot (Option.some.inj hother ▸ List.mem_cons_self)

variable [Platform]

namespace LoadedLog

variable (log : LoadedLog)

/-- What an upsert returns of a log that was loaded again. -/
def upsertReloaded (committed : List Contact) : CacheUpdate where
  log := log
  contacts := committed.filterMap fun contact => (contactId contact).bind log.cached.contactById
  changedContacts := dedupeContacts log.cached.contacts (committed.filterMap contactId)

/-- What a deletion returns of a log that was loaded again. -/
def deleteReloaded : CacheUpdate where
  log := log
  contacts := []
  changedContacts := log.cached.contacts

/-- The tracker scores the contacts of the log under the module of its cache entry. -/
structure Tracked : Prop where
  consistent : log.cached.Consistent
  tracker : ∃ state, log.tracker = some state ∧ state.module = log.cached.module

end LoadedLog

/-- An operation of the clients, and the module the log is loaded again under if it was changed
while the database wrote. -/
inductive LogOperation where
  | upsert (batch : List (Int64 × Contact)) (meanwhile : Option (Arc ContestScoringModule))
  | delete (id : Int64) (meanwhile : Option (Arc ContestScoringModule))

namespace LogOperation

/-- The ids of the contacts a batch writes. -/
def written : LogOperation → List Int
  | .upsert batch _ => batch.map fun entry => entry.1.toInt
  | .delete _ _ => []

def removed : LogOperation → Option Int
  | .upsert _ _ => none
  | .delete id _ => some id.toInt

end LogOperation

/-- `upsert_contacts` and `delete_contact`, with what they return. -/
def LogSession.update (database : DxccDatabase) (session : LogSession) :
    LogOperation → LogSession × CacheUpdate
  | .upsert batch meanwhile =>
      match session.committedRows database batch with
      | none => (session, { log := session.loaded, contacts := [], changedContacts := [] })
      | some rows =>
          let table : QsoTable := session.rows.write rows
          let committed := rows.map rowToContact
          let update := match meanwhile with
            | none => session.loaded.upsert session.nextRevision committed
            | some module =>
                (LoadedLog.load database module session.nextRevision
                  (sortContactsDesc table.contacts)).upsertReloaded committed
          ({ session with rows := table, loaded := update.log }, update)
  | .delete id meanwhile =>
      if session.rows.contains id then
        let table : QsoTable := session.rows.erase id
        let update := match meanwhile with
          | none => session.loaded.delete session.nextRevision id.toInt
          | some module =>
              (LoadedLog.load database module session.nextRevision
                (sortContactsDesc table.contacts)).deleteReloaded
        ({ session with rows := table, loaded := update.log }, update)
      else (session, { log := session.loaded, contacts := [], changedContacts := [] })

/-- What is returned of a log is final, and nothing else changed. -/
structure CacheUpdate.Tells (update : CacheUpdate) (before : List Contact) (removed : Option Int) :
    Prop where
  final : ∀ contact ∈ update.contacts ++ update.changedContacts,
    contact ∈ update.log.cached.contacts
  once : (update.changedContacts.map contactId).Nodup
  apart : ∀ contact ∈ update.changedContacts, ∀ committed ∈ update.contacts,
    contactId contact ≠ contactId committed
  gone : ∀ contact ∈ update.log.cached.contacts, removed ≠ contactId contact
  unchanged : ∀ id, removed ≠ some id →
    (∀ contact ∈ update.contacts ++ update.changedContacts, contactId contact ≠ some id) →
      ∀ contact, contactId contact = some id →
        (contact ∈ before ↔ contact ∈ update.log.cached.contacts)

section Reported

variable {module : Arc ContestScoringModule} {ids : List Int} {slice : List Contact}
  {result : HandlerResult}

omit [Platform] in
/-- A contact that is not reported and was not committed stays as it is. -/
theorem Reported.mem_iff (h : Reported module ids slice result)
    (hdistinct : (slice.map contactId).Nodup) {id : Int} (hout : id ∉ ids)
    (hnone : ∀ contact ∈ result.changed, contactId contact ≠ some id) {contact : Contact}
    (hid : contactId contact = some id) : contact ∈ slice ↔ contact ∈ result.contacts := by
  have hkept : ∀ contact ∈ result.contacts, contactId contact = some id → contact ∈ slice := by
    intro contact hmem hid
    rcases h.reported contact hmem (Option.isSome_iff_exists.mpr ⟨id, hid⟩) with
      hslice | hchanged | hamong
    · exact hslice
    · exact absurd hid (hnone contact hchanged)
    · exact absurd (hamong id hid) hout
  refine ⟨fun hmem => ?_, fun hmem => hkept contact hmem hid⟩
  have hmapped : contactId contact ∈ result.contacts.map contactId :=
    h.scored.rescored.map_contactId ▸ List.mem_map_of_mem hmem
  obtain ⟨other, hother, heq⟩ := List.mem_map.mp hmapped
  have hsame := List.inj_on_of_nodup_map hdistinct (hkept other hother (heq.trans hid)) hmem heq
  exact hsame ▸ hother

end Reported

namespace LoadedLog

variable {log : LoadedLog} {committed : List Contact}

theorem cached_upsert (revision : Nat) (committed : List Contact) :
    (log.upsert revision committed).log.cached.contacts =
      (IncrementalScoreTracker.onContactsUpserted log.tracker (log.mergedSlice committed).1.module
        (log.mergedSlice committed).1.contacts (finalContacts committed)
        (log.previousContacts (finalContacts committed))).contacts := by
  simp only [upsert]
  generalize log.mergedSlice committed = merged
  cases merged.2 with
  | false => rfl
  | true => rfl

theorem module_upsert (h : log.Tracked) (revision : Nat) (committed : List Contact) :
    (log.upsert revision committed).log.cached.module = log.cached.module := by
  obtain ⟨ids, hids, hnodup, -⟩ := finalContacts_ids committed
  obtain ⟨-, -, hmodule, -⟩ := mergedSlice_spec h.consistent committed hids hnodup
  rw [← hmodule]
  simp only [upsert]
  generalize log.mergedSlice committed = merged
  cases merged.2 with
  | false => rfl
  | true => rfl

theorem contacts_delete (revision : Nat) (id : Int) : (log.delete revision id).contacts = [] := by
  rw [delete]
  split
  · rfl
  · split
    · rfl
    · rfl

/-- The tracker reports what an upsert rescores. -/
theorem upsert_reported (h : log.Tracked) (committed : List Contact) :
    Reported log.cached.module ((finalContacts committed).filterMap contactId)
      (log.mergedSlice committed).1.contacts
      (IncrementalScoreTracker.onContactsUpserted log.tracker (log.mergedSlice committed).1.module
        (log.mergedSlice committed).1.contacts (finalContacts committed)
        (log.previousContacts (finalContacts committed))) := by
  obtain ⟨ids, hids, hnodup, -⟩ := finalContacts_ids committed
  obtain ⟨-, -, hmodule, -⟩ := mergedSlice_spec h.consistent committed hids hnodup
  obtain ⟨state, hstate, hsame⟩ := h.tracker
  rw [hstate, hmodule, ← hsame]
  exact IncrementalScoreTracker.onContactsUpserted_reported state _ _ _

theorem Tracked.upsert (h : log.Tracked) (revision : Nat) (committed : List Contact) :
    (log.upsert revision committed).log.Tracked where
  consistent := upsert_consistent h.consistent revision committed
  tracker := by
    rw [module_upsert h]
    exact (upsert_reported h committed).tracker

/-- The ids that are returned, where nothing is left out. -/
theorem mem_ids_contacts (h : log.Tracked) {contact : Contact} {id : Int}
    (hmem : contact ∈ committed.filterMap fun contact =>
      (contactId contact).bind log.cached.contactById)
    (hid : contactId contact = some id) :
    contact ∈ log.cached.contacts ∧ id ∈ committed.filterMap contactId := by
  obtain ⟨other, hother, hfind⟩ := List.mem_filterMap.mp hmem
  obtain ⟨found, hfound, hget⟩ := Option.bind_eq_some_iff.mp hfind
  rw [h.consistent.contactById_eq] at hget
  have hsame := List.find?_some hget
  rw [beq_iff_eq, hid] at hsame
  exact ⟨List.mem_of_find?_eq_some hget,
    List.mem_filterMap.mpr ⟨other, hother, hfound.trans hsame.symm⟩⟩

/-- A committed id that the log has is returned. -/
theorem exists_mem_contacts (h : log.Tracked) {id : Int} (hid : id ∈ committed.filterMap contactId)
    (hheld : ∃ contact ∈ log.cached.contacts, contactId contact = some id) :
    ∃ contact ∈ committed.filterMap fun contact => (contactId contact).bind log.cached.contactById,
      contactId contact = some id := by
  obtain ⟨other, hother, hfound⟩ := List.mem_filterMap.mp hid
  obtain ⟨contact, hmem, hcontact⟩ := hheld
  refine ⟨contact, List.mem_filterMap.mpr ⟨other, hother, ?_⟩, hcontact⟩
  rw [hfound, Option.bind_some, h.consistent.contactById_eq]
  exact (contactOf_eq_some h.consistent.distinct).mpr ⟨hmem, hcontact⟩

/-- What both paths of an upsert return, for the contacts that are taken as changed. -/
theorem tells_upsert {after : LoadedLog} (h : after.Tracked) (before changed : List Contact)
    (hchanged : ∀ contact ∈ changed, contact ∈ after.cached.contacts)
    (hcommitted : ∀ id ∈ committed.filterMap contactId,
      ∃ contact ∈ after.cached.contacts, contactId contact = some id)
    (hsame : ∀ id ∉ committed.filterMap contactId,
      (∀ contact ∈ changed, contactId contact ≠ some id) →
      ∀ contact, contactId contact = some id →
        (contact ∈ before ↔ contact ∈ after.cached.contacts)) :
    CacheUpdate.Tells
      { log := after
        contacts := committed.filterMap fun contact =>
          (contactId contact).bind after.cached.contactById
        changedContacts := dedupeContacts changed (committed.filterMap contactId) }
          before none where
  final contact hmem := by
    cases List.mem_append.mp hmem with
    | inl hin =>
        obtain ⟨other, -, hfind⟩ := List.mem_filterMap.mp hin
        obtain ⟨id, -, hget⟩ := Option.bind_eq_some_iff.mp hfind
        rw [h.consistent.contactById_eq] at hget
        exact List.mem_of_find?_eq_some hget
    | inr hin => exact hchanged contact (mem_of_mem_dedupeContacts hin).1
  once := nodup_dedupeContacts changed _
  apart contact hmem other hother heq := by
    obtain ⟨-, id, hid, hnot⟩ := mem_of_mem_dedupeContacts hmem
    exact hnot (mem_ids_contacts h hother (heq.symm.trans hid)).2
  gone contact hmem heq := by
    have hsome := h.consistent.identified contact hmem
    rw [← heq] at hsome
    cases hsome
  unchanged id _ htold contact hid := by
    have hout : id ∉ committed.filterMap contactId := by
      intro hin
      obtain ⟨other, hother, hotherId⟩ := exists_mem_contacts h hin (hcommitted id hin)
      exact htold other (List.mem_append_left _ hother) hotherId
    refine hsame id hout (fun other hother hotherId => ?_) contact hid
    obtain ⟨kept, hkept, hkeptId⟩ := exists_mem_dedupeContacts hother hotherId hout
    exact htold kept (List.mem_append_right _ hkept) hkeptId

theorem upsert_ids (h : log.Tracked) (revision : Nat) (committed : List Contact) {id : Int} :
    some id ∈ (log.upsert revision committed).log.cached.contacts.map contactId ↔
      some id ∈ log.cached.contacts.map contactId ∨ id ∈ committed.filterMap contactId := by
  obtain ⟨ids, hids, hnodup, hidsMem⟩ := finalContacts_ids committed
  obtain ⟨hperm, -, -, -⟩ := mergedSlice_spec h.consistent committed hids hnodup
  rw [cached_upsert, (upsert_reported h committed).scored.rescored.map_contactId,
    (hperm.map contactId).mem_iff, List.map_append, List.mem_append, hids,
    List.mem_map_of_injective (Option.some_injective _), hidsMem]
  constructor
  · refine Or.imp_left fun hmem => ?_
    obtain ⟨contact, hcontact, hid⟩ := List.mem_map.mp hmem
    exact List.mem_map.mpr ⟨contact, (List.mem_filter.mp hcontact).1, hid⟩
  · rintro (hmem | hid)
    · by_cases hcommitted : id ∈ committed.filterMap contactId
      · exact Or.inr hcommitted
      · obtain ⟨contact, hcontact, hid⟩ := List.mem_map.mp hmem
        refine Or.inl (List.mem_map.mpr ⟨contact, List.mem_filter.mpr ⟨hcontact, ?_⟩, hid⟩)
        rw [settled_of_contactId hid]
        simpa using fun hin => hcommitted ((hidsMem id).mp hin)
    · exact Or.inr hid

theorem upsert_tells (h : log.Tracked) (revision : Nat) (committed : List Contact) :
    (log.upsert revision committed).Tells log.cached.contacts none := by
  obtain ⟨ids, hids, hnodup, hidsMem⟩ := finalContacts_ids committed
  obtain ⟨hperm, -, -, -⟩ := mergedSlice_spec h.consistent committed hids hnodup
  obtain ⟨-, hdistinct⟩ := mergedSlice_identified h.consistent committed
  have hreported := upsert_reported h committed
  have hfinal : (finalContacts committed).filterMap contactId = ids := by
    have hmap := congrArg (List.filterMap id) hids
    rw [List.filterMap_map, List.filterMap_map] at hmap
    simpa using hmap
  rw [hfinal] at hreported
  refine tells_upsert (h.upsert revision committed) log.cached.contacts _ (fun contact hmem => ?_)
    (fun id hid => ?_) fun id hout hnone contact hid => ?_
  · rw [cached_upsert]
    exact hreported.changed contact hmem
  · obtain ⟨contact, hmem, heq⟩ :=
      List.mem_map.mp ((upsert_ids h revision committed).mpr (Or.inr hid))
    exact ⟨contact, hmem, heq⟩
  · have hids' : id ∉ ids := fun hin => hout ((hidsMem id).mp hin)
    rw [cached_upsert, ← hreported.mem_iff hdistinct hids' hnone hid, hperm.mem_iff,
      List.mem_append, List.mem_filter, settled_of_contactId hid]
    have hnot : contact ∉ finalContacts committed := by
      intro hin
      have hmapped : contactId contact ∈ ids.map some := hids ▸ List.mem_map_of_mem hin
      obtain ⟨other, hother, heq⟩ := List.mem_map.mp hmapped
      rw [hid] at heq
      exact hids' (Option.some.inj heq ▸ hother)
    simp [hids', hnot]

theorem delete_tracked_tells (h : log.Tracked) (revision : Nat) (id : Int) :
    (log.delete revision id).log.Tracked ∧
      (log.delete revision id).Tells log.cached.contacts (some id) := by
  have hconsistent := delete_consistent h.consistent revision id
  rw [delete] at hconsistent ⊢
  split
  · next hnone =>
      refine ⟨h, fun _ hmem => (nomatch hmem), .nil, fun _ hmem => (nomatch hmem),
        fun contact hmem heq => ?_, fun _ _ _ contact _ => Iff.rfl⟩
      have hnot := List.findIdx?_eq_none_iff.mp hnone contact hmem
      rw [← heq, beq_self_eq_true] at hnot
      cases hnot
  · next index hfind =>
      obtain ⟨hlt, hfound, -⟩ := List.findIdx?_eq_some_iff_getElem.mp hfind
      rw [hfind] at hconsistent
      dsimp only at hconsistent ⊢
      rw [List.getElem?_eq_getElem hlt] at hconsistent ⊢
      dsimp only at hconsistent ⊢
      obtain ⟨state, hstate, hmodule⟩ := h.tracker
      rw [hstate, ← hmodule] at hconsistent ⊢
      have hreported := IncrementalScoreTracker.onContactDeleted_reported state
        (log.cached.contacts.eraseIdx index) log.cached.contacts[index]
      generalize IncrementalScoreTracker.onContactDeleted (some state) state.module
        (log.cached.contacts.eraseIdx index) log.cached.contacts[index] =
          result at hreported hconsistent ⊢
      have hids := hreported.scored.rescored.map_contactId
      have hperm := List.getElem_cons_eraseIdx_perm hlt
      have hdistinct := (hperm.map contactId).nodup_iff.mpr h.consistent.distinct
      rw [List.map_cons, List.nodup_cons, beq_iff_eq.mp hfound] at hdistinct
      refine ⟨⟨hconsistent, ?_⟩, fun contact hmem => ?_, nodup_dedupeContacts _ _,
        fun _ _ _ hin => (nomatch hin), fun contact hmem heq => ?_,
          fun other hother htold contact hid => ?_⟩
      · obtain ⟨state', hstate', hmodule'⟩ := hreported.tracker
        exact ⟨state', hstate', hmodule'⟩
      · exact hreported.changed contact (mem_of_mem_dedupeContacts hmem).1
      · refine hdistinct.1 ?_
        rw [← hids, heq]
        exact List.mem_map_of_mem hmem
      · have hnone : ∀ changed ∈ result.changed, contactId changed ≠ some other := by
          intro changed hmem hchanged
          obtain ⟨kept, hkept, hkeptId⟩ := exists_mem_dedupeContacts hmem hchanged List.not_mem_nil
          exact htold kept hkept hkeptId
        refine Iff.trans ?_ (hreported.mem_iff hdistinct.2 List.not_mem_nil hnone hid)
        rw [← hperm.mem_iff, List.mem_cons]
        refine or_iff_right fun heq => hother ?_
        rw [← hid, heq]
        exact (beq_iff_eq.mp hfound).symm

theorem delete_ids (h : log.Tracked) (revision : Nat) (id : Int) {other : Int} :
    some other ∈ (log.delete revision id).log.cached.contacts.map contactId ↔
      some other ∈ log.cached.contacts.map contactId ∧ other ≠ id := by
  rw [delete]
  split
  · next hnone =>
      refine ⟨fun hmem => ⟨hmem, fun heq => ?_⟩, And.left⟩
      obtain ⟨contact, hcontact, hid⟩ := List.mem_map.mp hmem
      have hnot := List.findIdx?_eq_none_iff.mp hnone contact hcontact
      rw [hid, heq, beq_self_eq_true] at hnot
      cases hnot
  · next index hfind =>
      obtain ⟨hlt, hfound, -⟩ := List.findIdx?_eq_some_iff_getElem.mp hfind
      rw [List.getElem?_eq_getElem hlt]
      dsimp only
      have hids := (IncrementalScoreTracker.onContactDeleted_scored log.tracker log.cached.module
        (log.cached.contacts.eraseIdx index) log.cached.contacts[index]).rescored.map_contactId
      have hperm := (List.getElem_cons_eraseIdx_perm hlt).map contactId
      have hdistinct := hperm.nodup_iff.mpr h.consistent.distinct
      rw [List.map_cons, beq_iff_eq.mp hfound] at hperm hdistinct
      rw [CachedLog.rebuildIndexes, hids, ← hperm.mem_iff, List.mem_cons, Option.some.injEq]
      constructor
      · intro hmem
        refine ⟨Or.inr hmem, fun heq => (List.nodup_cons.mp hdistinct).1 (heq ▸ hmem)⟩
      · rintro ⟨heq | hmem, hne⟩
        · exact absurd heq hne
        · exact hmem

theorem load_ids (database : DxccDatabase) (module : Arc ContestScoringModule) (revision : Nat)
    (snapshot : List Contact) : ((load database module revision snapshot).cached.contacts.map
      contactId).Perm (snapshot.map contactId) := by
  have hscored := (load_rescored database module snapshot).map_contactId
  have hsorted := (sortContactsDesc_perm (IncrementalScoreTracker.onLogLoaded module
    (sortContactsDesc (enrichMissingDxcc database snapshot))).2).map contactId
  rw [hscored] at hsorted
  refine hsorted.trans ?_
  rw [← enrichMissingDxcc_map_contactId database snapshot]
  exact (sortContactsDesc_perm _).map contactId

theorem tracked_load (database : DxccDatabase) (module : Arc ContestScoringModule) (revision : Nat)
    (rows : QsoTable) :
    (load database module revision (sortContactsDesc rows.contacts)).Tracked where
  consistent := LogSession.load_consistent database module revision rows
  tracker := ⟨_, rfl, IncrementalLogState.addContacts_module _ _⟩

/-- Every contact that is not committed is returned of a log that was loaded again. -/
theorem upsertReloaded_tells (h : log.Tracked) {before : List Contact}
    (hbefore : ∀ contact ∈ before, contactId contact ∈ log.cached.contacts.map contactId)
    (hcommitted : ∀ id ∈ committed.filterMap contactId,
      some id ∈ log.cached.contacts.map contactId) :
    (log.upsertReloaded committed).Tells before none := by
  refine tells_upsert h before _ (fun _ hmem => hmem) (fun id hid => ?_)
    fun id _ hnone contact hid => ?_
  · obtain ⟨contact, hmem, heq⟩ := List.mem_map.mp (hcommitted id hid)
    exact ⟨contact, hmem, heq⟩
  · refine iff_of_false (fun hmem => ?_) fun hmem => hnone contact hmem hid
    obtain ⟨other, hother, heq⟩ := List.mem_map.mp (hbefore contact hmem)
    exact hnone other hother (heq.trans hid)

theorem deleteReloaded_tells (h : log.Tracked) {before : List Contact} {removed : Int}
    (hbefore : ∀ contact ∈ before, contactId contact ≠ some removed →
      contactId contact ∈ log.cached.contacts.map contactId)
    (hgone : some removed ∉ log.cached.contacts.map contactId) :
    log.deleteReloaded.Tells before (some removed) where
  final _ hmem := hmem
  once := h.consistent.distinct
  apart _ _ _ hmem := nomatch hmem
  gone contact hmem heq := hgone (heq ▸ List.mem_map_of_mem hmem)
  unchanged id hne htold contact hid := by
    refine iff_of_false (fun hmem => ?_) fun hmem => htold contact hmem hid
    have hother : contactId contact ≠ some removed := fun heq => hne (heq.symm.trans hid)
    obtain ⟨other, hin, heq⟩ := List.mem_map.mp (hbefore contact hmem hother)
    exact htold other hin (heq.trans hid)

end LoadedLog

namespace QsoTable

variable (rows : QsoTable)

theorem mem_ids {id : Int} : some id ∈ rows.contacts.map contactId ↔
    ∃ key : Int64, (rows[key]?).isSome ∧ key.toInt = id := by
  rw [List.mem_map]
  constructor
  · rintro ⟨contact, hmem, hid⟩
    obtain ⟨key, columns, hget, rfl⟩ := rows.mem_contacts.mp hmem
    rw [contactId_rowToContact] at hid
    exact ⟨key, by rw [hget]; rfl, Option.some.inj hid⟩
  · rintro ⟨key, hsome, rfl⟩
    obtain ⟨columns, hget⟩ := Option.isSome_iff_exists.mp hsome
    exact ⟨_, rows.mem_contacts.mpr ⟨key, columns, hget, rfl⟩, contactId_rowToContact _⟩

theorem mem_ids_write (committed : List QsoRow) {id : Int} :
    some id ∈ (rows.write committed).contacts.map contactId ↔
      some id ∈ rows.contacts.map contactId ∨ id ∈ committed.map fun row => row.id.toInt := by
  induction committed generalizing rows with
  | nil => simp [write]
  | cons row committed ih =>
      have hput : some id ∈ (rows.put row).contacts.map contactId ↔
          some id ∈ rows.contacts.map contactId ∨ id = row.id.toInt := by
        rw [mem_ids, mem_ids]
        constructor
        · rintro ⟨key, hsome, rfl⟩
          rw [getElem?_put] at hsome
          split at hsome
          · next heq => exact Or.inr (by rw [heq])
          · exact Or.inl ⟨key, hsome, rfl⟩
        · rintro (⟨key, hsome, rfl⟩ | rfl)
          · refine ⟨key, ?_, rfl⟩
            rw [getElem?_put]
            split
            · rfl
            · exact hsome
          · exact ⟨row.id, by rw [getElem?_put, if_pos rfl]; rfl, rfl⟩
      rw [write, List.foldl_cons, ← write, ih, hput, List.map_cons, List.mem_cons, or_assoc]

theorem mem_ids_erase (key : Int64) {id : Int} :
    some id ∈ (QsoTable.contacts (ExtTreeMap.erase rows key)).map contactId ↔
      some id ∈ rows.contacts.map contactId ∧ id ≠ key.toInt := by
  rw [mem_ids, mem_ids]
  constructor
  · rintro ⟨other, hsome, rfl⟩
    rw [getElem?_erase] at hsome
    split at hsome
    · cases hsome
    · next hne => exact ⟨⟨other, hsome, rfl⟩, fun heq => hne (Int64.toInt_inj.mp heq).symm⟩
  · rintro ⟨⟨other, hsome, rfl⟩, hne⟩
    refine ⟨other, ?_, rfl⟩
    rw [getElem?_erase, if_neg fun heq => hne (by rw [heq])]
    exact hsome

end QsoTable

namespace LogSession

variable (database : DxccDatabase) {session : LogSession}

/-- The log in memory is tracked, and holds the contacts of the rows. -/
structure Tracked (session : LogSession) : Prop where
  loaded : session.loaded.Tracked
  ids : ∀ id : Int, some id ∈ session.loaded.cached.contacts.map contactId ↔
    some id ∈ session.rows.contacts.map contactId

theorem tracked_load (module : Arc ContestScoringModule) (revision : Nat) (logId : Int64)
    (rows : QsoTable) : Tracked
      { logId := logId, rows := rows
        loaded := .load database module revision (sortContactsDesc rows.contacts) } where
  loaded := LoadedLog.tracked_load database module revision rows
  ids id := by
    have hsorted := (sortContactsDesc_perm rows.contacts).map contactId
    exact ((LoadedLog.load_ids database module revision _).trans hsorted).mem_iff

theorem ids_committedRows {batch : List (Int64 × Contact)} {rows : List QsoRow}
    (h : session.committedRows database batch = some rows) :
    rows.map (fun row => row.id.toInt) = batch.map fun entry => entry.1.toInt := by
  rw [committedRows, storedRows] at h
  induction batch generalizing rows with
  | nil =>
      cases h
      rfl
  | cons entry batch ih =>
      rw [List.mapM_cons] at h
      obtain ⟨row, hrow, hrest⟩ := Option.bind_eq_some_iff.mp h
      obtain ⟨rest, hmapped, heq⟩ := Option.bind_eq_some_iff.mp hrest
      obtain rfl := Option.some.inj heq
      rw [List.map_cons, List.map_cons, ih hmapped, storedRow_eq hrow]

theorem committedIds (rows : List QsoRow) :
    (rows.map rowToContact).filterMap contactId = rows.map fun row => row.id.toInt := by
  rw [List.filterMap_map]
  refine (List.filterMap_congr fun row _ => contactId_rowToContact row).trans ?_
  rw [List.filterMap_eq_map']

theorem Tracked.upsert (h : session.Tracked) (batch : List (Int64 × Contact))
    (meanwhile : Option (Arc ContestScoringModule)) :
    (session.update database (.upsert batch meanwhile)).1.Tracked ∧
      (session.update database (.upsert batch meanwhile)).2.Tells session.loaded.cached.contacts
        none := by
  rw [LogSession.update]
  cases hrows : session.committedRows database batch with
  | none =>
      refine ⟨h, fun _ hmem => (nomatch hmem), .nil, fun _ hmem => (nomatch hmem),
        fun contact hmem heq => ?_, fun _ _ _ contact _ => Iff.rfl⟩
      have hsome := h.loaded.consistent.identified contact hmem
      rw [← heq] at hsome
      cases hsome
  | some rows =>
      have hwritten : ∀ id, id ∈ (rows.map rowToContact).filterMap contactId →
          some id ∈ (session.rows.write rows).contacts.map contactId := by
        intro id hid
        rw [committedIds] at hid
        exact (session.rows.mem_ids_write rows).mpr (Or.inr hid)
      cases meanwhile with
      | none =>
          refine ⟨⟨h.loaded.upsert _ _, fun id => ?_⟩, LoadedLog.upsert_tells h.loaded _ _⟩
          dsimp only
          rw [LoadedLog.upsert_ids h.loaded, h.ids, QsoTable.mem_ids_write, committedIds]
      | some module =>
          have hloaded := tracked_load database module session.nextRevision session.logId
            (session.rows.write rows)
          refine ⟨hloaded, LoadedLog.upsertReloaded_tells hloaded.loaded (fun contact hmem => ?_)
            fun id hid => (hloaded.ids id).mpr (hwritten id hid)⟩
          obtain ⟨id, hid⟩ := Option.isSome_iff_exists.mp
              (h.loaded.consistent.identified contact hmem)
          rw [hid]
          refine (hloaded.ids id).mpr ((session.rows.mem_ids_write rows).mpr (Or.inl ?_))
          exact (h.ids id).mp (hid ▸ List.mem_map_of_mem hmem)

theorem Tracked.delete (h : session.Tracked) (id : Int64)
    (meanwhile : Option (Arc ContestScoringModule)) :
    (session.update database (.delete id meanwhile)).1.Tracked ∧
      (session.update database (.delete id meanwhile)).2.Tells session.loaded.cached.contacts
        (some id.toInt) := by
  rw [LogSession.update]
  split
  · cases meanwhile with
    | none =>
        obtain ⟨htracked, htells⟩ := LoadedLog.delete_tracked_tells h.loaded session.nextRevision
          id.toInt
        refine ⟨⟨htracked, fun other => ?_⟩, htells⟩
        dsimp only
        rw [LoadedLog.delete_ids h.loaded, h.ids, QsoTable.mem_ids_erase]
    | some module =>
        have hloaded := tracked_load database module session.nextRevision session.logId
          (ExtTreeMap.erase session.rows id)
        refine ⟨hloaded, LoadedLog.deleteReloaded_tells hloaded.loaded (fun contact hmem hne => ?_)
          fun hin => ?_⟩
        · obtain ⟨other, hother⟩ := Option.isSome_iff_exists.mp
            (h.loaded.consistent.identified contact hmem)
          rw [hother]
          refine (hloaded.ids other).mpr
            ((session.rows.mem_ids_erase id).mpr ⟨?_, fun heq => hne ?_⟩)
          · exact (h.ids other).mp (hother ▸ List.mem_map_of_mem hmem)
          · rw [hother, heq]
        · exact ((session.rows.mem_ids_erase id).mp ((hloaded.ids id.toInt).mp hin)).2 rfl
  · next hmissing =>
      refine ⟨h, fun _ hmem => (nomatch hmem), .nil, fun _ hmem => (nomatch hmem),
        fun contact hmem heq => hmissing ?_, fun _ _ _ contact _ => Iff.rfl⟩
      have hin := (h.ids id.toInt).mp (heq ▸ List.mem_map_of_mem hmem)
      obtain ⟨key, hsome, hkey⟩ := session.rows.mem_ids.mp hin
      rw [ExtTreeMap.contains_iff_mem, ExtTreeMap.mem_iff_isSome_getElem?,
        ← Int64.toInt_inj.mp hkey]
      exact hsome

/-- What an operation leaves, and what it returns of it. -/
theorem Tracked.update (h : session.Tracked) (operation : LogOperation) :
    (session.update database operation).1.Tracked ∧
      (session.update database operation).2.Tells session.loaded.cached.contacts
        operation.removed := by
  cases operation with
  | upsert batch meanwhile => exact h.upsert database batch meanwhile
  | delete id meanwhile => exact h.delete database id meanwhile

theorem log_update (operation : LogOperation) :
    (session.update database operation).2.log = (session.update database operation).1.loaded := by
  cases operation with
  | upsert batch meanwhile =>
      rw [update]
      split
      · rfl
      · rfl
  | delete id meanwhile =>
      rw [update]
      split
      · rfl
      · rfl

/-- The steps of a session are its loads and the operations that nothing comes between. -/
theorem Tracked.step (h : session.Tracked) (event : LogEvent) :
    (session.step database event).Tracked := by
  cases event with
  | load module =>
      exact tracked_load database module session.nextRevision session.logId session.rows
  | upsert batch =>
      have hupdate := (h.upsert database batch none).1
      rw [LogSession.update] at hupdate
      rw [LogSession.step]
      split
      · exact h
      · next rows hrows =>
          rw [hrows] at hupdate
          exact hupdate
  | delete id =>
      have hupdate := (h.delete database id none).1
      rw [LogSession.update] at hupdate
      rw [LogSession.step]
      split
      · next hfound =>
          rw [if_pos hfound] at hupdate
          exact hupdate
      · exact h

theorem tracked_run (logId : Int64) (rows : QsoTable) (module : Arc ContestScoringModule)
    (events : List LogEvent) :
    ((start database logId rows module).run database events).Tracked := by
  refine List.foldlRecOn events _ (tracked_load database module 0 logId rows) fun session h
    event _ => ?_
  exact h.step database event

theorem mem_written {operation : LogOperation} {contact : Contact} {id : Int}
    (h : session.Tracked) (hmem : contact ∈ (session.update database operation).2.contacts)
    (hid : contactId contact = some id) : id ∈ operation.written := by
  cases operation with
  | delete key meanwhile =>
      rw [update] at hmem
      split at hmem
      · cases meanwhile with
        | none =>
            rw [LoadedLog.contacts_delete] at hmem
            cases hmem
        | some module => cases hmem
      · cases hmem
  | upsert batch meanwhile =>
      rw [update] at hmem
      split at hmem
      · cases hmem
      · next rows hrows =>
          have hrowIds := ids_committedRows database hrows
          rw [← committedIds] at hrowIds
          rw [LogOperation.written, ← hrowIds]
          cases meanwhile with
          | none => exact (LoadedLog.mem_ids_contacts (h.loaded.upsert _ _) hmem hid).2
          | some module =>
              have hloaded := LoadedLog.tracked_load database module session.nextRevision
                (session.rows.write rows)
              exact (LoadedLog.mem_ids_contacts hloaded hmem hid).2

end LogSession

/-- The scores of a contact. -/
def scoreMetadata (contact : Contact) : List (Option Value) :=
  scoreFields.map (contactMetaValue contact)

/-- The scores a client holds, by the id of the contact. -/
abbrev ScoreView := Int → Option (List (Option Value))

/-- The scores of the contacts of a log. -/
def scoresHeld (contacts : List Contact) : ScoreView := fun id =>
  (contactOf contacts id).map scoreMetadata

namespace ScoreView

variable (view : ScoreView)

def take (contact : Contact) : ScoreView :=
  (contactId contact).elim view fun id => Function.update view id (some (scoreMetadata contact))

/-- A client drops the contact that was deleted and takes those that are returned. -/
def apply (removed : Option Int) (contacts : List Contact) : ScoreView :=
  contacts.foldl take (removed.elim view fun id => Function.update view id none)

variable {contacts : List Contact} {id : Int}

omit [Platform] in
theorem foldl_take_of_not_mem (h : ∀ contact ∈ contacts, contactId contact ≠ some id) :
    contacts.foldl take view id = view id := by
  induction contacts generalizing view with
  | nil => rfl
  | cons contact contacts ih =>
      rw [List.foldl_cons, ih _ fun other hmem => h other (List.mem_cons_of_mem _ hmem), take]
      have hne := h contact List.mem_cons_self
      cases hid : contactId contact with
      | none => rfl
      | some other =>
          rw [hid] at hne
          exact Function.update_of_ne (fun heq => hne (by rw [heq])) _ _

omit [Platform] in
theorem foldl_take_of_mem {after : List Contact} (hdistinct : (after.map contactId).Nodup)
    (hfinal : ∀ contact ∈ contacts, contact ∈ after)
    (h : ∃ contact ∈ contacts, contactId contact = some id) :
    contacts.foldl take view id = scoresHeld after id := by
  induction contacts generalizing view with
  | nil =>
      obtain ⟨_, hmem, -⟩ := h
      cases hmem
  | cons contact contacts ih =>
      rw [List.foldl_cons]
      by_cases hlater : ∃ contact ∈ contacts, contactId contact = some id
      · exact ih _ (fun other hmem => hfinal other (List.mem_cons_of_mem _ hmem)) hlater
      · -- The last contact with the id decides.
        obtain ⟨other, hmem, hid⟩ := h
        have hhead : other = contact :=
          (List.mem_cons.mp hmem).resolve_right fun hin => hlater ⟨other, hin, hid⟩
        rw [hhead] at hid
        rw [foldl_take_of_not_mem _ fun other hin heq => hlater ⟨other, hin, heq⟩, take, hid,
          scoresHeld, (contactOf_eq_some hdistinct).mpr ⟨hfinal contact List.mem_cons_self, hid⟩]
        exact Function.update_self ..

end ScoreView

omit [Platform] in
/-- A client that held the scores of the log holds them again after it took what was returned. -/
theorem CacheUpdate.Tells.apply_eq {update : CacheUpdate} {before : List Contact}
    {removed : Option Int} (h : update.Tells before removed)
    (hbefore : (before.map contactId).Nodup)
    (hafter : (update.log.cached.contacts.map contactId).Nodup) :
    (scoresHeld before).apply removed (update.contacts ++ update.changedContacts) =
      scoresHeld update.log.cached.contacts := by
  funext id
  rw [ScoreView.apply]
  by_cases htold : ∃ contact ∈ update.contacts ++ update.changedContacts,
    contactId contact = some id
  · exact ScoreView.foldl_take_of_mem _ hafter h.final htold
  · have hnone : ∀ contact ∈ update.contacts ++ update.changedContacts,
        contactId contact ≠ some id := fun contact hmem heq => htold ⟨contact, hmem, heq⟩
    rw [ScoreView.foldl_take_of_not_mem _ hnone]
    by_cases hremoved : removed = some id
    · rw [hremoved, Option.elim_some, Function.update_self, scoresHeld]
      cases hfind : contactOf update.log.cached.contacts id with
      | none => rfl
      | some contact =>
          obtain ⟨hmem, hid⟩ := (contactOf_eq_some hafter).mp hfind
          exact absurd (hremoved.trans hid.symm) (h.gone contact hmem)
    · have hkept : removed.elim (scoresHeld before) (fun id =>
          Function.update (scoresHeld before) id none) id = scoresHeld before id := by
        cases removed with
        | none => rfl
        | some other => exact Function.update_of_ne (fun heq => hremoved (by rw [heq])) _ _
      rw [hkept, scoresHeld, scoresHeld,
        contactOf_congr hbefore hafter (h.unchanged id hremoved hnone)]

/-- What an operation returns of the contacts before and after it: each contact outside the batch
whose scores differ, every one as it is afterwards and the changed ones once, so that they bring a
client from the scores before to the scores after. -/
structure ReturnsChanges (operation : LogOperation) (before after : List Contact)
    (returned : CacheUpdate) : Prop where
  complete : ∀ id ∉ operation.written, ∀ old ∈ before, ∀ contact ∈ after,
    contactId old = some id → contactId contact = some id →
      scoreMetadata contact ≠ scoreMetadata old → contact ∈ returned.changedContacts
  final : ∀ contact ∈ returned.contacts ++ returned.changedContacts, contact ∈ after
  once : (returned.changedContacts.map contactId).Nodup
  apart : ∀ contact ∈ returned.changedContacts, ∀ committed ∈ returned.contacts,
    contactId contact ≠ contactId committed
  client : (scoresHeld before).apply operation.removed
    (returned.contacts ++ returned.changedContacts) = scoresHeld after

theorem LogSession.Tracked.returnsChanges {session : LogSession} (h : session.Tracked)
    (database : DxccDatabase) (operation : LogOperation) :
    ReturnsChanges operation session.loaded.cached.contacts
      (session.update database operation).1.loaded.cached.contacts
      (session.update database operation).2 := by
  obtain ⟨hafter, htells⟩ := h.update database operation
  have hdistinct := hafter.loaded.consistent.distinct
  rw [← LogSession.log_update] at hdistinct ⊢
  refine ⟨fun id hout old hold contact hcontact holdId hid hdiffers => ?_, htells.final,
    htells.once,
    htells.apart, htells.apply_eq h.loaded.consistent.distinct hdistinct⟩
  by_cases htold : ∃ other ∈ (session.update database operation).2.changedContacts,
      contactId other = some id
  · obtain ⟨other, hother, hotherId⟩ := htold
    have hsame := List.inj_on_of_nodup_map hdistinct
      (htells.final other (List.mem_append_right _ hother)) hcontact (hotherId.trans hid.symm)
    exact hsame ▸ hother
  · -- A contact that is not returned is the one from before.
    have hnone : ∀ other ∈ (session.update database operation).2.contacts ++
        (session.update database operation).2.changedContacts, contactId other ≠ some id := by
      intro other hmem hotherId
      cases List.mem_append.mp hmem with
      | inl hin => exact hout (LogSession.mem_written database h hin hotherId)
      | inr hin => exact htold ⟨other, hin, hotherId⟩
    have hremoved : operation.removed ≠ some id := fun heq =>
      htells.gone contact hcontact (heq.trans hid.symm)
    have hkept := (htells.unchanged id hremoved hnone old holdId).mp hold
    have hsame := List.inj_on_of_nodup_map hdistinct hkept hcontact (holdId.trans hid.symm)
    rw [hsame] at hdiffers
    exact absurd rfl hdiffers

/-- An upsert or a deletion returns the changes it makes, of every log that was loaded and written
in any order before. -/
theorem changedContacts_complete (database : DxccDatabase) (logId : Int64) (rows : QsoTable)
    (module : Arc ContestScoringModule) (events : List LogEvent) (operation : LogOperation) :
    let session := (LogSession.start database logId rows module).run database events
    ReturnsChanges operation session.loaded.cached.contacts
      (session.update database operation).1.loaded.cached.contacts
      (session.update database operation).2 :=
  (LogSession.tracked_run database logId rows module events).returnsChanges database operation

end Log73
