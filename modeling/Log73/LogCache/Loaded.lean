import Log73.Db.Contacts
import Log73.LogCache.Consistency
import Log73.LogCache.Enrich

/-!
A loaded log: its cache entry together with the entry of the score tracker, as the
load, upsert and delete of `log_cache.rs` change them once the database has answered.
-/

namespace Log73

open Std

variable [Platform]

structure LoadedLog where
  cached : CachedLog
  tracker : Option IncrementalLogState

/-- `LogCacheUpsertResult` and `LogCacheDeleteResult`, with the log they leave. -/
structure CacheUpdate where
  log : LoadedLog
  contacts : List Contact
  changedContacts : List Contact

namespace LoadedLog

variable (log : LoadedLog)

def load (database : DxccDatabase) (module : Arc ContestScoringModule) (revision : Nat)
    (snapshot : List Contact) : LoadedLog :=
  let contacts := sortContactsDesc (enrichMissingDxcc database snapshot)
  let (state, contacts) := IncrementalScoreTracker.onLogLoaded module contacts
  { cached := { CachedLog.new module (sortContactsDesc contacts) with revision := revision }
    tracker := some state }

def previousContacts (final : List Contact) : List (Option Contact) :=
  final.map fun contact => (contactId contact).bind log.cached.contactById

/-- The slice of an upsert before the tracker sees it. -/
def mergedSlice (committed : List Contact) : CachedLog × Bool :=
  log.cached.applyUpsertedContacts (finalContacts committed)
    (log.previousContacts (finalContacts committed))

def upsert (revision : Nat) (committed : List Contact) : CacheUpdate :=
  let final := finalContacts committed
  let previous := log.previousContacts final
  let (cached, indexesDirty) := log.mergedSlice committed
  let result := IncrementalScoreTracker.onContactsUpserted log.tracker cached.module
    cached.contacts final previous
  let cached := { cached with contacts := result.contacts }
  let cached := if indexesDirty then cached.rebuildIndexes else cached
  let cached := { cached with revision := revision }
  { log := { cached := cached, tracker := result.state }
    contacts := committed.filterMap fun contact => (contactId contact).bind cached.contactById
    changedContacts := dedupeContacts result.changed (committed.filterMap contactId) }

/-- A contact that is not in the cache leaves it as it is. -/
def delete (revision : Nat) (id : Int) : CacheUpdate :=
  match log.cached.contacts.findIdx? (contactId · == some id) with
  | none => { log := log, contacts := [], changedContacts := [] }
  | some index =>
      match log.cached.contacts[index]? with
      | none => { log := log, contacts := [], changedContacts := [] }
      | some deleted =>
          let result := IncrementalScoreTracker.onContactDeleted log.tracker log.cached.module
            (log.cached.contacts.eraseIdx index) deleted
          let cached := { log.cached with contacts := result.contacts }
          { log :=
              { cached := { cached.rebuildIndexes with revision := revision }
                tracker := result.state }
            contacts := []
            changedContacts := dedupeContacts result.changed [] }

end LoadedLog

section FinalContacts

omit [Platform] in
theorem finalContacts_ids (committed : List Contact) :
    ∃ ids : List Int, (finalContacts committed).map contactId = ids.map some ∧ ids.Nodup ∧
      ∀ id, id ∈ ids ↔ id ∈ committed.filterMap contactId := by
  induction committed with
  | nil => exact ⟨[], rfl, List.nodup_nil, by simp⟩
  | cons contact committed ih =>
      obtain ⟨ids, hids, hnodup, hmem⟩ := ih
      rw [finalContacts]
      cases hid : contactId contact with
      | none => exact ⟨ids, hids, hnodup, by simpa [List.filterMap_cons, hid] using hmem⟩
      | some id =>
          simp only
          by_cases hlater : (committed.filterMap contactId).contains id = true
          · rw [if_pos hlater]
            refine ⟨ids, hids, hnodup, fun i => ?_⟩
            rw [List.filterMap_cons_some hid, List.mem_cons, hmem i]
            refine ⟨.inr, ?_⟩
            rintro (rfl | hi)
            · exact List.contains_iff_mem.mp hlater
            · exact hi
          · rw [if_neg hlater]
            refine ⟨id :: ids, by rw [List.map_cons, hids, hid, List.map_cons], ?_, fun i => ?_⟩
            · refine List.nodup_cons.mpr ⟨fun hin => hlater ?_, hnodup⟩
              exact List.contains_iff_mem.mpr ((hmem id).mp hin)
            · rw [List.filterMap_cons_some hid, List.mem_cons, List.mem_cons, hmem i]

omit [Platform] in
theorem mem_of_mem_finalContacts {committed : List Contact} {contact : Contact}
    (h : contact ∈ finalContacts committed) : contact ∈ committed := by
  induction committed with
  | nil => simp [finalContacts] at h
  | cons head committed ih =>
      rw [finalContacts] at h
      split at h
      · exact List.mem_cons_of_mem _ (ih h)
      · split at h
        · exact List.mem_cons_of_mem _ (ih h)
        · rcases List.mem_cons.mp h with rfl | h
          · exact List.mem_cons_self
          · exact List.mem_cons_of_mem _ (ih h)

end FinalContacts

namespace LoadedLog

variable {log : LoadedLog} {database : DxccDatabase} {module : Arc ContestScoringModule}
  {revision : Nat} {snapshot committed : List Contact}

/-- What the cache entry of a load is made of. -/
theorem load_rescored (database : DxccDatabase) (module : Arc ContestScoringModule)
    (snapshot : List Contact) :
    Rescored (sortContactsDesc (enrichMissingDxcc database snapshot))
      (IncrementalScoreTracker.onLogLoaded module
        (sortContactsDesc (enrichMissingDxcc database snapshot))).2 :=
  (IncrementalScoreTracker.onLogLoaded_scored _ _).rescored

theorem enrichMissingDxcc_map_contactId (database : DxccDatabase) (contacts : List Contact) :
    (enrichMissingDxcc database contacts).map contactId = contacts.map contactId := by
  rw [enrichMissingDxcc, List.map_map]
  exact List.map_congr_left fun contact _ => contactId_enrichContact database contact

/-- A load scores the contacts in the order it keeps them in. -/
theorem load_sorted (database : DxccDatabase) (module : Arc ContestScoringModule)
    (snapshot : List Contact) :
    sortContactsDesc (IncrementalScoreTracker.onLogLoaded module
        (sortContactsDesc (enrichMissingDxcc database snapshot))).2 =
      (IncrementalScoreTracker.onLogLoaded module
        (sortContactsDesc (enrichMissingDxcc database snapshot))).2 := by
  refine Indexing.Descending.sort_eq (Indexing.Descending.congr
    (Indexing.descending_sortDescending (enrichMissingDxcc database snapshot)) ?_)
  exact (load_rescored database module snapshot).map_eq contactOrderKey fun _ _ =>
    contactOrderKey_congr

theorem load_consistent (database : DxccDatabase) (module : Arc ContestScoringModule)
    (revision : Nat) (hidentified : ∀ contact ∈ snapshot, (contactId contact).isSome)
    (hdistinct : (snapshot.map contactId).Nodup) :
    (load database module revision snapshot).cached.Consistent := by
  have hids := (load_rescored database module snapshot).map_contactId
  have hperm : ((sortContactsDesc (enrichMissingDxcc database snapshot)).map contactId).Perm
      (snapshot.map contactId) := by
    rw [← enrichMissingDxcc_map_contactId database snapshot]
    exact (sortContactsDesc_perm _).map contactId
  have hsorted := load_sorted database module snapshot
  have hfresh := CachedLog.Consistent.rebuildIndexes
    { revision := 0, module := module, callsignIndex := ∅, contactPositions := ∅
      contacts := sortContactsDesc (IncrementalScoreTracker.onLogLoaded module
        (sortContactsDesc (enrichMissingDxcc database snapshot))).2 } ?_ ?_
      (Indexing.descending_sortDescending _)
  · exact hfresh.withRevision revision
  · intro contact hmem
    rw [hsorted] at hmem
    have hid : contactId contact ∈ snapshot.map contactId :=
      hperm.mem_iff.mp (hids ▸ List.mem_map_of_mem hmem)
    obtain ⟨other, hother, heq⟩ := List.mem_map.mp hid
    exact heq ▸ hidentified other hother
  · rw [hsorted, hids]
    exact hperm.nodup_iff.mpr hdistinct

/-- The slice of an upsert as the tracker gets it. -/
theorem mergedSlice_spec (h : log.cached.Consistent) (committed : List Contact)
    {ids : List Int} (hids : (finalContacts committed).map contactId = ids.map some)
    (hnodup : ids.Nodup) :
    (log.mergedSlice committed).1.contacts.Perm
        (log.cached.contacts.filter (settled ids) ++ finalContacts committed) ∧
      Indexing.Descending contactOrderKey (log.mergedSlice committed).1.contacts ∧
      (log.mergedSlice committed).1.module = log.cached.module ∧
      ((log.mergedSlice committed).2 = false → (log.mergedSlice committed).1.Consistent) :=
  h.applyUpsertedContacts (finalContacts committed) ids hids hnodup

theorem mergedSlice_identified (h : log.cached.Consistent) (committed : List Contact) :
    (∀ contact ∈ (log.mergedSlice committed).1.contacts, (contactId contact).isSome) ∧
      ((log.mergedSlice committed).1.contacts.map contactId).Nodup := by
  obtain ⟨ids, hids, hnodup, -⟩ := finalContacts_ids committed
  obtain ⟨hperm, -, -, -⟩ := mergedSlice_spec h committed hids hnodup
  constructor
  · intro contact hmem
    rcases List.mem_append.mp (hperm.mem_iff.mp hmem) with hheld | hfinal
    · exact h.identified contact (List.mem_filter.mp hheld).1
    · have hid : contactId contact ∈ ids.map some := hids ▸ List.mem_map_of_mem hfinal
      obtain ⟨id, -, heq⟩ := List.mem_map.mp hid
      rw [← heq]
      rfl
  · rw [(hperm.map contactId).nodup_iff, List.map_append, hids]
    refine List.Nodup.append (h.distinct.sublist (List.filter_sublist.map _))
      (hnodup.map (Option.some_injective _)) fun id hmem hid => ?_
    obtain ⟨contact, hcontact, rfl⟩ := List.mem_map.mp hmem
    obtain ⟨i, hi, heq⟩ := List.mem_map.mp hid
    have hsettled := (List.mem_filter.mp hcontact).2
    rw [settled_of_contactId heq.symm] at hsettled
    simp [hi] at hsettled

theorem upsert_consistent (h : log.cached.Consistent) (revision : Nat) (committed : List Contact) :
    (log.upsert revision committed).log.cached.Consistent := by
  obtain ⟨ids, hids, hnodup, -⟩ := finalContacts_ids committed
  obtain ⟨hperm, hnewest, -, hclean⟩ := mergedSlice_spec h committed hids hnodup
  obtain ⟨hidentified, hdistinct⟩ := mergedSlice_identified h committed
  simp only [upsert]
  generalize log.mergedSlice committed = merged at *
  have hrescored := (IncrementalScoreTracker.onContactsUpserted_scored log.tracker merged.1.module
    merged.1.contacts (finalContacts committed)
      (log.previousContacts (finalContacts committed))).rescored
  generalize (IncrementalScoreTracker.onContactsUpserted log.tracker merged.1.module
    merged.1.contacts (finalContacts committed)
    (log.previousContacts (finalContacts committed))).contacts = contacts at *
  cases hdirty : merged.2 with
  | false => exact ((hclean hdirty).rescored hrescored).withRevision revision
  | true =>
      have hdone := CachedLog.Consistent.rebuildIndexes { merged.1 with contacts := contacts }
        (hrescored.identified hidentified) (hrescored.map_contactId ▸ hdistinct)
        (hnewest.congr (hrescored.map_eq contactOrderKey fun _ _ => contactOrderKey_congr))
      exact hdone.withRevision revision

theorem delete_consistent (h : log.cached.Consistent) (revision : Nat) (id : Int) :
    (log.delete revision id).log.cached.Consistent := by
  rw [delete]
  split
  · exact h
  · next index hfind =>
      split
      · exact h
      · next deleted hget =>
          have hrescored := (IncrementalScoreTracker.onContactDeleted_scored log.tracker
            log.cached.module (log.cached.contacts.eraseIdx index) deleted).rescored
          have hsub := List.eraseIdx_sublist log.cached.contacts index
          have hdone := CachedLog.Consistent.rebuildIndexes
            { log.cached with
              contacts := (IncrementalScoreTracker.onContactDeleted log.tracker log.cached.module
                (log.cached.contacts.eraseIdx index) deleted).contacts }
            (hrescored.identified fun contact hmem => h.identified contact (hsub.mem hmem))
            (hrescored.map_contactId ▸ h.distinct.sublist (hsub.map contactId))
            (Indexing.Descending.congr (h.newestFirst.sublist hsub)
              (hrescored.map_eq contactOrderKey fun _ _ => contactOrderKey_congr))
          exact hdone.withRevision revision

end LoadedLog

end Log73
