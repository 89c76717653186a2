import Log73.LogCache.Cached
import Log73.Scoring.Handlers

/-!
The representation invariant of a cached log, kept by the insertions and merges of
an upsert, and what the slice they leave holds.
-/

namespace Log73

open Std

theorem settled_of_contactId [Platform] {pending : List Int} {contact : Contact} {id : Int}
    (h : contactId contact = some id) : settled pending contact = !pending.contains id := by
  rw [settled, h, Option.all_some]

theorem sortContactsDesc_perm (contacts : List Contact) :
    (sortContactsDesc contacts).Perm contacts := Indexing.sortDescending_perm contacts

section Merge

variable [Platform] {contacts : List Contact} {contact : Contact} {id : Int}

omit [Platform] in
/-- A merge puts the contact in place of the one with its id. -/
theorem mergeContact_perm (hid : contactId contact = some id)
    (hdistinct : (contacts.map contactId).Nodup) :
    (mergeContact contacts contact).Perm
      (contact :: contacts.filter fun other => contactId other != some id) := by
  rw [mergeContact, hid]
  simp only
  cases hfind : contacts.findIdx? (contactId · == some id) with
  | none =>
      have hall : contacts.filter (fun other => contactId other != some id) = contacts :=
        List.filter_eq_self.mpr fun other hmem => by
          simpa using Slices.not_mem_of_findIdx?_none hfind other hmem
      rw [hall]
      exact List.perm_append_singleton contact contacts
  | some index =>
      obtain ⟨old, hget, hmatch, -⟩ := Slices.getElem?_of_findIdx? hfind
      have hold : contactId old = some id := by simpa using hmatch
      refine (Slices.set_perm_cons_eraseIdx hget contact).trans (List.Perm.cons _ ?_)
      have hnodup := ((Slices.perm_cons_eraseIdx hget).map contactId).nodup_iff.mp hdistinct
      rw [List.map_cons, List.nodup_cons, hold] at hnodup
      have hrest : (contacts.eraseIdx index).filter (fun other => contactId other != some id) =
          contacts.eraseIdx index :=
        List.filter_eq_self.mpr fun other hmem => by
          have hne : contactId other ≠ some id := fun heq =>
            hnodup.1 (heq ▸ List.mem_map_of_mem hmem)
          simpa using hne
      refine List.Perm.symm ((Slices.filter_perm_of_neg _ hget (by simp [hold])).trans
        (List.Perm.of_eq hrest))

omit [Platform] in
theorem mergeContact_distinct (hid : contactId contact = some id)
    (hdistinct : (contacts.map contactId).Nodup) :
    ((mergeContact contacts contact).map contactId).Nodup := by
  refine ((mergeContact_perm hid hdistinct).map contactId).nodup_iff.mpr ?_
  rw [List.map_cons, List.nodup_cons, hid]
  refine ⟨?_, hdistinct.sublist (List.filter_sublist.map _)⟩
  intro hmem
  obtain ⟨other, hother, heq⟩ := List.mem_map.mp hmem
  have hne := (List.mem_filter.mp hother).2
  rw [heq] at hne
  simp at hne

/-- Merging a batch of distinct ids replaces the contacts with these ids. -/
theorem foldl_mergeContact_perm (committed : List Contact) (ids : List Int)
    (hids : committed.map contactId = ids.map some) (hnodup : ids.Nodup)
    (hdistinct : (contacts.map contactId).Nodup) :
    (committed.foldl mergeContact contacts).Perm (contacts.filter (settled ids) ++ committed) := by
  induction committed generalizing contacts ids with
  | nil =>
      obtain rfl : ids = [] := by simpa using hids.symm
      have hall : contacts.filter (settled []) = contacts :=
        List.filter_eq_self.mpr fun contact _ => by
          rw [settled]
          cases contactId contact <;> rfl
      rw [hall, List.append_nil]
      exact .refl _
  | cons contact committed ih =>
      obtain ⟨id, ids, rfl⟩ : ∃ id rest, ids = id :: rest := by
        cases ids with
        | nil => cases hids
        | cons id ids => exact ⟨id, ids, rfl⟩
      rw [List.map_cons, List.map_cons, List.cons.injEq] at hids
      obtain ⟨hnot, hnodup⟩ := List.nodup_cons.mp hnodup
      have hmerge := mergeContact_perm hids.1 hdistinct
      refine (ih ids hids.2 hnodup (mergeContact_distinct hids.1 hdistinct)).trans ?_
      have hkept : settled ids contact = true := by
        rw [settled_of_contactId hids.1]
        simpa using hnot
      have hfilter : (contacts.filter fun other => contactId other != some id).filter
          (settled ids) = contacts.filter (settled (id :: ids)) := by
        rw [List.filter_filter]
        refine List.filter_congr fun other _ => ?_
        rw [settled, settled]
        cases contactId other with
        | none => rfl
        | some i =>
            by_cases heq : i = id
            · simp [heq]
            · simp [heq]
      have hstep := hmerge.filter (settled ids)
      rw [List.filter_cons_of_pos hkept, hfilter] at hstep
      exact (hstep.append_right committed).trans List.perm_middle.symm

end Merge

theorem distinct_of_nodup {contacts : List Contact} (h : (contacts.map contactId).Nodup) :
    Indexing.Distinct contactId contacts := by
  intro i j a b id ha hb hida hidb
  have hi : (contacts.map contactId)[i]? = some (some id) := by
    rw [List.getElem?_map, ha, ← hida]; rfl
  have hj : (contacts.map contactId)[j]? = some (some id) := by
    rw [List.getElem?_map, hb, ← hidb]; rfl
  have hlt : i < (contacts.map contactId).length := (List.getElem?_eq_some_iff.mp hi).1
  exact (List.getElem?_inj hlt h).mp (hi.trans hj.symm)

theorem contactCallsign_congr [Platform] {contact contact' : Contact}
    (h : Unscored contact contact') :
    contactCallsign contact = contactCallsign contact' := by
  rw [contactCallsign, contactCallsign, h.adif "CALL"]

theorem contactOrderKey_congr {contact contact' : Contact} (h : Unscored contact contact') :
    contactOrderKey contact = contactOrderKey contact' := by
  rw [contactOrderKey, contactOrderKey, h.adif "QSO_DATE_TIME_ON", h.contactId_eq]

variable [Platform]

namespace CachedLog

/-- Contacts newest first with distinct ids; each id has its position, and each callsign the
ids of its contacts, with no further entry in either index. -/
structure Consistent (log : CachedLog) : Prop where
  identified : ∀ contact ∈ log.contacts, (contactId contact).isSome
  distinct : (log.contacts.map contactId).Nodup
  newestFirst : Indexing.Descending contactOrderKey log.contacts
  positions : Indexing.IsPositions contactId log.contactPositions log.contacts
  callsigns : Indexing.IsGroups contactId contactCallsign log.callsignIndex log.contacts

namespace Consistent

variable {log : CachedLog} {contacts committed : List Contact} {contact : Contact} {id : Int}

theorem withRevision (h : Consistent log) (revision : Nat) :
    Consistent { log with revision := revision } :=
  ⟨h.identified, h.distinct, h.newestFirst, h.positions, h.callsigns⟩

/-- Both indexes are right after a rebuild, whatever they held. -/
theorem rebuildIndexes (log : CachedLog)
    (hidentified : ∀ contact ∈ log.contacts, (contactId contact).isSome)
    (hdistinct : (log.contacts.map contactId).Nodup)
    (hnewest : Indexing.Descending contactOrderKey log.contacts) :
    Consistent log.rebuildIndexes where
  identified := hidentified
  distinct := hdistinct
  newestFirst := hnewest
  positions := .rebuild (distinct_of_nodup hdistinct)
  callsigns := Indexing.IsGroups.empty.foldl log.contacts

theorem contactById_eq (h : Consistent log) (id : Int) :
    log.contactById id = log.contacts.find? (contactId · == some id) :=
  h.positions.bind_eq_find? id

theorem hasContactId_eq (h : Consistent log) (hid : contactId contact = some id)
    (hfresh : ∀ other ∈ log.contacts, contactId other ≠ some id) :
    log.hasContactId contact = false := by
  rw [hasContactId, hid, Option.any_some, ← Bool.not_eq_true, ExtTreeMap.contains_iff_mem,
    ExtTreeMap.mem_iff_isSome_getElem?]
  intro hsome
  obtain ⟨index, hindex⟩ := Option.isSome_iff_exists.mp hsome
  obtain ⟨other, hget, hother⟩ := (h.positions id index).mp hindex
  exact hfresh other (List.mem_of_getElem? hget) hother

/-- The three cases of the insert position are the point of partition. -/
theorem sortedInsertPosition_eq (h : Consistent log) (contact : Contact) :
    log.sortedInsertPosition contact = (log.contacts.takeWhile fun existing =>
      decide (contactOrderKey contact ≤ contactOrderKey existing)).length := by
  rw [sortedInsertPosition]
  have hnewest := h.newestFirst
  generalize log.contacts = contacts at hnewest ⊢
  cases contacts with
  | nil => rfl
  | cons first contacts =>
      cases hlast : (first :: contacts).getLast? with
      | none => simp at hlast
      | some last =>
          simp only [List.head?_cons]
          split
          · next hlt => rw [List.takeWhile_cons_of_neg (by simpa using hlt), List.length_nil]
          · split
            · next hle =>
                rw [List.takeWhile_eq_self_iff.mpr]
                intro existing hmem
                obtain ⟨front, hfront⟩ := List.getLast?_eq_some_iff.mp hlast
                have hlast' : contactOrderKey last ≤ contactOrderKey existing := by
                  rw [hfront] at hnewest hmem
                  rcases List.mem_append.mp hmem with hmem | hmem
                  · exact (List.pairwise_append.mp hnewest).2.2 existing hmem last (by simp)
                  · rw [List.mem_singleton.mp hmem]
                exact decide_eq_true (hle.trans hlast')
            · rfl

theorem insertNewContactSorted (h : Consistent log) (hid : contactId contact = some id)
    (hfresh : ∀ other ∈ log.contacts, contactId other ≠ some id) :
    Consistent (log.insertNewContactSorted contact) ∧
      (log.insertNewContactSorted contact).contacts.Perm (contact :: log.contacts) := by
  have hposition := h.sortedInsertPosition_eq contact
  have hle : log.sortedInsertPosition contact ≤ log.contacts.length := by
    rw [hposition]
    exact (List.takeWhile_prefix _).length_le
  have hperm : (log.contacts.insertIdx (log.sortedInsertPosition contact) contact).Perm
      (contact :: log.contacts) := List.perm_insertIdx contact log.contacts hle
  have hdistinct :
      ((log.contacts.insertIdx (log.sortedInsertPosition contact) contact).map
        contactId).Nodup := by
    refine (hperm.map contactId).nodup_iff.mpr ?_
    rw [List.map_cons, List.nodup_cons, hid]
    refine ⟨fun hmem => ?_, h.distinct⟩
    obtain ⟨other, hother, heq⟩ := List.mem_map.mp hmem
    exact hfresh other hother heq
  refine ⟨⟨?_, hdistinct, ?_, ?_, ?_⟩, hperm⟩
  · intro other hmem
    rcases List.mem_cons.mp (hperm.mem_iff.mp hmem) with rfl | hmem
    · rw [hid]; rfl
    · exact h.identified other hmem
  · have hnewest := h.newestFirst.insertIdx contact
    rwa [← hposition] at hnewest
  · refine h.positions.refresh (distinct_of_nodup hdistinct) ?_ ?_
    · exact fun other hother i hi =>
        ⟨other, hperm.mem_iff.mpr (List.mem_cons_of_mem _ hother), hi⟩
    · exact fun i hi => List.getElem?_insertIdx_of_lt hi
  · exact (h.callsigns.addToGroup contact).perm hperm.symm

/-- Inserting a batch of fresh ids never finds an id present. -/
theorem foldl_insertOrMerge (committed : List Contact) (ids : List Int) (h : Consistent log)
    (hids : committed.map contactId = ids.map some) (hnodup : ids.Nodup)
    (hfresh : ∀ id ∈ ids, ∀ other ∈ log.contacts, contactId other ≠ some id) :
    ∃ log', committed.foldl insertOrMerge (log, false) = (log', false) ∧ Consistent log' ∧
      log'.contacts.Perm (log.contacts ++ committed) ∧ log'.module = log.module := by
  induction committed generalizing log ids with
  | nil => exact ⟨log, rfl, h, by simp, rfl⟩
  | cons contact committed ih =>
      obtain ⟨id, ids, rfl⟩ : ∃ id rest, ids = id :: rest := by
        cases ids with
        | nil => cases hids
        | cons id ids => exact ⟨id, ids, rfl⟩
      rw [List.map_cons, List.map_cons, List.cons.injEq] at hids
      obtain ⟨hnot, hnodup⟩ := List.nodup_cons.mp hnodup
      have hfreshId := hfresh id List.mem_cons_self
      obtain ⟨hnew, hperm⟩ := h.insertNewContactSorted hids.1 hfreshId
      obtain ⟨log', heq, hlog', hperm', hmodule⟩ := ih ids hnew hids.2 hnodup (by
        intro i hi other hother heq
        rcases List.mem_cons.mp (hperm.mem_iff.mp hother) with rfl | hother
        · rw [hids.1, Option.some.injEq] at heq
          exact hnot (heq ▸ hi)
        · exact hfresh i (List.mem_cons_of_mem _ hi) other hother heq)
      refine ⟨log', ?_, hlog', (hperm'.trans ?_), hmodule⟩
      · rw [List.foldl_cons, insertOrMerge, h.hasContactId_eq hids.1 hfreshId]
        exact heq
      · exact (hperm.append_right committed).trans List.perm_middle.symm

/-- The slice after an upsert, with its indexes as the flag says. -/
theorem applyUpsertedContacts (h : Consistent log) (committed : List Contact) (ids : List Int)
    (hids : committed.map contactId = ids.map some) (hnodup : ids.Nodup) :
    let previous := committed.map fun contact => (contactId contact).bind log.contactById
    let applied := log.applyUpsertedContacts committed previous
    applied.1.contacts.Perm (log.contacts.filter (settled ids) ++ committed) ∧
      Indexing.Descending contactOrderKey applied.1.contacts ∧ applied.1.module = log.module ∧
      (applied.2 = false → Consistent applied.1) := by
  intro previous applied
  simp only [applied, CachedLog.applyUpsertedContacts]
  by_cases hany : previous.any Option.isSome = true
  · rw [if_pos hany]
    refine ⟨?_, Indexing.descending_sortDescending _, rfl, by simp⟩
    exact (sortContactsDesc_perm _).trans
      (foldl_mergeContact_perm committed ids hids hnodup h.distinct)
  · rw [if_neg hany]
    have hfresh : ∀ id ∈ ids, ∀ other ∈ log.contacts, contactId other ≠ some id := by
      intro id hid other hother heq
      have hmem : some id ∈ committed.map contactId := hids ▸ List.mem_map_of_mem hid
      obtain ⟨contact, hcontact, hcontactId⟩ := List.mem_map.mp hmem
      refine hany (List.any_eq_true.mpr ⟨_, List.mem_map_of_mem hcontact, ?_⟩)
      rw [hcontactId, Option.bind_some, h.contactById_eq, List.find?_isSome]
      exact ⟨other, hother, by simp [heq]⟩
    obtain ⟨log', heq, hlog', hperm, hmodule⟩ :=
      h.foldl_insertOrMerge committed ids hids hnodup hfresh
    have hall : log.contacts.filter (settled ids) = log.contacts :=
      List.filter_eq_self.mpr fun other hother => by
        rw [settled]
        cases hother' : contactId other with
        | none => rfl
        | some i =>
            have hnot : i ∉ ids := fun hi => hfresh i hi other hother hother'
            simpa using hnot
    rw [heq, hall]
    exact ⟨hperm, hlog'.newestFirst, hmodule, fun _ => hlog'⟩

/-- Scores written to the slice leave both indexes right. -/
theorem rescored (h : Consistent log) (hrescored : Rescored log.contacts contacts) :
    Consistent { log with contacts := contacts } where
  identified := hrescored.identified h.identified
  distinct := hrescored.map_contactId ▸ h.distinct
  newestFirst := Indexing.Descending.congr h.newestFirst
    (hrescored.map_eq contactOrderKey fun _ _ => contactOrderKey_congr)
  positions := h.positions.congr hrescored.map_contactId
  callsigns := h.callsigns.congr <| hrescored.map_eq _ fun a b hsame => by
    rw [hsame.contactId_eq, contactCallsign_congr hsame]

end Consistent

end CachedLog

end Log73
