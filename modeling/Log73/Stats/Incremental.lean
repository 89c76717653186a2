import Log73.LogCache.Changed
import Log73.Stats.StatsLogState

/-!
The entries that the tracker keeps through loads, upserts and deletions are those it would make
of the contacts of the log.
-/

namespace Log73

open Collating (searchIndex searchIndex_spec)

/-- The first item that is removed is the only one. -/
theorem eraseP_eq_filter {α : Type} {p : α → Bool} {items : List α}
    (h : items.Pairwise fun a b => p a = true → p b = false) :
    items.eraseP p = items.filter fun a => !p a := by
  induction items with
  | nil => rfl
  | cons first items ih =>
      obtain ⟨hfirst, hrest⟩ := List.pairwise_cons.mp h
      cases hp : p first with
      | true =>
          have hall : items.filter (fun a => !p a) = items :=
            List.filter_eq_self.mpr fun a ha => by rw [hfirst a ha hp]; rfl
          rw [List.eraseP_cons_of_pos hp, List.filter_cons_of_neg (by simp [hp]), hall]
      | false =>
          rw [List.eraseP_cons_of_neg (by simp [hp]), List.filter_cons_of_pos (by simp [hp]),
            ih hrest]

/-- Entries in order of time, each id once. -/
structure Ordered (entries : List StatsEntry) : Prop where
  sorted : entries.Pairwise fun left right => left.orderKey ≤ right.orderKey
  distinct : (entries.map StatsEntry.id).Nodup

namespace Ordered

variable {entries : List StatsEntry}

theorem filter (h : Ordered entries) (p : StatsEntry → Bool) : Ordered (entries.filter p) :=
  ⟨h.sorted.filter p, h.distinct.sublist (List.filter_sublist.map _)⟩

/-- Ordered entries are determined by what they are. -/
theorem eq_of_perm {other : List StatsEntry} (h : Ordered entries) (hother : Ordered other)
    (hperm : entries.Perm other) : entries = other := by
  refine hperm.eq_of_pairwise (fun a b ha hb hab hba => ?_) h.sorted hother.sorted
  have hkey : a.orderKey = b.orderKey := le_antisymm hab hba
  have hid : a.id = b.id := congrArg (fun key => (ofLex key).2) hkey
  exact List.inj_on_of_nodup_map h.distinct ha (hperm.mem_iff.mpr hb) hid

theorem removeContact_eq {state : StatsLogState} (h : Ordered state.contacts) (id : Int) :
    (state.removeContact id).contacts = state.contacts.filter fun entry => entry.id ≠ id := by
  have hone : state.contacts.Pairwise fun a b =>
      decide (a.id = id) = true → decide (b.id = id) = false := by
    refine (List.pairwise_map.mp h.distinct).imp fun {a b} hne ha => ?_
    exact decide_eq_false fun hb => hne ((of_decide_eq_true ha).trans hb.symm)
  rw [StatsLogState.removeContact, eraseP_eq_filter hone]
  simp only [ne_eq, decide_not]

theorem foldl_removeContact {state : StatsLogState} (h : Ordered state.contacts) (ids : List Int) :
    (ids.foldl StatsLogState.removeContact state).contacts =
      state.contacts.filter fun entry => entry.id ∉ ids := by
  induction ids generalizing state with
  | nil => simp
  | cons id ids ih =>
      have hremoved := h.removeContact_eq id
      have hordered : Ordered (state.removeContact id).contacts := hremoved ▸ h.filter _
      rw [List.foldl_cons, ih hordered, hremoved, List.filter_filter]
      refine List.filter_congr fun entry _ => ?_
      simp [Bool.and_comm]

/-- An entry under a new id finds its place. -/
theorem upsertContact_spec {state : StatsLogState} (h : Ordered state.contacts)
    {entry : StatsEntry} (hnew : entry.id ∉ state.contacts.map StatsEntry.id) :
    (state.upsertContact entry).contacts.Perm (entry :: state.contacts) ∧
      Ordered (state.upsertContact entry).contacts := by
  have hkept : (state.removeContact entry.id).contacts = state.contacts := by
    rw [h.removeContact_eq, List.filter_eq_self]
    intro other hmem
    refine decide_eq_true fun heq => hnew ?_
    exact heq ▸ List.mem_map_of_mem hmem
  have hbefore : state.contacts.Pairwise fun a b =>
      decide (b.orderKey < entry.orderKey) = true →
        decide (a.orderKey < entry.orderKey) = true := by
    refine h.sorted.imp fun {a b} hle hb => ?_
    exact decide_eq_true (hle.trans_lt (of_decide_eq_true hb))
  have hbounds := searchIndex_spec hbefore
  have hperm : (state.upsertContact entry).contacts.Perm (entry :: state.contacts) := by
    rw [StatsLogState.upsertContact]
    dsimp only
    rw [hkept]
    exact List.perm_insertIdx entry _ hbounds.length
  refine ⟨hperm, ?_, ?_⟩
  · rw [StatsLogState.upsertContact]
    dsimp only
    rw [hkept]
    apply hbounds.pairwise_insertIdx h.sorted
    · exact fun a ha => (of_decide_eq_true ha).le
    · exact fun a ha => not_lt.mp (of_decide_eq_false ha)
  · rw [(hperm.map StatsEntry.id).nodup_iff, List.map_cons]
    exact List.nodup_cons.mpr ⟨hnew, h.distinct⟩

theorem foldl_upsertContact {state : StatsLogState} (h : Ordered state.contacts)
    {added : List StatsEntry} (hnodup : (added.map StatsEntry.id).Nodup)
    (hnew : ∀ entry ∈ added, entry.id ∉ state.contacts.map StatsEntry.id) :
    (added.foldl StatsLogState.upsertContact state).contacts.Perm (state.contacts ++ added) ∧
      Ordered (added.foldl StatsLogState.upsertContact state).contacts := by
  induction added generalizing state with
  | nil => exact ⟨.of_eq (List.append_nil _).symm, h⟩
  | cons entry added ih =>
      rw [List.map_cons, List.nodup_cons] at hnodup
      obtain ⟨hperm, hordered⟩ := h.upsertContact_spec (hnew entry List.mem_cons_self)
      have hlater : ∀ other ∈ added,
          other.id ∉ (state.upsertContact entry).contacts.map StatsEntry.id := by
        intro other hmem hin
        rw [(hperm.map StatsEntry.id).mem_iff, List.map_cons, List.mem_cons] at hin
        rcases hin with heq | hold
        · exact hnodup.1 (heq ▸ List.mem_map_of_mem hmem)
        · exact hnew other (List.mem_cons_of_mem _ hmem) hold
      obtain ⟨hall, hdone⟩ := ih hordered hnodup.2 hlater
      refine ⟨hall.trans ?_, hdone⟩
      exact (hperm.append_right added).trans List.perm_middle.symm

end Ordered

section Entries

variable [Platform] {contacts : List Contact}

theorem id_of_statsEntry {contact : Contact} {entry : StatsEntry}
    (h : statsEntry contact = some entry) : contactId contact = some entry.id := by
  rw [statsEntry] at h
  obtain ⟨id, hid, h⟩ := Option.bind_eq_some_iff.mp h
  obtain ⟨epoch, -, rfl⟩ := Option.map_eq_some_iff.mp h
  exact hid

theorem statsEntry_congr {contact contact' : Contact} (h : Unscored contact contact') :
    statsEntry contact = statsEntry contact' := by
  rw [statsEntry, statsEntry, h.contactId_eq, h.adif "QSO_DATE_TIME_ON", h.adif "OPERATOR"]

/-- Scores do not count in the statistics. -/
theorem Rescored.filterMap_statsEntry {before after : List Contact} (h : Rescored before after) :
    after.filterMap statsEntry = before.filterMap statsEntry := by
  have hmap := h.map_eq statsEntry fun _ _ => statsEntry_congr
  have hid (contacts : List Contact) :
      contacts.filterMap statsEntry = (contacts.map statsEntry).filterMap id := by
    rw [List.filterMap_map]
    rfl
  rw [hid, hid, hmap]

theorem nodup_statsEntry_ids (h : (contacts.map contactId).Nodup) :
    ((contacts.filterMap statsEntry).map StatsEntry.id).Nodup := by
  refine List.pairwise_map.mpr (List.pairwise_filterMap.mpr ?_)
  refine (List.pairwise_map.mp h).imp fun {a b} hne entry hentry other hother heq => hne ?_
  rw [id_of_statsEntry hentry, id_of_statsEntry hother, heq]

theorem filterMap_statsEntry_filter (contacts : List Contact) (keep : Option Int → Bool) :
    (contacts.filter fun contact => keep (contactId contact)).filterMap statsEntry =
      (contacts.filterMap statsEntry).filter fun entry => keep (some entry.id) := by
  induction contacts with
  | nil => rfl
  | cons contact contacts ih =>
      cases hentry : statsEntry contact with
      | none =>
          rw [List.filterMap_cons_none hentry, ← ih, List.filter_cons]
          split
          · rw [List.filterMap_cons_none hentry]
          · rfl
      | some entry =>
          rw [List.filterMap_cons_some hentry, List.filter_cons, List.filter_cons,
            id_of_statsEntry hentry]
          split
          · rw [List.filterMap_cons_some hentry, ih]
          · exact ih

end Entries

section Exact

variable [Platform]

/-- The entries of the contacts, in order. -/
structure StatsLogState.Exact (state : StatsLogState) (contacts : List Contact) : Prop where
  perm : state.contacts.Perm (contacts.filterMap statsEntry)
  sorted : state.contacts.Pairwise fun left right => left.orderKey ≤ right.orderKey

variable {contacts : List Contact} {state : StatsLogState}

theorem exact_fromContacts (contacts : List Contact) :
    (StatsLogState.fromContacts contacts).Exact contacts where
  perm := List.mergeSort_perm _ _
  sorted := by
    have htrans (a b c : StatsEntry) (hab : decide (a.orderKey ≤ b.orderKey) = true)
        (hbc : decide (b.orderKey ≤ c.orderKey) = true) : decide (a.orderKey ≤ c.orderKey) = true :=
      decide_eq_true ((of_decide_eq_true hab).trans (of_decide_eq_true hbc))
    have htotal (a b : StatsEntry) :
        (decide (a.orderKey ≤ b.orderKey) || decide (b.orderKey ≤ a.orderKey)) = true := by
      rw [Bool.or_eq_true, decide_eq_true_iff, decide_eq_true_iff]
      exact le_total a.orderKey b.orderKey
    exact (List.pairwise_mergeSort htrans htotal (contacts.filterMap statsEntry)).imp
      fun hle => of_decide_eq_true hle

namespace StatsLogState.Exact

theorem ordered (h : state.Exact contacts) (hdistinct : (contacts.map contactId).Nodup) :
    Ordered state.contacts where
  sorted := h.sorted
  distinct := (h.perm.map StatsEntry.id).nodup_iff.mpr (nodup_statsEntry_ids hdistinct)

theorem eq_fromContacts (h : state.Exact contacts) (hdistinct : (contacts.map contactId).Nodup) :
    state = .fromContacts contacts := by
  have hsorted := exact_fromContacts contacts
  have hentries := (h.ordered hdistinct).eq_of_perm (hsorted.ordered hdistinct)
    (h.perm.trans hsorted.perm.symm)
  cases state
  exact congrArg StatsLogState.mk hentries

theorem congr {contacts' : List Contact} (h : state.Exact contacts)
    (hperm : (contacts.filterMap statsEntry).Perm (contacts'.filterMap statsEntry)) :
    state.Exact contacts' :=
  ⟨h.perm.trans hperm, h.sorted⟩

end StatsLogState.Exact

end Exact

namespace TrackedLog

variable [Platform] {log : TrackedLog}

/-- The statistics are those of the cached contacts. -/
structure Sound (log : TrackedLog) : Prop where
  consistent : log.loaded.cached.Consistent
  exact : log.stats.Exact log.loaded.cached.contacts

theorem load_contacts_perm (database : DxccDatabase) (module : Arc ContestScoringModule)
    (revision : Nat) (stored : StoredContacts) :
    ((load database module revision stored).loaded.cached.contacts.filterMap statsEntry).Perm
      ((enrichMissingDxcc database stored.contacts).filterMap statsEntry) := by
  have hrescored := LoadedLog.load_rescored database module stored.contacts
  have hsorted := (sortContactsDesc_perm (enrichMissingDxcc database stored.contacts)).filterMap
    statsEntry
  rw [← hrescored.filterMap_statsEntry] at hsorted
  exact ((sortContactsDesc_perm _).filterMap statsEntry).trans hsorted

theorem sound_load (database : DxccDatabase) (module : Arc ContestScoringModule) (revision : Nat)
    (stored : StoredContacts) : (load database module revision stored).Sound where
  consistent :=
    LoadedLog.load_consistent database module revision stored.identified stored.distinct
  exact := by
    refine (exact_fromContacts _).congr ?_
    have hsorted := (sortContactsDesc_perm (enrichMissingDxcc database stored.contacts)).filterMap
      statsEntry
    exact hsorted.trans (load_contacts_perm database module revision stored).symm

variable {database : DxccDatabase}

/-- The ids that are taken out before a batch is put in, of those that have an entry. -/
theorem Sound.mem_previous_iff (h : log.Sound) {final : List Contact} {ids : List Int}
    (hids : final.map contactId = ids.map some) {entry : StatsEntry}
    (hentry : entry ∈ log.stats.contacts) :
    entry.id ∈ (log.loaded.previousContacts final).filterMap (fun previous =>
      previous.bind contactId) ↔ entry.id ∈ ids := by
  have hmem (id : Int) : id ∈ ids ↔ ∃ contact ∈ final, contactId contact = some id := by
    have hmap : some id ∈ final.map contactId ↔ some id ∈ ids.map some := by rw [hids]
    rw [List.mem_map, List.mem_map] at hmap
    simpa using hmap.symm
  have hfound (id : Int) (contact : Contact)
      (hfind : log.loaded.cached.contactById id = some contact) : contactId contact = some id := by
    rw [h.consistent.contactById_eq] at hfind
    simpa using List.find?_some hfind
  rw [List.mem_filterMap, hmem]
  constructor
  · rintro ⟨previous, hprevious, hid⟩
    obtain ⟨contact, hcontact, rfl⟩ := List.mem_map.mp hprevious
    obtain ⟨held, hheld, hid⟩ := Option.bind_eq_some_iff.mp hid
    obtain ⟨id, hcontactId, hfind⟩ := Option.bind_eq_some_iff.mp hheld
    rw [hfound id held hfind, Option.some.injEq] at hid
    exact ⟨contact, hcontact, hid ▸ hcontactId⟩
  · rintro ⟨contact, hcontact, hid⟩
    refine ⟨_, List.mem_map_of_mem hcontact, ?_⟩
    obtain ⟨cached, hcached, hstats⟩ := List.mem_filterMap.mp (h.exact.perm.mem_iff.mp hentry)
    have hsome : (log.loaded.cached.contactById entry.id).isSome := by
      rw [h.consistent.contactById_eq, List.find?_isSome]
      exact ⟨cached, hcached, by rw [id_of_statsEntry hstats]; exact beq_self_eq_true _⟩
    obtain ⟨held, hheld⟩ := Option.isSome_iff_exists.mp hsome
    rw [hid, Option.bind_some, hheld, Option.bind_some, hfound entry.id held hheld]

theorem Sound.upsert (h : log.Sound) (committed : List Contact) :
    (log.step database (.upsert committed)).Sound where
  consistent := LoadedLog.upsert_consistent h.consistent _ _
  exact := by
    obtain ⟨ids, hids, hnodup, -⟩ := finalContacts_ids committed
    obtain ⟨hmerged, -, -, -⟩ :=
      LoadedLog.mergedSlice_spec h.consistent committed hids hnodup
    have hordered := h.exact.ordered h.consistent.distinct
    have hfinal : ((finalContacts committed).map contactId).Nodup := by
      rw [hids]
      exact hnodup.map (Option.some_injective _)
    have hremoved := hordered.foldl_removeContact
      ((log.loaded.previousContacts (finalContacts committed)).filterMap fun previous =>
        previous.bind contactId)
    have hsettled : log.stats.contacts.filter (fun entry => entry.id ∉
        (log.loaded.previousContacts (finalContacts committed)).filterMap fun previous =>
          previous.bind contactId) = log.stats.contacts.filter fun entry => entry.id ∉ ids :=
      List.filter_congr fun entry hentry => decide_eq_decide.mpr
        (h.mem_previous_iff hids hentry).not
    rw [hsettled] at hremoved
    obtain ⟨hperm, hdone⟩ := Ordered.foldl_upsertContact (hremoved ▸ hordered.filter _)
      (nodup_statsEntry_ids hfinal) (by
        intro entry hentry hin
        rw [hremoved] at hin
        obtain ⟨other, hother, heq⟩ := List.mem_map.mp hin
        obtain ⟨contact, hcontact, hstats⟩ := List.mem_filterMap.mp hentry
        have hid : contactId contact ∈ ids.map some := hids ▸ List.mem_map_of_mem hcontact
        rw [id_of_statsEntry hstats] at hid
        obtain ⟨id, hmem, hsame⟩ := List.mem_map.mp hid
        have hnot : other.id ∉ ids := of_decide_eq_true (List.mem_filter.mp hother).2
        rw [heq, ← Option.some.inj hsame] at hnot
        exact hnot hmem)
    refine ⟨hperm.trans ?_, hdone.sorted⟩
    have hslice : ((log.step database (.upsert committed)).loaded.cached.contacts).filterMap
        statsEntry = (log.loaded.mergedSlice committed).1.contacts.filterMap statsEntry := by
      have hrescored := (IncrementalScoreTracker.onContactsUpserted_scored log.loaded.tracker
        (log.loaded.mergedSlice committed).1.module (log.loaded.mergedSlice committed).1.contacts
        (finalContacts committed)
        (log.loaded.previousContacts (finalContacts committed))).rescored
      rw [← hrescored.filterMap_statsEntry, ← LoadedLog.cached_upsert log.nextRevision committed]
      rfl
    have hkept : (log.loaded.cached.contacts.filter (settled ids)).filterMap statsEntry =
        (log.loaded.cached.contacts.filterMap statsEntry).filter fun entry => entry.id ∉ ids := by
      refine (filterMap_statsEntry_filter _ fun id => id.all fun id => !ids.contains id).trans ?_
      refine List.filter_congr fun entry _ => ?_
      simp
    rw [hslice]
    refine List.Perm.trans ?_ (hmerged.filterMap statsEntry).symm
    rw [hremoved, List.filterMap_append, hkept]
    exact (h.exact.perm.filter _).append_right _

theorem Sound.delete (h : log.Sound) (id : Int) :
    (log.step database (.delete id)).Sound where
  consistent := LoadedLog.delete_consistent h.consistent _ _
  exact := by
    have hordered := h.exact.ordered h.consistent.distinct
    have hfind : log.loaded.cached.contacts.find? (contactId · == some id) =
        (log.loaded.cached.contacts.findIdx? (contactId · == some id)).bind
          (log.loaded.cached.contacts[·]?) := List.find?_eq_bind_findIdx?_getElem?
    rw [step, LoadedLog.delete, hfind]
    dsimp only
    cases hindex : log.loaded.cached.contacts.findIdx? (contactId · == some id) with
    | none => exact h.exact
    | some index =>
        obtain ⟨deleted, hget, hmatch, -⟩ := Slices.getElem?_of_findIdx? hindex
        have hid : contactId deleted = some id := by simpa using hmatch
        rw [Option.bind_some, hget, Option.elim_some, StatsTracker.onContactDeleted, hid,
          Option.elim_some]
        dsimp only
        have hrescored := (IncrementalScoreTracker.onContactDeleted_scored log.loaded.tracker
          log.loaded.cached.module (log.loaded.cached.contacts.eraseIdx index) deleted).rescored
        have hremoved := hordered.removeContact_eq id
        refine ⟨?_, hremoved ▸ (hordered.filter _).sorted⟩
        have hcontacts := Slices.perm_cons_eraseIdx hget
        have hentries := hcontacts.filterMap statsEntry
        have hrest : ((log.loaded.cached.contacts.eraseIdx index).filterMap statsEntry).filter
            (fun entry => entry.id ≠ id) =
              (log.loaded.cached.contacts.eraseIdx index).filterMap statsEntry := by
          rw [List.filter_eq_self]
          intro entry hentry
          obtain ⟨contact, hmem, hstats⟩ := List.mem_filterMap.mp hentry
          have hdistinct := (hcontacts.map contactId).nodup_iff.mp h.consistent.distinct
          rw [List.map_cons, List.nodup_cons] at hdistinct
          refine decide_eq_true fun heq => hdistinct.1 ?_
          rw [hid, ← heq, ← id_of_statsEntry hstats]
          exact List.mem_map_of_mem hmem
        have hgone : (List.filterMap statsEntry [deleted]).filter (fun entry => entry.id ≠ id) =
            [] := by
          rw [List.filter_eq_nil_iff]
          intro entry hentry
          obtain ⟨contact, hmem, hstats⟩ := List.mem_filterMap.mp hentry
          have heq := id_of_statsEntry hstats
          rw [List.mem_singleton.mp hmem, hid] at heq
          simpa using (Option.some.inj heq).symm
        rw [hremoved]
        refine ((h.exact.perm.trans hentries).filter _).trans ?_
        rw [← List.singleton_append, List.filterMap_append, List.filter_append, hgone, hrest,
          List.nil_append, ← hrescored.filterMap_statsEntry]
        simp only [hget]
        rfl

end TrackedLog

end Log73
