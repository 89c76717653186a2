import Mathlib.Data.List.ReduceOption
import Log73.Scoring.Batch

/-!
The handlers of the tracker keep the account of a log, provided that the searches of
a batch never stop at a contact of the batch that is not scored yet.
-/

namespace Log73

open Std

variable [Platform]

/-- The first candidate of the slice, if there is one, is not pending. -/
def searchStaysOut (pending : List Int) (slice : List Contact) (candidate : Contact → Bool) :
    Bool :=
  (slice.find? candidate).all (settled pending)

/-- Each key the removed contact owns is searched for without meeting a pending contact. -/
def uncontested (state : IncrementalLogState) (slice : List Contact) (pending : List Int)
    (skip : Option Int) (deleted : Contact) : Bool :=
  ((state.module.value.dupeKeyFor deleted).all fun key =>
      isDupeContact deleted || searchStaysOut pending slice (state.isDupeReplacement key skip))
    && ((IncrementalLogState.freedKeys state.multiplierOwners (contactId deleted)).all fun key =>
      searchStaysOut pending slice (state.isMultiplierReplacement key skip))
    && ((IncrementalLogState.freedKeys state.bonusOwners (contactId deleted)).all fun key =>
      searchStaysOut pending slice (state.isBonusReplacement key skip))

section Search

variable {pending : List Int} {start sweep : Sweep} {skip : Option Int} {deleted : Contact}

omit [Platform] in
/-- A search later in the sweep stops where the search at its start did, or earlier, at a
contact that was a dupe then. -/
theorem found_settled (htracks : Tracks pending start sweep)
    (hfresh : ∀ contact ∈ start.contacts, settled pending contact = false →
      isDupeContact contact = false)
    {before after : Contact → Bool}
    (hkeep : ∀ old new, Evolves old new → before old = true → after new = true)
    (hback : ∀ old new, Evolves old new → isDupeContact old = false → after new = true →
      before old = true)
    (hstays : searchStaysOut pending start.contacts before = true) (index : Nat)
    (contact : Contact) (hfind : sweep.contacts.findIdx? after = some index)
    (hget : sweep.contacts[index]? = some contact) : settled pending contact = true := by
  obtain ⟨found, hfound, hafter, hfirst⟩ := Slices.getElem?_of_findIdx? hfind
  obtain rfl : found = contact := Option.some.inj (hfound.symm.trans hget)
  have hlt : index < start.contacts.length := htracks.length ▸ Slices.length_of_getElem? hget
  have hold := List.getElem?_eq_getElem hlt
  have hevolves := htracks.evolves index _ found hold hget
  rw [settled_congr hevolves.same.contactId_eq]
  cases hdupe : isDupeContact start.contacts[index] with
  | true =>
      by_contra hnot
      rw [hfresh _ (List.getElem_mem hlt) (by simpa using hnot)] at hdupe
      cases hdupe
  | false =>
      have hmatch := hback _ found hevolves hdupe hafter
      cases hstart : start.contacts.findIdx? before with
      | none =>
          have hno := Slices.not_mem_of_findIdx?_none hstart _ (List.getElem_mem hlt)
          rw [hmatch] at hno
          cases hno
      | some first =>
          obtain ⟨old, hget', hbefore, hnone⟩ := Slices.getElem?_of_findIdx? hstart
          have hle : first ≤ index := by
            by_contra hgt
            rw [hnone index (by omega) _ hold] at hmatch
            cases hmatch
          have hge : index ≤ first := by
            by_contra hgt
            have hlt' : first < sweep.contacts.length :=
              htracks.length ▸ Slices.length_of_getElem? hget'
            have hnew := List.getElem?_eq_getElem hlt'
            have hnot := hfirst first (by omega) _ hnew
            rw [hkeep old _ (htracks.evolves first old _ hget' hnew) hbefore] at hnot
            cases hnot
          obtain rfl : first = index := by omega
          rw [searchStaysOut, List.find?_eq_bind_findIdx?_getElem?, hstart, Option.bind_some,
            hget', Option.all_some] at hstays
          obtain rfl : old = start.contacts[first] := Option.some.inj (hget'.symm.trans hold)
          exact hstays

omit [Platform] in
theorem isCandidate_congr {old new : Contact} (h : Unscored new old) :
    IncrementalLogState.isCandidate skip new = IncrementalLogState.isCandidate skip old := by
  rw [IncrementalLogState.isCandidate, IncrementalLogState.isCandidate, h.contactId_eq]

theorem searchesSettled_of_uncontested
    (hreads : start.state.module.value.rules.scoring.ReadsNoScores)
    (hfresh : ∀ contact ∈ start.contacts, settled pending contact = false →
      isDupeContact contact = false)
    {id : Int} (hid : contactId deleted = some id)
    (h : uncontested start.state start.contacts pending skip deleted = true) :
    SearchesSettled pending skip start deleted := by
  have hfreed : ∀ (owners : KeyMap Int) (key : String), owners[key]? = contactId deleted →
      key ∈ IncrementalLogState.freedKeys owners (contactId deleted) := by
    intro owners key howner
    rw [hid] at howner ⊢
    exact (Ledger.mem_keysOf owners id key).mpr howner
  simp only [uncontested, Bool.and_eq_true, List.all_eq_true] at h
  obtain ⟨⟨hdupes, hmultipliers⟩, hbonuses⟩ := h
  constructor
  · intro key hkey hnot sweep htracks
    rw [hkey, Option.all_some, hnot, Bool.false_or] at hdupes
    have hsame : ∀ old new, Evolves old new → sweep.state.isDupeReplacement key skip new =
        start.state.isDupeReplacement key skip old := by
      intro old new hstep
      rw [IncrementalLogState.isDupeReplacement, IncrementalLogState.isDupeReplacement,
        htracks.module, isCandidate_congr hstep.same,
        ContestScoringModule.dupeKeyFor_congr hreads hstep.same]
    exact found_settled htracks hfresh (fun old new hstep hb => hsame old new hstep ▸ hb)
      (fun old new hstep _ ha => hsame old new hstep ▸ ha) hdupes
  · intro key howner sweep htracks
    refine found_settled htracks hfresh ?_ ?_ (hmultipliers key (hfreed _ key howner))
    · intro old new hstep hb
      simp only [IncrementalLogState.isMultiplierReplacement, Bool.and_eq_true,
        Bool.not_eq_true'] at hb ⊢
      rw [htracks.module, isCandidate_congr hstep.same,
        ContestScoringModule.multiplierKeysFor_congr hreads hstep.same]
      exact ⟨⟨hb.1.1, hstep.original hb.1.2⟩, hb.2⟩
    · intro old new hstep hnot ha
      simp only [IncrementalLogState.isMultiplierReplacement, Bool.and_eq_true,
        Bool.not_eq_true'] at ha ⊢
      rw [htracks.module, isCandidate_congr hstep.same,
        ContestScoringModule.multiplierKeysFor_congr hreads hstep.same] at ha
      exact ⟨⟨ha.1.1, hnot⟩, ha.2⟩
  · intro key howner sweep htracks
    refine found_settled htracks hfresh ?_ ?_ (hbonuses key (hfreed _ key howner))
    · intro old new hstep hb
      simp only [IncrementalLogState.isBonusReplacement, Bool.and_eq_true,
        Bool.not_eq_true'] at hb ⊢
      rw [htracks.module, isCandidate_congr hstep.same,
        ContestScoringModule.bonusKeysFor_congr hreads hstep.same]
      exact ⟨⟨hb.1.1, hstep.original hb.1.2⟩, hb.2⟩
    · intro old new hstep hnot ha
      simp only [IncrementalLogState.isBonusReplacement, Bool.and_eq_true,
        Bool.not_eq_true'] at ha ⊢
      rw [htracks.module, isCandidate_congr hstep.same,
        ContestScoringModule.bonusKeysFor_congr hreads hstep.same] at ha
      exact ⟨⟨ha.1.1, hnot⟩, ha.2⟩

end Search

omit [Platform] in
theorem eligible_of_mem {pending : List Int} {id : Int} (h : id ∈ pending) :
    Eligible pending (some id) := by
  intro contact hsettled hsome
  obtain ⟨other, hother⟩ := Option.isSome_iff_exists.mp hsome
  rw [settled, hother] at hsettled
  rw [IncrementalLogState.isCandidate, hother]
  have hne : id ≠ other := by
    rintro rfl
    simp [h] at hsettled
  simp [hne]

omit [Platform] in
theorem eligible_none (pending : List Int) : Eligible pending none := by
  intro contact _ hsome
  obtain ⟨other, hother⟩ := Option.isSome_iff_exists.mp hsome
  simp [IncrementalLogState.isCandidate, hother]

section Phases

variable {pending : List Int} {start sweep : Sweep}

/-- The first phase of a batch removes the replaced versions one after the other. -/
theorem SweepOk.removePrevious (previous : List Contact)
    (h : SweepOk pending previous [] [] sweep) (htracks : Tracks pending start sweep)
    (hprevious : ∀ deleted ∈ previous, (∃ id ∈ pending, contactId deleted = some id) ∧
      SearchesSettled pending (contactId deleted) start deleted) :
    SweepOk pending [] [] [] (sweep.removePrevious previous) ∧
      Tracks pending start (sweep.removePrevious previous) := by
  induction previous generalizing sweep with
  | nil => exact ⟨h, htracks⟩
  | cons deleted previous ih =>
      obtain ⟨⟨id, hpending, hid⟩, hsearch⟩ := hprevious deleted List.mem_cons_self
      obtain ⟨hstep, htracks'⟩ := h.removeContact htracks hid hpending
        (hid ▸ eligible_of_mem hpending) hsearch
      exact ih hstep htracks' fun c hc => hprevious c (List.mem_cons_of_mem _ hc)

theorem SweepOk.kept (h : SweepOk pending [] [] [] sweep) :
    Kept sweep.state (sweep.contacts.filter (settled pending)) := by
  have hbalanced := h.balanced
  have hdupes := h.dupes
  rw [List.append_nil] at hbalanced hdupes
  exact ⟨h.rules.reads, hbalanced, hdupes, fun _ => h.keys⟩

theorem Kept.perm {state : IncrementalLogState} {contacts contacts' : List Contact}
    (h : Kept state contacts) (hperm : contacts.Perm contacts') : Kept state contacts' where
  reads := h.reads
  balanced := h.balanced.perm hperm
  dupes other hmem key hkey := by
    obtain ⟨original, horig, hrest⟩ := h.dupes other (hperm.mem_iff.mpr hmem) key hkey
    exact ⟨original, hperm.mem_iff.mp horig, hrest⟩
  keys huncapped other hmem := h.keys huncapped other (hperm.mem_iff.mpr hmem)

theorem Kept.addContact {state : IncrementalLogState} {contacts : List Contact}
    {contact : Contact} {id : Int} (h : Kept state contacts) (hid : contactId contact = some id)
    (hfresh : ∀ other ∈ contacts, contactId other ≠ some id) :
    Kept (state.addContact contact).1 ((state.addContact contact).2 :: contacts) := by
  have hmodule := state.addContact_module contact
  exact ⟨hmodule ▸ h.reads, h.balanced.addContact h.reads hid hfresh,
    h.dupes.addContact h.balanced.groups h.reads,
    fun huncapped => (h.keys (hmodule ▸ huncapped)).addContact ⟨hmodule ▸ huncapped, h.reads⟩ hid⟩

/-- Scoring the contact of the slice whose id comes first in the pending ones. -/
theorem Kept.addCommitted {id : Int} {rest : List Int} {committed : Contact}
    (h : Kept sweep.state (sweep.contacts.filter (settled (id :: rest))))
    (hid : contactId committed = some id) (hrest : id ∉ rest)
    (hdistinct : (sweep.contacts.map contactId).Nodup)
    (hmem : some id ∈ sweep.contacts.map contactId) :
    Kept (sweep.addCommitted committed).state
        ((sweep.addCommitted committed).contacts.filter (settled rest)) ∧
      (sweep.addCommitted committed).state.module = sweep.state.module := by
  obtain ⟨present, hpresent, hpresentId⟩ := List.mem_map.mp hmem
  cases hfind : sweep.contacts.findIdx? (contactId · == some id) with
  | none =>
      have hno := Slices.not_mem_of_findIdx?_none hfind present hpresent
      simp [hpresentId] at hno
  | some index =>
      obtain ⟨contact, hget, hmatch, -⟩ := Slices.getElem?_of_findIdx? hfind
      have hcontactId : contactId contact = some id := by simpa using hmatch
      simp only [Sweep.addCommitted, hid, hfind, hget]
      have hsame := sweep.state.addContact_unscored contact
      have hother : ∀ other ∈ sweep.contacts.eraseIdx index, contactId other ≠ some id := by
        intro other hother heq
        have hnodup := ((Slices.perm_cons_eraseIdx hget).map contactId).nodup_iff.mp hdistinct
        exact (List.nodup_cons.mp hnodup).1
          (hcontactId ▸ heq ▸ List.mem_map_of_mem hother)
      have hfilter : (sweep.contacts.eraseIdx index).filter (settled (id :: rest)) =
          (sweep.contacts.eraseIdx index).filter (settled rest) := by
        refine List.filter_congr fun other hmem => ?_
        have hne := hother other hmem
        rw [settled, settled]
        cases hotherId : contactId other with
        | none => rfl
        | some j =>
            rw [hotherId, ne_eq, Option.some.injEq] at hne
            simp [hne]
      have hbefore := Slices.filter_perm_of_neg (settled (id :: rest)) hget
        (by simp [settled, hcontactId])
      rw [hfilter] at hbefore
      have hsettled : settled rest (sweep.state.addContact contact).2 = true := by
        rw [settled, hsame.contactId_eq, hcontactId]
        simpa using hrest
      have hafter := Slices.filter_set_perm_of_pos (settled rest) hget hsettled
      refine ⟨?_, sweep.state.addContact_module contact⟩
      exact ((h.perm hbefore).addContact hcontactId fun other hmem =>
        hother other (List.mem_filter.mp hmem).1).perm hafter.symm

/-- The second phase of a batch scores the committed contacts one after the other. -/
theorem Kept.addAllCommitted (committed : List Contact) (ids : List Int)
    (hids : committed.map contactId = ids.map some) (hnodup : ids.Nodup)
    (h : Kept sweep.state (sweep.contacts.filter (settled ids)))
    (hdistinct : (sweep.contacts.map contactId).Nodup)
    (hmem : ∀ id ∈ ids, some id ∈ sweep.contacts.map contactId) :
    Kept (sweep.addAllCommitted committed).state (sweep.addAllCommitted committed).contacts ∧
      (sweep.addAllCommitted committed).state.module = sweep.state.module := by
  induction committed generalizing sweep ids with
  | nil =>
      obtain rfl : ids = [] := by
        cases ids with
        | nil => rfl
        | cons id ids => cases hids
      refine ⟨?_, rfl⟩
      have hall : sweep.contacts.filter (settled []) = sweep.contacts := by
        refine List.filter_eq_self.mpr fun contact _ => ?_
        rw [settled]
        cases contactId contact <;> rfl
      rwa [hall] at h
  | cons contact committed ih =>
      obtain ⟨id, ids, rfl⟩ : ∃ id rest, ids = id :: rest := by
        cases ids with
        | nil => cases hids
        | cons id ids => exact ⟨id, ids, rfl⟩
      rw [List.map_cons, List.map_cons, List.cons.injEq] at hids
      have hnot := List.nodup_cons.mp hnodup
      obtain ⟨hstep, hmodule⟩ := h.addCommitted hids.1 hnot.1 hdistinct
        (hmem id List.mem_cons_self)
      have hrescored := sweep.addCommitted_rescored contact
      obtain ⟨hlast, hmodule'⟩ := ih ids hids.2 hnot.2 hstep
        (hrescored.map_contactId ▸ hdistinct)
        (fun i hi => hrescored.map_contactId ▸ hmem i (List.mem_cons_of_mem _ hi))
      exact ⟨hlast, hmodule'.trans hmodule⟩

end Phases

/-- The slice of a batch: the committed contacts as read from the database, in place of the
versions the cache held before. -/
structure UpsertSlice (held slice committed : List Contact) (previous : List (Option Contact))
    (ids : List Int) : Prop where
  committedIds : committed.map contactId = ids.map some
  distinct : ids.Nodup
  unscored : ∀ contact ∈ committed, isDupeContact contact = false
  slice : slice.Perm (held.filter (settled ids) ++ committed)
  previous : previous = committed.map fun contact =>
    held.find? fun other => contactId other == contactId contact

namespace UpsertSlice

omit [Platform]

variable {held slice committed : List Contact} {previous : List (Option Contact)} {ids : List Int}

theorem committed_id (h : UpsertSlice held slice committed previous ids) {contact : Contact}
    (hmem : contact ∈ committed) : ∃ id ∈ ids, contactId contact = some id := by
  have hid : contactId contact ∈ ids.map some := h.committedIds ▸ List.mem_map_of_mem hmem
  obtain ⟨id, hid, heq⟩ := List.mem_map.mp hid
  exact ⟨id, hid, heq.symm⟩

theorem committed_pending (h : UpsertSlice held slice committed previous ids) {contact : Contact}
    (hmem : contact ∈ committed) : settled ids contact = false := by
  obtain ⟨id, hid, heq⟩ := h.committed_id hmem
  simp [settled, heq, hid]

/-- The contacts of the slice that stay accounted for are those the cache held. -/
theorem settled_perm (h : UpsertSlice held slice committed previous ids) :
    (slice.filter (settled ids)).Perm (held.filter (settled ids)) := by
  refine (h.slice.filter _).trans (List.Perm.of_eq ?_)
  rw [List.filter_append, List.filter_filter]
  have hnone : committed.filter (settled ids) = [] :=
    List.filter_eq_nil_iff.mpr fun contact hmem => by simp [h.committed_pending hmem]
  simp [hnone]

theorem pending_unscored (h : UpsertSlice held slice committed previous ids) {contact : Contact}
    (hmem : contact ∈ slice) (hpending : settled ids contact = false) :
    isDupeContact contact = false := by
  rcases List.mem_append.mp (h.slice.mem_iff.mp hmem) with hheld | hcommitted
  · rw [(List.mem_filter.mp hheld).2] at hpending
    cases hpending
  · exact h.unscored contact hcommitted

theorem mem_previous (h : UpsertSlice held slice committed previous ids) (contact : Contact) :
    contact ∈ previous.reduceOption ↔
      ∃ id ∈ ids, held.find? (contactId · == some id) = some contact := by
  rw [List.reduceOption_mem_iff, h.previous, List.mem_map]
  constructor
  · rintro ⟨other, hmem, hfind⟩
    obtain ⟨id, hid, heq⟩ := h.committed_id hmem
    exact ⟨id, hid, heq ▸ hfind⟩
  · rintro ⟨id, hid, hfind⟩
    have hmem : some id ∈ committed.map contactId := h.committedIds ▸ List.mem_map_of_mem hid
    obtain ⟨other, hother, heq⟩ := List.mem_map.mp hmem
    exact ⟨other, hother, heq.symm ▸ hfind⟩

/-- With distinct ids the replaced versions are the held contacts with a committed id. -/
theorem previous_perm (h : UpsertSlice held slice committed previous ids)
    (hdistinct : (held.map contactId).Nodup) :
    (held.filter fun contact => !settled ids contact).Perm previous.reduceOption := by
  have hnodup : (previous.reduceOption).Nodup := by
    have hsub : (previous.reduceOption.map contactId).Sublist (ids.map some) := by
      rw [h.previous, ← h.committedIds]
      generalize committed = contacts
      induction contacts with
      | nil => exact .slnil
      | cons contact contacts ih =>
          rw [List.map_cons, List.map_cons]
          cases hfind : held.find? fun other => contactId other == contactId contact with
          | none =>
              rw [List.reduceOption_cons_of_none]
              exact ih.cons _
          | some other =>
              have heq : contactId other = contactId contact := by
                simpa using List.find?_some hfind
              rw [List.reduceOption_cons_of_some, List.map_cons, heq]
              exact ih.cons_cons _
    exact .of_map contactId (hsub.nodup (h.distinct.map (Option.some_injective _)))
  refine (List.perm_ext_iff_of_nodup ((List.Nodup.of_map contactId hdistinct).filter _) hnodup).mpr
    fun contact => ?_
  rw [h.mem_previous, List.mem_filter]
  constructor
  · rintro ⟨hmem, hpending⟩
    simp only [settled, Bool.not_eq_true'] at hpending
    cases hid : contactId contact with
    | none => simp [hid] at hpending
    | some id =>
        have hin : id ∈ ids := by simpa [hid] using hpending
        refine ⟨id, hin, ?_⟩
        cases hfind : held.find? (contactId · == some id) with
        | none =>
            have hno := List.find?_eq_none.mp hfind contact hmem
            simp [hid] at hno
        | some other =>
            have heq : contactId other = some id := by simpa using List.find?_some hfind
            exact congrArg some (List.inj_on_of_nodup_map hdistinct
              (List.mem_of_find?_eq_some hfind) hmem (heq.trans hid.symm))
  · rintro ⟨id, hid, hfind⟩
    have heq : contactId contact = some id := by simpa using List.find?_some hfind
    exact ⟨List.mem_of_find?_eq_some hfind, by simp [settled, heq, hid]⟩

theorem held_perm (h : UpsertSlice held slice committed previous ids)
    (hdistinct : (held.map contactId).Nodup) :
    held.Perm (slice.filter (settled ids) ++ previous.reduceOption) :=
  (List.filter_append_perm (settled ids) held).symm.trans
    (h.settled_perm.symm.append (h.previous_perm hdistinct))

end UpsertSlice

namespace Kept

variable {state : IncrementalLogState} {held slice committed : List Contact}
  {previous : List (Option Contact)} {ids : List Int}

theorem identified (h : Kept state held) : ∀ contact ∈ held, (contactId contact).isSome :=
  h.balanced.groups.identified

/-- What a slice loses is withdrawn from a state that keeps the contacts it held. -/
theorem sweepOk_of_perm {remaining : List Contact} (h : Kept state held)
    (huncapped : state.module.value.hasCappedMultipliers = false)
    (hperm : held.Perm (slice.filter (settled ids) ++ remaining)) :
    SweepOk ids remaining [] [] { state := state, contacts := slice, changed := [] } := by
  have hkept := h.perm hperm
  refine ⟨⟨huncapped, h.reads⟩, hkept.balanced, ?_, ?_⟩
  · exact fun contact hmem => hkept.dupes contact (List.mem_append_left _ hmem)
  · exact fun contact hmem => hkept.keys huncapped contact (List.mem_append_left _ hmem)

/-- A batch without caps, when no search of it stops at a contact it has not scored yet. -/
theorem upserted (h : Kept state held) (hslice : UpsertSlice held slice committed previous ids)
    (huncapped : state.module.value.hasCappedMultipliers = false)
    (hstays : ∀ deleted ∈ previous.reduceOption,
      uncontested state slice ids (contactId deleted) deleted = true) :
    let sweep : Sweep := { state := state, contacts := slice, changed := [] }
    let last := (sweep.removePrevious previous.reduceOption).addAllCommitted committed
    Kept last.state last.contacts ∧ last.state.module = state.module := by
  intro sweep last
  have hperm := hslice.held_perm h.balanced.groups.distinct
  have hok : SweepOk ids previous.reduceOption [] [] sweep := h.sweepOk_of_perm huncapped hperm
  obtain ⟨hremoved, htracks⟩ := hok.removePrevious _ (.refl ids sweep) (fun deleted hmem => by
    obtain ⟨id, hid, hfind⟩ := (hslice.mem_previous deleted).mp hmem
    have heq : contactId deleted = some id := by simpa using List.find?_some hfind
    exact ⟨⟨id, hid, heq⟩, searchesSettled_of_uncontested h.reads
      (fun contact hmem hpending => hslice.pending_unscored hmem hpending) heq
      (hstays deleted hmem)⟩)
  have hids : (sweep.removePrevious previous.reduceOption).contacts.map contactId =
      slice.map contactId := (sweep.removePrevious_rescored _).map_contactId
  have hslicePerm : (slice.map contactId).Perm
      ((held.filter (settled ids)).map contactId ++ ids.map some) := by
    have := hslice.slice.map contactId
    rwa [List.map_append, hslice.committedIds] at this
  have hnodup : (slice.map contactId).Nodup := by
    refine hslicePerm.nodup_iff.mpr (List.Nodup.append
      (h.balanced.groups.distinct.sublist (List.filter_sublist.map _))
      (hslice.distinct.map (Option.some_injective _)) ?_)
    intro id hmem hid
    obtain ⟨contact, hcontact, rfl⟩ := List.mem_map.mp hmem
    obtain ⟨i, hi, heq⟩ := List.mem_map.mp hid
    have hsettled := (List.mem_filter.mp hcontact).2
    rw [settled, ← heq] at hsettled
    simp [hi] at hsettled
  obtain ⟨hlast, hmodule⟩ := hremoved.kept.addAllCommitted committed ids hslice.committedIds
    hslice.distinct (hids ▸ hnodup) (fun id hid => by
      rw [hids]
      exact hslicePerm.mem_iff.mpr
        (List.mem_append_right _ (List.mem_map_of_mem hid)))
  exact ⟨hlast, hmodule.trans htracks.module⟩

/-- A deletion without caps: its slice holds no pending contact. -/
theorem deleted {deleted : Contact} {id : Int} (h : Kept state (deleted :: slice))
    (hid : contactId deleted = some id)
    (huncapped : state.module.value.hasCappedMultipliers = false) :
    let sweep : Sweep := { state := state, contacts := slice, changed := [] }
    Kept (sweep.removeContact deleted none).state (sweep.removeContact deleted none).contacts ∧
      (sweep.removeContact deleted none).state.module = state.module := by
  intro sweep
  have hfresh : ∀ contact ∈ slice, contactId contact ≠ some id := by
    intro contact hmem heq
    have hnodup := h.balanced.groups.distinct
    rw [List.map_cons, List.nodup_cons] at hnodup
    exact hnodup.1 (hid ▸ heq ▸ List.mem_map_of_mem hmem)
  have hsettled : ∀ contact ∈ slice, settled [id] contact = true := by
    intro contact hmem
    have hne := hfresh contact hmem
    rw [settled]
    cases heq : contactId contact with
    | none => rfl
    | some other =>
        rw [heq, ne_eq, Option.some.injEq] at hne
        simp [hne]
  have hall : slice.filter (settled [id]) = slice := List.filter_eq_self.mpr hsettled
  have hperm : (deleted :: slice).Perm (slice.filter (settled [id]) ++ [deleted]) := by
    rw [hall]
    exact List.perm_append_singleton deleted slice |>.symm
  have hok : SweepOk [id] [deleted] [] [] sweep := h.sweepOk_of_perm huncapped hperm
  have hsearch : ∀ last : Sweep, Tracks [id] sweep last → ∀ (index : Nat) (contact : Contact),
      last.contacts[index]? = some contact → settled [id] contact = true := by
    intro last htracks index contact hget
    have hlt : index < slice.length := htracks.length ▸ Slices.length_of_getElem? hget
    have hevolves := htracks.evolves index _ contact (List.getElem?_eq_getElem hlt) hget
    rw [settled_congr hevolves.same.contactId_eq]
    exact hsettled _ (List.getElem_mem hlt)
  obtain ⟨hremoved, htracks⟩ :=
    hok.removeContact (.refl [id] sweep) hid (List.mem_singleton_self id)
    (eligible_none _)
    ⟨fun _ _ _ last htracks index contact _ => hsearch last htracks index contact,
      fun _ _ last htracks index contact _ => hsearch last htracks index contact,
      fun _ _ last htracks index contact _ => hsearch last htracks index contact⟩
  have hkept := hremoved.kept
  have hids := (sweep.removeContact_rescored deleted none).map_contactId
  have hall' : (sweep.removeContact deleted none).contacts.filter (settled [id]) =
      (sweep.removeContact deleted none).contacts := by
    refine List.filter_eq_self.mpr fun contact hmem => ?_
    have hmem' : contactId contact ∈ slice.map contactId := hids ▸ List.mem_map_of_mem hmem
    obtain ⟨other, hother, heq⟩ := List.mem_map.mp hmem'
    exact (settled_congr heq.symm _).trans (hsettled other hother)
  rw [hall'] at hkept
  exact ⟨hkept, htracks.module⟩

end Kept

/-- A tracker entry that accounts for the contacts of a log. -/
structure Keeps (state : IncrementalLogState) (module : Arc ContestScoringModule)
    (contacts : List Contact) : Prop where
  sameModule : state.module = module
  kept : Kept state contacts
  earned : ∀ key, key ∈ state.multiplierOwners ↔ EarnedMultiplierKey module.value contacts key

namespace Keeps

variable {state : IncrementalLogState} {module : Arc ContestScoringModule}
  {held slice committed contacts : List Contact} {previous : List (Option Contact)} {ids : List Int}

theorem accounted (h : Keeps state module contacts) : Accounted state contacts :=
  h.kept.balanced.accounted h.kept.dupes (h.sameModule ▸ h.earned)

theorem of_kept (h : Kept state contacts) (hmodule : state.module = module)
    (huncapped : module.value.hasCappedMultipliers = false) : Keeps state module contacts :=
  ⟨hmodule, h, fun key => hmodule ▸ h.earned (hmodule ▸ huncapped) key⟩

theorem reset (module : Arc ContestScoringModule)
    (hreads : module.value.rules.scoring.ReadsNoScores)
    (hids : ∀ contact ∈ contacts, (contactId contact).isSome)
    (hdistinct : (contacts.map contactId).Nodup) :
    Keeps (IncrementalLogState.reset module contacts).1 module
      (IncrementalLogState.reset module contacts).2 := by
  obtain ⟨hkept, hearned, hmodule⟩ := reset_kept module hreads hids hdistinct
  exact ⟨hmodule, hkept, hearned⟩

omit [Platform] in
theorem sameModule_self (module : Arc ContestScoringModule) :
    IncrementalScoreTracker.sameModule module module = true := beq_self_eq_true _

/-- An upsert keeps the account when its contest has caps, and otherwise when no search of the
batch stops at a contact not scored yet. -/
theorem onContactsUpserted (h : Keeps state module held)
    (hslice : UpsertSlice held slice committed previous ids)
    (hids : ∀ contact ∈ slice, (contactId contact).isSome)
    (hdistinct : (slice.map contactId).Nodup)
    (hstays : module.value.hasCappedMultipliers = false → ∀ deleted ∈ previous.reduceOption,
      uncontested state slice ids (contactId deleted) deleted = true) :
    ∃ state', (IncrementalScoreTracker.onContactsUpserted (some state) module slice committed
          previous).state = some state' ∧
      Keeps state' module (IncrementalScoreTracker.onContactsUpserted (some state) module slice
        committed previous).contacts := by
  obtain rfl := h.sameModule
  simp only [IncrementalScoreTracker.onContactsUpserted, Option.getD_some, sameModule_self,
    if_true]
  cases hcapped : state.module.value.hasCappedMultipliers with
  | true => exact ⟨_, rfl, .reset _ h.kept.reads hids hdistinct⟩
  | false =>
      obtain ⟨hkept, hmodule⟩ := h.kept.upserted hslice hcapped (hstays hcapped)
      exact ⟨_, rfl, .of_kept hkept hmodule hcapped⟩

/-- A deletion always keeps the account. -/
theorem onContactDeleted {deleted : Contact} {id : Int} (h : Keeps state module held)
    (hperm : held.Perm (deleted :: slice)) (hid : contactId deleted = some id) :
    ∃ state', (IncrementalScoreTracker.onContactDeleted (some state) module slice deleted).state =
        some state' ∧
      Keeps state' module
        (IncrementalScoreTracker.onContactDeleted (some state) module slice deleted).contacts := by
  obtain rfl := h.sameModule
  simp only [IncrementalScoreTracker.onContactDeleted, sameModule_self, Bool.not_true,
    Bool.false_eq_true, if_false]
  have hkept := h.kept.perm hperm
  have hdistinct := hkept.balanced.groups.distinct
  rw [List.map_cons] at hdistinct
  cases hcapped : state.module.value.hasCappedMultipliers with
  | true =>
      exact ⟨_, rfl, .reset _ h.kept.reads
        (fun contact hmem => hkept.identified contact (List.mem_cons_of_mem _ hmem))
        (List.nodup_cons.mp hdistinct).2⟩
  | false =>
      obtain ⟨hkept, hmodule⟩ := hkept.deleted hid hcapped
      exact ⟨_, rfl, .of_kept hkept hmodule hcapped⟩

end Keeps

end Log73
