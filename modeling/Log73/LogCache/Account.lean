import Log73.LogCache.Session

/-!
The account of a log over a whole run. A batch that replaces contacts hands the keys
of a replaced version to the first contact of the slice that carries them; when this
is a contact of the batch that is not scored yet, it is scored once more afterwards.
Runs without such a step keep the account.
-/

namespace Log73

open Std

variable [Platform]

namespace LoadedLog

/-- No key of a replaced version is handed to a contact of the batch not scored yet, or the
contest has caps and the whole log is scored again. -/
def undisturbed (log : LoadedLog) (committed : List Contact) : Bool :=
  log.cached.module.value.hasCappedMultipliers ||
    log.tracker.all fun state =>
      (log.previousContacts (finalContacts committed)).reduceOption.all fun replaced =>
        uncontested state (log.mergedSlice committed).1.contacts (committed.filterMap contactId)
          (contactId replaced) replaced

/-- The tracker accounts for the contacts the cache holds. -/
def Counted (log : LoadedLog) : Prop :=
  ∃ state, log.tracker = some state ∧ Keeps state log.cached.module log.cached.contacts

end LoadedLog

namespace LogSession

/-- The steps after which the account still holds. -/
def undisturbed (database : DxccDatabase) (session : LogSession) : LogEvent → Bool
  | .load module => decide module.value.rules.scoring.ReadsNoScores
  | .upsert batch =>
      (session.committedRows database batch).all fun rows =>
        session.loaded.undisturbed (rows.map rowToContact)
  | .delete _ => true

def undisturbedRun (database : DxccDatabase) : LogSession → List LogEvent → Bool
  | _, [] => true
  | session, event :: events =>
      session.undisturbed database event &&
        undisturbedRun database (session.step database event) events

end LogSession

section Undisturbed

variable {log : LoadedLog} {committed : List Contact}

omit [Platform] in
/-- A search that skips the only pending id does not stop at it. -/
theorem searchStaysOut_of_skip {pending : List Int} {slice : List Contact} {id : Int}
    {candidate : Contact → Bool} (hpending : ∀ other ∈ pending, other = id)
    (hcandidate : ∀ contact, candidate contact = true →
      IncrementalLogState.isCandidate (some id) contact = true) :
    searchStaysOut pending slice candidate = true := by
  rw [searchStaysOut, Option.all_eq_true]
  intro contact hfind
  have hskip := hcandidate contact (List.find?_some hfind)
  rw [settled]
  cases hid : contactId contact with
  | none => rfl
  | some other =>
      rw [IncrementalLogState.isCandidate, hid] at hskip
      have hne : id ≠ other := by simpa using hskip
      have hnot : other ∉ pending := fun hmem => hne (hpending other hmem).symm
      simpa using hnot

theorem uncontested_of_skip {state : IncrementalLogState} {pending : List Int}
    {slice : List Contact} {id : Int} (hpending : ∀ other ∈ pending, other = id)
    (deleted : Contact) : uncontested state slice pending (some id) deleted = true := by
  have hstays : ∀ candidate : Contact → Bool, (∀ contact, candidate contact = true →
      IncrementalLogState.isCandidate (some id) contact = true) →
      searchStaysOut pending slice candidate = true :=
    fun candidate => searchStaysOut_of_skip hpending
  simp only [uncontested, Bool.and_eq_true, List.all_eq_true, Option.all_eq_true, Bool.or_eq_true]
  refine ⟨⟨fun key _ => .inr (hstays _ fun contact h => ?_), fun key _ =>
    hstays _ fun contact h => ?_⟩,
    fun key _ => hstays _ fun contact h => ?_⟩
  · exact (Bool.and_eq_true_iff.mp h).1
  · exact (Bool.and_eq_true_iff.mp (Bool.and_eq_true_iff.mp h).1).1
  · exact (Bool.and_eq_true_iff.mp (Bool.and_eq_true_iff.mp h).1).1

/-- A batch that writes a single contact disturbs nothing. -/
theorem undisturbed_of_single {id : Int} (hconsistent : log.cached.Consistent)
    (hsingle : ∀ contact ∈ committed, contactId contact = some id) :
    log.undisturbed committed = true := by
  rw [LoadedLog.undisturbed, Bool.or_eq_true, Option.all_eq_true]
  refine .inr fun state _ => List.all_eq_true.mpr fun replaced hreplaced => ?_
  rw [List.reduceOption_mem_iff, LoadedLog.previousContacts, List.mem_map] at hreplaced
  obtain ⟨contact, hcontact, hfind⟩ := hreplaced
  rw [hsingle contact (mem_of_mem_finalContacts hcontact), Option.bind_some,
    hconsistent.contactById_eq] at hfind
  have hid : contactId replaced = some id := by simpa using List.find?_some hfind
  rw [hid]
  refine uncontested_of_skip (fun other hmem => ?_) replaced
  obtain ⟨contact, hmem, hother⟩ := List.mem_filterMap.mp hmem
  exact Option.some.inj (hother.symm.trans (hsingle contact hmem))

/-- A batch that replaces nothing disturbs nothing. -/
theorem undisturbed_of_new
    (hnew : (log.previousContacts (finalContacts committed)).reduceOption = []) :
    log.undisturbed committed = true := by
  rw [LoadedLog.undisturbed, hnew]
  cases log.tracker <;> simp

end Undisturbed

namespace LoadedLog

variable {log : LoadedLog} {database : DxccDatabase} {module : Arc ContestScoringModule}
  {revision : Nat} {committed : List Contact}

theorem load_counted (hreads : module.value.rules.scoring.ReadsNoScores)
    {snapshot : List Contact} (hidentified : ∀ contact ∈ snapshot, (contactId contact).isSome)
    (hdistinct : (snapshot.map contactId).Nodup) :
    (load database module revision snapshot).Counted := by
  have hperm : ((sortContactsDesc (enrichMissingDxcc database snapshot)).map contactId).Perm
      (snapshot.map contactId) := by
    rw [← enrichMissingDxcc_map_contactId database snapshot]
    exact (sortContactsDesc_perm _).map contactId
  have hidentified' : ∀ contact ∈ sortContactsDesc (enrichMissingDxcc database snapshot),
      (contactId contact).isSome := by
    intro contact hmem
    have hid : contactId contact ∈ snapshot.map contactId :=
      hperm.mem_iff.mp (List.mem_map_of_mem hmem)
    obtain ⟨other, hother, heq⟩ := List.mem_map.mp hid
    exact heq ▸ hidentified other hother
  have hkeeps := Keeps.reset module hreads hidentified' (hperm.nodup_iff.mpr hdistinct)
  refine ⟨_, rfl, ?_⟩
  have hsorted := load_sorted database module snapshot
  simp only [load, CachedLog.new, CachedLog.rebuildIndexes]
  rw [hsorted]
  exact hkeeps

omit [Platform] in
theorem settled_congr_mem {pending pending' : List Int} (h : ∀ id, id ∈ pending ↔ id ∈ pending') :
    settled pending = settled pending' := by
  funext contact
  have hcontains : ∀ id, pending.contains id = pending'.contains id := fun id => by
    rw [Bool.eq_iff_iff, List.contains_iff_mem, List.contains_iff_mem, h id]
  simp only [settled, hcontains]

theorem uncontested_congr_mem {state : IncrementalLogState} {slice : List Contact}
    {pending pending' : List Int} (h : ∀ id, id ∈ pending ↔ id ∈ pending') (skip : Option Int)
    (deleted : Contact) :
    uncontested state slice pending skip deleted =
      uncontested state slice pending' skip deleted := by
  simp only [uncontested, searchStaysOut, settled_congr_mem h]

theorem upsert_counted (h : log.Counted) (hconsistent : log.cached.Consistent) (revision : Nat)
    (hunscored : ∀ contact ∈ committed, isDupeContact contact = false)
    (hundisturbed : log.undisturbed committed = true) :
    (log.upsert revision committed).log.Counted := by
  obtain ⟨state, htracker, hkeeps⟩ := h
  obtain ⟨ids, hids, hnodup, hmem⟩ := finalContacts_ids committed
  obtain ⟨hperm, -, hmodule, -⟩ := mergedSlice_spec hconsistent committed hids hnodup
  obtain ⟨hidentified, hdistinct⟩ := mergedSlice_identified hconsistent committed
  have hslice : UpsertSlice log.cached.contacts (log.mergedSlice committed).1.contacts
      (finalContacts committed) (log.previousContacts (finalContacts committed)) ids := by
    refine ⟨hids, hnodup, fun contact hcontact =>
      hunscored contact (mem_of_mem_finalContacts hcontact), hperm, ?_⟩
    refine List.map_congr_left fun contact hcontact => ?_
    have hid : contactId contact ∈ ids.map some := hids ▸ List.mem_map_of_mem hcontact
    obtain ⟨id, -, heq⟩ := List.mem_map.mp hid
    rw [← heq, Option.bind_some, hconsistent.contactById_eq]
  obtain ⟨state', hstate', hkeeps'⟩ := hkeeps.onContactsUpserted hslice hidentified hdistinct
    (fun huncapped replaced hreplaced => by
      rw [undisturbed, huncapped, Bool.false_or, htracker, Option.all_some, List.all_eq_true]
        at hundisturbed
      rw [← hundisturbed replaced hreplaced]
      exact uncontested_congr_mem hmem _ _)
  refine ⟨state', ?_, ?_⟩
  · rw [← hstate', ← htracker, ← hmodule]
    rfl
  · rw [← htracker, ← hmodule] at hkeeps'
    simp only [upsert]
    split <;> exact hmodule ▸ hkeeps'

theorem delete_counted (h : log.Counted) (revision : Nat) (id : Int) :
    (log.delete revision id).log.Counted := by
  rw [delete]
  split
  · exact h
  · next index hfind =>
      split
      · exact h
      · next deleted hget =>
          obtain ⟨state, htracker, hkeeps⟩ := h
          obtain ⟨found, hfound, hmatch, -⟩ := Slices.getElem?_of_findIdx? hfind
          obtain rfl : found = deleted := Option.some.inj (hfound.symm.trans hget)
          obtain ⟨state', hstate', hkeeps'⟩ := hkeeps.onContactDeleted
            (Slices.perm_cons_eraseIdx hget) (by simpa using hmatch)
          exact ⟨state', by rw [← hstate', ← htracker], htracker ▸ hkeeps'⟩

end LoadedLog

namespace LogSession

variable {database : DxccDatabase} {session : LogSession} {event : LogEvent}

theorem load_counted {module : Arc ContestScoringModule}
    (hreads : module.value.rules.scoring.ReadsNoScores) (revision : Nat) (rows : QsoTable) :
    (LoadedLog.load database module revision (sortContactsDesc rows.contacts)).Counted := by
  refine LoadedLog.load_counted hreads (fun contact hmem => ?_) ?_
  · exact rows.contacts_identified contact ((sortContactsDesc_perm _).mem_iff.mp hmem)
  · exact ((sortContactsDesc_perm _).map contactId).nodup_iff.mpr rows.contacts_nodup

theorem isDupeContact_rowToContact (row : QsoRow) : isDupeContact (rowToContact row) = false := by
  rw [isDupeContact, contactMetaValue_rowToContact_of_not_mem _ (by decide)]
  rfl

theorem step_counted (h : session.loaded.Counted) (hconsistent : session.loaded.cached.Consistent)
    (hundisturbed : session.undisturbed database event = true) :
    (session.step database event).loaded.Counted := by
  cases event with
  | load module =>
      exact load_counted (of_decide_eq_true hundisturbed) session.nextRevision session.rows
  | upsert batch =>
      rw [step]
      split
      · exact h
      · next rows hrows =>
          rw [undisturbed, hrows, Option.all_some] at hundisturbed
          refine LoadedLog.upsert_counted h hconsistent _ (fun contact hmem => ?_) hundisturbed
          obtain ⟨row, -, rfl⟩ := List.mem_map.mp hmem
          exact isDupeContact_rowToContact row
  | delete id =>
      rw [step]
      split
      · exact LoadedLog.delete_counted h _ _
      · exact h

end LogSession

/-- In every run from a loaded log whose steps are undisturbed, the tracker accounts for the
contacts of the log. -/
theorem accounted_of_undisturbedRun (database : DxccDatabase) (logId : Int64) (rows : QsoTable)
    (module : Arc ContestScoringModule) (events : List LogEvent)
    (hreads : module.value.rules.scoring.ReadsNoScores)
    (hrun : (LogSession.start database logId rows module).undisturbedRun database events = true) :
    let last := (LogSession.start database logId rows module).run database events
    ∃ state, last.loaded.tracker = some state ∧ Accounted state last.loaded.cached.contacts := by
  have hcounted : ∀ session : LogSession, session.loaded.Counted →
      session.loaded.cached.Consistent → session.undisturbedRun database events = true →
      (session.run database events).loaded.Counted := by
    clear hrun
    induction events with
    | nil => exact fun _ h _ _ => h
    | cons event events ih =>
        intro session h hconsistent hrun
        rw [LogSession.undisturbedRun, Bool.and_eq_true] at hrun
        exact ih _ (LogSession.step_counted h hconsistent hrun.1)
          (session.step_consistent database event hconsistent) hrun.2
  obtain ⟨state, htracker, hkeeps⟩ := hcounted _ (LogSession.load_counted hreads 0 rows)
    (LogSession.load_consistent database module 0 rows) hrun
  exact ⟨state, htracker, hkeeps.accounted⟩

end Log73

namespace Log73

attribute [local instance] asciiPlatform

def stateModule : Arc ContestScoringModule := ⟨0, .new stateContest .null⟩

def stateLog : LogSession := .start ⟨[], []⟩ 1 ∅ stateModule

/-- Two contacts, the first moves to another state, the second is deleted. -/
def editedStates : List LogEvent :=
  [.upsert [(1, stateContact 1 "K1ABC" "CA" 100), (2, stateContact 2 "W2XYZ" "CA" 200)],
    .upsert [(1, stateContact 1 "K1ABC" "NV" 100)], .delete 2]

theorem accounted_editedStates :
    ∃ state, (stateLog.run ⟨[], []⟩ editedStates).loaded.tracker = some state ∧
      Accounted state (stateLog.run ⟨[], []⟩ editedStates).loaded.cached.contacts :=
  accounted_of_undisturbedRun ⟨[], []⟩ 1 ∅ stateModule editedStates (by decide) (by decide +kernel)

/-- A batch moves a contact to another state and adds one in the state it leaves: the state
goes to the new contact, whose own scoring then finds it taken. -/
def movedState : List LogEvent :=
  [.upsert [(1, stateContact 1 "K1ABC" "CA" 100)],
    .upsert [(1, stateContact 1 "K1ABC" "NV" 100), (2, stateContact 2 "W2XYZ" "CA" 200)]]

theorem not_accounted_movedState :
    ¬∃ state, (stateLog.run ⟨[], []⟩ movedState).loaded.tracker = some state ∧
      Accounted state (stateLog.run ⟨[], []⟩ movedState).loaded.cached.contacts := by
  have hraw : (stateLog.run ⟨[], []⟩ movedState).loaded.tracker.map (·.rawMultiplierCount) =
      some 2 := by decide +kernel
  have hsum : ((stateLog.run ⟨[], []⟩ movedState).loaded.cached.contacts.map
      (scoredI64 · "mult")).sum = 1 := by decide +kernel
  rintro ⟨state, htracker, haccounted⟩
  rw [htracker, Option.map_some, Option.some.injEq] at hraw
  have hcount := haccounted.rawMultiplierCount
  rw [hraw, hsum] at hcount
  cases hcount

end Log73
