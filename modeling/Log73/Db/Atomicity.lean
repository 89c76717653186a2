import Log73.Db.Mirror
import Log73.Db.Rebuilt
import Log73.Library.Runs

/-!
Calls of the worker that fail. Up to the contacts that are loaded on demand, a call that fails
leaves the worker as it was, and no command tells workers apart that differ only there.
-/

namespace Log73

open TreeMap
open Std (ExtTreeMap)

variable [Platform]

/-- The calls the failures are about. -/
inductive DbMutation where
  | writeContacts (logId : Int64) (contacts : List Contact) (draws : List Int64)
  | reserveSerial (logId : Int64) (fieldAdif : String)

/-- What is seen of a log, its contacts loaded. -/
structure Observation where
  snapshot : Option LogSnapshot
  count : Nat
  owners : ExtTreeMap Int Int64
  nextSerial : Option (KeyMap Int)

namespace DbMutation

def logId : DbMutation → Int64
  | writeContacts logId _ _ => logId
  | reserveSerial logId _ => logId

def failure {α : Type} : Except DbError α → Option DbError
  | .error error => some error
  | .ok _ => none

end DbMutation

namespace Worker

/-- A call, with what SQLite refuses of it, and its error if there is one. -/
def perform (worker : Worker) (sql : SqlFaults) : DbMutation → Worker × Option DbError
  | .writeContacts logId contacts draws =>
      let result := worker.writeContacts logId contacts draws sql
      (result.1, DbMutation.failure result.2)
  | .reserveSerial logId fieldAdif =>
      let result := worker.reserveSerial logId fieldAdif sql
      (result.1, DbMutation.failure result.2)

def observe (worker : Worker) (logId : Int64) : Observation :=
  let loaded := worker.loadContacts logId
  { snapshot := loaded.cache.snapshot logId
    count := loaded.cache.counts[logId]?.getD 0
    owners := loaded.cache.owners
    nextSerial := loaded.cache.nextSerial[logId]? }

/-- A command, or a call of which SQLite refuses something. -/
inductive Attempt where
  | command (command : DbCommand)
  | faulty (sql : SqlFaults) (mutation : DbMutation)

def attempt (worker : Worker) : Attempt → Worker
  | .command command => worker.execute command
  | .faulty sql mutation => (worker.perform sql mutation).1

def attempts (worker : Worker) (attempts : List Attempt) : Worker :=
  Runs.run attempt worker attempts

/-- The worker without the contacts that are loaded on demand. -/
def outline (worker : Worker) : Worker :=
  { worker with cache := { worker.cache with contacts := ∅ } }

/-- Contacts are loaded for logs that there are. -/
def Known (worker : Worker) : Prop := ∀ (logId : Int64) (cached : CachedContacts),
  worker.cache.contacts[logId]? = some cached → (worker.connection.logs[logId]?).isSome

variable {worker : Worker}

theorem Coherent.outline (h : worker.Coherent) : worker.outline.Coherent where
  file := h.file
  logs := h.logs
  owners := h.owners
  contacts logId cached hget := by
    rw [Worker.outline, ExtTreeMap.getElem?_empty] at hget
    cases hget

@[simp] theorem outline_loadContacts (worker : Worker) (logId : Int64) :
    (worker.loadContacts logId).outline = worker.outline := by
  rw [loadContacts]
  split
  · rfl
  · rfl

/-- Whenever they were loaded, the contacts of a log are those the file gives. -/
theorem Coherent.contacts_loadContacts (h : worker.Coherent) {logId : Int64}
    (hlog : worker.cache.logs.contains logId = true) :
    (worker.loadContacts logId).cache.contacts[logId]? =
      some (.new (dbContacts worker.connection logId)) := by
  have hload := h.loadContacts logId
  have hperm := dbContacts_perm worker.connection logId
  have hnew : (CachedContacts.new (dbContacts worker.connection logId)).Holds
      (dbContacts worker.connection logId) := by
    refine CachedContacts.Holds.new (fun contact hmem => ?_) ?_
    · exact QsoTable.contacts_identified _ contact (hperm.mem_iff.mp hmem)
    · exact (hperm.map contactId).nodup_iff.mpr (QsoTable.contacts_nodup _)
  rw [Worker.loadContacts] at hload ⊢
  split
  · next hpresent =>
      rw [hlog, Bool.not_true, Bool.false_or, ExtTreeMap.contains_eq_isSome_getElem?] at hpresent
      obtain ⟨cached, hcached⟩ := Option.isSome_iff_exists.mp hpresent
      rw [hcached, ((h.contacts logId cached hcached).perm hperm.symm).unique hnew]
  · rw [getElem?_insert_key, if_pos rfl]

theorem contacts_loadContacts_unknown {logId : Int64}
    (hlog : worker.cache.logs.contains logId = false) :
    worker.loadContacts logId = worker := by
  rw [loadContacts, hlog, Bool.not_false, Bool.true_or, if_pos rfl]

/-- The contacts of a log, loaded on demand, do not tell apart what was loaded before. -/
theorem Coherent.contacts_outline (h : worker.Coherent) (hknown : worker.Known) (logId : Int64) :
    (worker.loadContacts logId).cache.contacts[logId]? =
      (worker.outline.loadContacts logId).cache.contacts[logId]? := by
  cases hlog : worker.cache.logs.contains logId with
  | true =>
      have hsame : worker.outline.cache.logs.contains logId = true := hlog
      rw [h.contacts_loadContacts hlog, h.outline.contacts_loadContacts hsame]
      rfl
  | false =>
      have hsame : worker.outline.cache.logs.contains logId = false := hlog
      rw [contacts_loadContacts_unknown hlog, contacts_loadContacts_unknown hsame]
      cases hget : worker.cache.contacts[logId]? with
      | none =>
          rw [Worker.outline, ExtTreeMap.getElem?_empty]
      | some cached =>
          have hfile := hknown logId cached hget
          rw [← h.logs, Option.isSome_map, ← ExtTreeMap.contains_eq_isSome_getElem?, hlog] at hfile
          cases hfile

theorem Coherent.observe_outline (h : worker.Coherent) (hknown : worker.Known) (logId : Int64) :
    worker.observe logId = worker.outline.observe logId := by
  have hcontacts := h.contacts_outline hknown logId
  have hsame : ∀ other : Worker, (other.loadContacts logId).cache.logs = other.cache.logs ∧
      (other.loadContacts logId).cache.counts = other.cache.counts ∧
      (other.loadContacts logId).cache.owners = other.cache.owners ∧
      (other.loadContacts logId).cache.nextSerial = other.cache.nextSerial := by
    intro other
    rw [Worker.loadContacts]
    split
    · exact ⟨rfl, rfl, rfl, rfl⟩
    · exact ⟨rfl, rfl, rfl, rfl⟩
  rw [observe, observe]
  rw [DatabaseCache.snapshot, DatabaseCache.snapshot, hcontacts, (hsame worker).1,
    (hsame worker).2.1, (hsame worker).2.2.1, (hsame worker).2.2.2, (hsame worker.outline).1,
    (hsame worker.outline).2.1, (hsame worker.outline).2.2.1, (hsame worker.outline).2.2.2]
  rfl

/-- The worker with other contacts in memory. -/
def withContacts (worker : Worker) (contacts : ExtTreeMap Int64 CachedContacts) : Worker :=
  { worker with cache := { worker.cache with contacts := contacts } }

theorem loadContacts_eq (worker : Worker) (logId : Int64) :
    ∃ contacts, worker.loadContacts logId = worker.withContacts contacts := by
  rw [loadContacts]
  split
  · exact ⟨worker.cache.contacts, rfl⟩
  · exact ⟨_, rfl⟩

omit [Platform] in
theorem sameOutline_publishContact (logId : Int64) (contact : Contact)
    {cache cache' : DatabaseCache}
    (h : ({ cache with contacts := ∅ } : DatabaseCache) = { cache' with contacts := ∅ }) :
    ({ publishContact logId cache contact with contacts := ∅ } : DatabaseCache) =
      { publishContact logId cache' contact with contacts := ∅ } := by
  obtain ⟨logs, owners, counts, contacts, nextSerial, nextRevision⟩ := cache
  obtain ⟨logs', owners', counts', contacts', nextSerial', nextRevision'⟩ := cache'
  simp only [DatabaseCache.mk.injEq, true_and] at h
  obtain ⟨rfl, rfl, rfl, rfl, rfl⟩ := h
  rw [publishContact, publishContact]
  split
  · rfl
  · rfl

omit [Platform] in
/-- What a write publishes but the contacts. -/
theorem sameOutline_published (logId : Int64) (committed : List Contact)
    {cache cache' : DatabaseCache}
    (h : ({ cache with contacts := ∅ } : DatabaseCache) = { cache' with contacts := ∅ }) :
    ({ DatabaseCache.bumpRevision (committed.foldl (publishContact logId) cache) logId with
      contacts := ∅ } : DatabaseCache) =
      { DatabaseCache.bumpRevision (committed.foldl (publishContact logId) cache') logId with
        contacts := ∅ } := by
  induction committed generalizing cache cache' with
  | nil =>
      obtain ⟨logs, owners, counts, contacts, nextSerial, nextRevision⟩ := cache
      obtain ⟨logs', owners', counts', contacts', nextSerial', nextRevision'⟩ := cache'
      simp only [DatabaseCache.mk.injEq, true_and] at h
      obtain ⟨rfl, rfl, rfl, rfl, rfl⟩ := h
      rfl
  | cons contact committed ih => exact ih (sameOutline_publishContact logId contact h)

theorem outline_writeContacts (worker : Worker) (logId : Int64) (contacts : List Contact)
    (draws : List Int64) : (worker.writeContacts logId contacts draws).1.outline =
      (worker.outline.writeContacts logId contacts draws).1.outline := by
  obtain ⟨loaded, hloaded⟩ := worker.loadContacts_eq logId
  obtain ⟨loaded', hloaded'⟩ := worker.outline.loadContacts_eq logId
  have hforeign : (worker.withContacts loaded).foreignContact logId contacts =
      (worker.outline.withContacts loaded').foreignContact logId contacts := rfl
  have hlogs : (worker.withContacts loaded).cache.logs[logId]? =
    (worker.outline.withContacts loaded').cache.logs[logId]? := rfl
  have hconnection : (worker.withContacts loaded).connection =
    (worker.outline.withContacts loaded').connection := rfl
  rw [writeContacts, writeContacts, tryLoadContacts_served, tryLoadContacts_served, hloaded,
    hloaded']
  dsimp only
  rw [hforeign, hlogs, hconnection]
  split
  · rfl
  split
  · rfl
  split
  · rfl
  · next connection rows _ =>
      exact congrArg (Worker.mk connection)
        (@sameOutline_published logId (rows.map rowToContact)
          (worker.withContacts loaded).cache (worker.outline.withContacts loaded').cache rfl)

theorem Coherent.outline_reserveSerial (h : worker.Coherent) (hknown : worker.Known)
    (logId : Int64) (field : String) : (worker.reserveSerial logId field).1.outline =
      (worker.outline.reserveSerial logId field).1.outline := by
  have hcontacts := h.contacts_outline hknown logId
  obtain ⟨loaded, hloaded⟩ := worker.loadContacts_eq logId
  obtain ⟨loaded', hloaded'⟩ := worker.outline.loadContacts_eq logId
  rw [hloaded, hloaded'] at hcontacts
  have hserial : (worker.withContacts loaded).cache.nextSerialFor logId
      (toAsciiUppercase (trim field)) = (worker.outline.withContacts loaded').cache.nextSerialFor
        logId (toAsciiUppercase (trim field)) := rfl
  have hconnection : (worker.withContacts loaded).connection =
    (worker.outline.withContacts loaded').connection := rfl
  rw [Worker.reserveSerial, Worker.reserveSerial]
  dsimp only
  split
  · rfl
  rw [tryLoadContacts_served, tryLoadContacts_served, hloaded, hloaded']
  dsimp only
  rw [hcontacts, hserial, hconnection]
  split
  · rfl
  split
  · rfl
  split
  · rfl
  · rfl

/-- No command looks at contacts but those it loads. -/
theorem Coherent.outline_execute (h : worker.Coherent) (hknown : worker.Known)
    (command : DbCommand) :
    (worker.execute command).outline = (worker.outline.execute command).outline := by
  cases command with
  | createLog name contestId stationCallsign contestParams draws =>
      rw [Worker.execute, Worker.execute, Worker.createLog, Worker.createLog]
      have hsame : worker.outline.connection = worker.connection := rfl
      rw [hsame]
      split
      · rfl
      · rfl
  | updateLog id name stationCallsign contestParams =>
      rw [Worker.execute, Worker.execute, Worker.updateLog, Worker.updateLog]
      have hsame : worker.outline.connection = worker.connection := rfl
      rw [hsame]
      split
      · rfl
      · rfl
  | deleteLog id =>
      rw [Worker.execute, Worker.execute, Worker.deleteLog, Worker.deleteLog]
      have hsame : worker.outline.connection = worker.connection := rfl
      rw [hsame]
      split
      · rfl
      · rfl
  | loadContacts logId =>
      exact (outline_loadContacts worker logId).trans
        (outline_loadContacts worker.outline logId).symm
  | upsertContacts logId contacts draws => exact outline_writeContacts worker logId contacts draws
  | allocateSerial logId field => exact h.outline_reserveSerial hknown logId field
  | deleteContact id =>
      rw [Worker.execute, Worker.execute, Worker.removeContact, Worker.removeContact]
      have hsame : worker.outline.connection = worker.connection := rfl
      rw [hsame]
      split
      · rfl
      · rfl
  | restart => rfl

omit [Platform] in
/-- The contacts of a log that there is are loaded, or those of a log stay loaded. -/
theorem Known.of_sub {worker' : Worker} (h : worker.Known)
    (hlogs : ∀ logId : Int64, (worker.connection.logs[logId]?).isSome →
      (worker'.connection.logs[logId]?).isSome)
    (hcontacts : ∀ (logId : Int64) (cached : CachedContacts),
      worker'.cache.contacts[logId]? = some cached →
        (worker.cache.contacts[logId]?).isSome ∨ (worker'.connection.logs[logId]?).isSome) :
    worker'.Known := by
  intro logId cached hget
  cases hcontacts logId cached hget with
  | inl hold =>
      obtain ⟨old, hold⟩ := Option.isSome_iff_exists.mp hold
      exact hlogs logId (h logId old hold)
  | inr hlog => exact hlog

theorem Known.loadContacts (h : worker.Known) (hcoherent : worker.Coherent) (logId : Int64) :
    (worker.loadContacts logId).Known := by
  rw [Worker.loadContacts]
  split
  · exact h
  · next hneeded =>
      refine h.of_sub (fun _ hlog => hlog) fun other cached hget => ?_
      dsimp only at hget ⊢
      rw [getElem?_insert_key] at hget
      split at hget
      · next heq =>
          subst heq
          rw [Bool.or_eq_true, not_or, Bool.not_eq_true', Bool.not_eq_false,
            ExtTreeMap.contains_eq_isSome_getElem?] at hneeded
          rw [← hcoherent.logs, Option.isSome_map]
          exact Or.inr hneeded.1
      · exact Or.inl (hget ▸ rfl)

theorem known_openDatabase {connection : Connection} (h : connection.WellFormed) :
    (Worker.openDatabase connection).Known := by
  have hfold : ∀ (keys : List Int64) (cache : DatabaseCache) (logId : Int64),
      ((keys.foldl DatabaseCache.emptyLog cache).contacts[logId]?).isSome →
        (cache.contacts[logId]?).isSome ∨ logId ∈ keys := by
    intro keys
    induction keys with
    | nil => exact fun cache logId hget => Or.inl hget
    | cons key keys ih =>
        intro cache logId hget
        cases ih (DatabaseCache.emptyLog cache key) logId hget with
        | inr hmem => exact Or.inr (List.mem_cons_of_mem key hmem)
        | inl hstep =>
            rw [DatabaseCache.emptyLog] at hstep
            split at hstep
            · rw [getElem?_insert_key] at hstep
              split at hstep
              · next heq => exact Or.inr (heq ▸ List.mem_cons_self)
              · exact Or.inl hstep
            · exact Or.inl hstep
  intro logId cached hget
  have hkeys := hfold (DatabaseCache.loadedRows connection).logs.keys
    (DatabaseCache.loadedRows connection) logId (Option.isSome_iff_exists.mpr ⟨cached, hget⟩)
  rw [DatabaseCache.contacts_loadedRows, ExtTreeMap.getElem?_empty] at hkeys
  cases hkeys with
  | inl hnone => cases hnone
  | inr hmem =>
      rw [ExtTreeMap.mem_keys, ExtTreeMap.mem_iff_isSome_getElem?,
        ← DatabaseCache.logs_load connection] at hmem
      have hlogs := (Coherent.openDatabase h).logs logId
      rw [← hlogs, Option.isSome_map]
      exact hmem

omit [Platform] in
/-- Published contacts are of logs whose contacts are loaded. -/
theorem isSome_contacts_published (logId other : Int64) (committed : List Contact)
    (cache : DatabaseCache)
    (h : ((committed.foldl (publishContact logId) cache).contacts[other]?).isSome) :
    (cache.contacts[other]?).isSome := by
  induction committed generalizing cache with
  | nil => exact h
  | cons contact committed ih =>
      have hstep := ih _ h
      rw [publishContact] at hstep
      split at hstep
      · exact hstep
      · dsimp only at hstep
        rw [getElem?_adjust_key] at hstep
        split at hstep
        · rwa [Option.isSome_map] at hstep
        · exact hstep

theorem Known.writeContacts (h : worker.Known) (hcoherent : worker.Coherent) (logId : Int64)
    (contacts : List Contact) (draws : List Int64) (sql : SqlFaults := {}) :
    (worker.writeContacts logId contacts draws sql).1.Known := by
  have hload := h.loadContacts hcoherent logId
  cases hwrite : worker.writeContacts logId contacts draws sql with
  | mk worker' result =>
      cases result with
      | error error =>
          rcases writeContacts_error hwrite with rfl | rfl
          · exact h
          · exact hload
      | ok mutation =>
          obtain ⟨written, hconnection, -, hcache, -⟩ := hcoherent.writeContacts_ok hwrite
          refine hload.of_sub (fun other hlog => ?_) fun other cached hget => Or.inl ?_
          · dsimp only
            rw [hconnection]
            rwa [Coherent.connection_loadContacts] at hlog
          · dsimp only at hget
            rw [hcache] at hget
            exact isSome_contacts_published logId other mutation.contacts _ (hget ▸ rfl)

theorem Known.reserveSerial (h : worker.Known) (hcoherent : worker.Coherent) (logId : Int64)
    (field : String) (sql : SqlFaults := {}) :
    (worker.reserveSerial logId field sql).1.Known := by
  have hload := h.loadContacts hcoherent logId
  obtain ⟨error, hsame | hloaded⟩ | ⟨cached, serial, -, -, -, -, -, hreserved⟩ :=
    reserveSerial_cases worker logId field sql
  · rw [hsame]
    exact h
  · rw [hloaded]
    exact hload
  · rw [hreserved]
    intro other cached hget
    have hlog := hload other cached hget
    rwa [Coherent.connection_loadContacts] at hlog

theorem Known.execute (h : worker.Known) (hcoherent : worker.Coherent) (command : DbCommand) :
    (worker.execute command).Known := by
  cases command with
  | createLog name contestId stationCallsign contestParams draws =>
      rw [Worker.execute, Worker.createLog]
      split
      · exact h
      · next id _ =>
          refine h.of_sub (fun logId hlog => ?_) fun logId cached hget => ?_
          · dsimp only
            rw [getElem?_insert_key]
            split
            · rfl
            · exact hlog
          · dsimp only [DatabaseCache.publishLog] at hget ⊢
            rw [if_pos rfl, getElem?_insert_key] at hget
            rw [getElem?_insert_key]
            split at hget
            · next heq => exact Or.inr (by rw [if_pos heq]; rfl)
            · exact Or.inl (hget ▸ rfl)
  | updateLog id name stationCallsign contestParams =>
      rw [Worker.execute, Worker.updateLog]
      split
      · exact h
      · refine h.of_sub (fun logId hlog => ?_) fun logId cached hget => Or.inl ?_
        · dsimp only
          rw [getElem?_insert_key]
          split
          · rfl
          · exact hlog
        · exact Option.isSome_iff_exists.mpr ⟨cached, hget⟩
  | deleteLog id =>
      rw [Worker.execute, Worker.deleteLog]
      split
      · intro logId cached hget
        dsimp only [DatabaseCache.removeLog] at hget ⊢
        rw [getElem?_erase_key] at hget ⊢
        split at hget
        · cases hget
        · next hne =>
            rw [if_neg hne]
            exact h logId cached hget
      · exact h
  | loadContacts logId => exact h.loadContacts hcoherent logId
  | upsertContacts logId contacts draws => exact h.writeContacts hcoherent logId contacts draws
  | allocateSerial logId field => exact h.reserveSerial hcoherent logId field
  | deleteContact id =>
      rw [Worker.execute, Worker.removeContact]
      split
      · exact h
      · refine h.of_sub (fun logId hlog => hlog) fun logId cached hget => Or.inl ?_
        dsimp only [DatabaseCache.bumpRevision] at hget
        rw [getElem?_adjust_key] at hget
        split at hget
        · obtain ⟨old, hold, -⟩ := Option.map_eq_some_iff.mp hget
          exact hold ▸ rfl
        · exact hget ▸ rfl
  | restart => exact known_openDatabase hcoherent.file

/-- What holds of the worker after any attempts. -/
structure Settled (worker : Worker) : Prop where
  coherent : worker.Coherent
  known : worker.Known

theorem Settled.execute (h : worker.Settled) (command : DbCommand) :
    (worker.execute command).Settled :=
  ⟨h.coherent.execute command, h.known.execute h.coherent command⟩

theorem Settled.run (h : worker.Settled) (commands : List DbCommand) :
    (worker.run commands).Settled :=
  Runs.invariant_run_of_forall Settled (fun _ command hsettled => hsettled.execute command) h
    commands

/-- Workers with one outline stay so, whatever the commands. -/
theorem Settled.outline_run {worker' : Worker} (h : worker.Settled) (h' : worker'.Settled)
    (hsame : worker.outline = worker'.outline) (commands : List DbCommand) :
    (worker.run commands).outline = (worker'.run commands).outline := by
  induction commands generalizing worker worker' with
  | nil => exact hsame
  | cons command commands ih =>
      refine ih (h.execute command) (h'.execute command) ?_
      rw [h.coherent.outline_execute h.known, h'.coherent.outline_execute h'.known, hsame]

/-- A call that fails, whichever of its checks or calls of SQLite it fails at, leaves the worker, or
the worker with the contacts of its log loaded. -/
theorem perform_error {sql : SqlFaults} {mutation : DbMutation}
    (h : (worker.perform sql mutation).2.isSome) :
    (worker.perform sql mutation).1 = worker ∨
      (worker.perform sql mutation).1 = worker.loadContacts mutation.logId := by
  cases mutation with
  | writeContacts logId contacts draws =>
      rw [perform] at h ⊢
      dsimp only at h ⊢
      cases hwrite : worker.writeContacts logId contacts draws sql with
      | mk worker' result =>
          rw [hwrite] at h
          cases result with
          | error error => exact writeContacts_error hwrite
          | ok mutation => cases h
  | reserveSerial logId field =>
      rw [perform] at h ⊢
      dsimp only at h ⊢
      obtain ⟨error, hsame | hloaded⟩ | ⟨cached, serial, -, -, -, -, -, hreserved⟩ :=
        reserveSerial_cases worker logId field sql
      · exact Or.inl (by rw [hsame])
      · exact Or.inr (by rw [hloaded]; rfl)
      · rw [hreserved] at h
        cases h

theorem Settled.perform (h : worker.Settled) (sql : SqlFaults) (mutation : DbMutation) :
    (worker.perform sql mutation).1.Settled := by
  cases mutation with
  | writeContacts logId contacts draws =>
      exact ⟨h.coherent.writeContacts logId contacts draws sql,
        h.known.writeContacts h.coherent logId contacts draws sql⟩
  | reserveSerial logId field =>
      exact ⟨h.coherent.reserveSerial logId field sql,
        h.known.reserveSerial h.coherent logId field sql⟩

theorem Settled.attempts (h : worker.Settled) (attempts : List Attempt) :
    (worker.attempts attempts).Settled := by
  refine Runs.invariant_run_of_forall Settled (fun worker attempt hsettled => ?_) h attempts
  cases attempt with
  | command command => exact hsettled.execute command
  | faulty sql mutation => exact hsettled.perform sql mutation

theorem Settled.openDatabase {connection : Connection} (hfile : connection.WellFormed) :
    (Worker.openDatabase connection).Settled :=
  ⟨Coherent.openDatabase hfile, known_openDatabase hfile⟩

/-- A call that fails is not observed, not even later. -/
theorem Settled.observe_failed (h : worker.Settled) {sql : SqlFaults} {mutation : DbMutation}
    (hfailed : (worker.perform sql mutation).2.isSome) (later : List DbCommand) (logId : Int64) :
    ((worker.perform sql mutation).1.run later).observe logId =
      (worker.run later).observe logId := by
  have hperformed := h.perform sql mutation
  have hsame : (worker.perform sql mutation).1.outline = worker.outline := by
    rcases perform_error hfailed with hsame | hloaded
    · rw [hsame]
    · rw [hloaded, outline_loadContacts]
  have hafter := hperformed.run later
  have hbefore := h.run later
  rw [hafter.coherent.observe_outline hafter.known, hbefore.coherent.observe_outline hbefore.known,
    hperformed.outline_run h hsame later]

/-- The log of a row, if there is one. -/
def rowLog (worker : Worker) (id : Int64) : Option Int64 :=
  (worker.connection.qsos[id]?).map fun columns => QsoRow.logId { id := id, columns := columns }

omit [Platform] in
theorem rowLog_write {rows : QsoTable} {written : List QsoRow} {logId : Int64}
    (hrows : ∀ row ∈ written, row.logId = logId ∧
      ∀ columns, rows[row.id]? = some columns →
        QsoRow.logId { id := row.id, columns := columns } = logId)
    {id : Int64} {columns : List (String × SqlValue)} (hget : rows[id]? = some columns) :
    ((rows.write written)[id]?).map (fun columns => QsoRow.logId { id := id, columns := columns }) =
      some (QsoRow.logId { id := id, columns := columns }) := by
  induction written generalizing rows columns with
  | nil =>
      rw [QsoTable.write, List.foldl_nil, hget]
      rfl
  | cons row written ih =>
      obtain ⟨hlog, hold⟩ := hrows row List.mem_cons_self
      have hrest := fun other (hmem : other ∈ written) =>
        QsoTable.keptRow hlog (hrows other (List.mem_cons_of_mem _ hmem))
      have hput : (rows.put row)[id]? = if row.id = id then some row.columns else rows[id]? :=
        getElem?_insert_key rows row.id id row.columns
      by_cases hid : row.id = id
      · subst hid
        rw [if_pos rfl] at hput
        have hsame := @ih (rows.put row) hrest row.columns hput
        rw [hold columns hget, ← hlog]
        exact hsame
      · rw [if_neg hid] at hput
        exact @ih (rows.put row) hrest columns (hput.trans hget)

theorem Coherent.rowLog_perform (h : worker.Coherent) {sql : SqlFaults} {mutation : DbMutation}
    (haccepted : (worker.perform sql mutation).2 = none) {id logId : Int64}
    (hrow : worker.rowLog id = some logId) :
    (worker.perform sql mutation).1.rowLog id = some logId := by
  obtain ⟨columns, hget, rfl⟩ := Option.map_eq_some_iff.mp hrow
  cases mutation with
  | writeContacts written contacts draws =>
      rw [Worker.perform] at haccepted ⊢
      dsimp only at haccepted ⊢
      cases hwrite : worker.writeContacts written contacts draws sql with
      | mk worker' result =>
          rw [hwrite] at haccepted
          cases result with
          | error error => cases haccepted
          | ok mutation =>
              obtain ⟨rows, hconnection, -, -, hrows, -⟩ := h.writeContacts_ok hwrite
              rw [rowLog, hconnection]
              exact rowLog_write hrows hget
  | reserveSerial reserved field =>
      rw [Worker.perform] at haccepted ⊢
      dsimp only at haccepted ⊢
      obtain ⟨error, hsame | hloaded⟩ | ⟨cached, serial, -, -, -, -, -, hreserved⟩ :=
        reserveSerial_cases worker reserved field sql
      · rw [hsame] at haccepted
        cases haccepted
      · rw [hloaded] at haccepted
        cases haccepted
      · rw [hreserved, rowLog]
        exact congrArg (Option.map _) hget

/-- After any commands and calls that SQLite refused: a call that fails, wherever it does, is never
observed, and one that is accepted leaves every contact with its log, in the file and in the
cache. -/
theorem databaseCalls_atomic (connection : Connection) (hfile : connection.WellFormed)
    (earlier : List Attempt) (sql : SqlFaults) (mutation : DbMutation) :
    let worker := (Worker.openDatabase connection).attempts earlier
    let result := worker.perform sql mutation
    (result.2.isSome → ∀ (later : List DbCommand) (logId : Int64),
      (result.1.run later).observe logId = (worker.run later).observe logId) ∧
    (result.2 = none → ∀ id logId : Int64, worker.rowLog id = some logId →
      worker.cache.owners[id.toInt]? = some logId ∧ result.1.rowLog id = some logId ∧
        result.1.cache.owners[id.toInt]? = some logId) := by
  intro worker result
  have hsettled : worker.Settled := (Settled.openDatabase hfile).attempts earlier
  refine ⟨fun hfailed later logId => hsettled.observe_failed hfailed later logId, ?_⟩
  intro haccepted id logId hrow
  have hafter := hsettled.perform sql mutation
  have hmoved : result.1.rowLog id = some logId := hsettled.coherent.rowLog_perform haccepted hrow
  exact ⟨(hsettled.coherent.owners id).trans hrow, hmoved,
    (hafter.coherent.owners id).trans hmoved⟩

end Worker

end Log73

namespace Log73

open TreeMap
open Std (ExtTreeMap)

attribute [local instance] asciiPlatform

theorem Connection.wellFormed_log (log : Log) :
    ({ logs := (∅ : ExtTreeMap Int64 Log).insert log.id log } : Connection).WellFormed where
  logIds id other hget := by
    rw [getElem?_insert_key, ExtTreeMap.getElem?_empty] at hget
    split at hget
    · next hid =>
        obtain rfl := Option.some.inj hget
        exact hid
    · cases hget
  rowLogs id columns hget := by
    rw [ExtTreeMap.getElem?_empty] at hget
    cases hget

def Worker.testLog : Log :=
  { id := 1, name := "Test log", contestId := "test-contest", stationCallsign := "N0CALL",
    contestParams := .null }

/-- After a reservation, another one whose commit SQLite refuses. -/
theorem Worker.databaseCalls_atomic_transaction :
    let worker :=
      (Worker.openDatabase { logs := (∅ : ExtTreeMap Int64 Log).insert 1 testLog }).attempts
        [.command (.allocateSerial 1 "STX")]
    let result := worker.perform { commit := some .sqliteFailure } (.reserveSerial 1 "STX")
    result.2 = some .sqliteFailure ∧
    (result.2.isSome → ∀ (later : List DbCommand) (logId : Int64),
      (result.1.run later).observe logId = (worker.run later).observe logId) ∧
    (result.2 = none → ∀ id logId : Int64, worker.rowLog id = some logId →
      worker.cache.owners[id.toInt]? = some logId ∧ result.1.rowLog id = some logId ∧
        result.1.cache.owners[id.toInt]? = some logId) :=
  ⟨by decide +kernel, databaseCalls_atomic _ (Connection.wellFormed_log testLog) _ _ _⟩

end Log73
