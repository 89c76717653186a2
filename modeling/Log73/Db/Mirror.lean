import Log73.Db.Serials

/-!
The whole cache against the file, with the counts of contacts, and the revisions: a log
that changes gets a revision no log had before, so that one revision of a log stands for
one state of it.
-/

namespace Log73

open SortedAssoc TreeMap
open Std (ExtTreeMap LawfulEqOrd ReflCmp)

namespace QsoTable

variable (rows : QsoTable)

theorem length_contacts [Platform] : rows.contacts.length = ExtTreeMap.size rows := by
  rw [contacts, List.length_map, ExtTreeMap.length_toList]

theorem ofLog_put (row : QsoRow) :
    (rows.put row).ofLog row.logId = (rows.ofLog row.logId).put row := by
  apply ExtTreeMap.ext_getElem?
  intro id
  rw [getElem?_ofLog, getElem?_put, getElem?_put, getElem?_ofLog]
  split
  · next heq =>
      subst heq
      exact (Option.filter_some ..).trans (if_pos (decide_eq_true rfl))
  · rfl

theorem ofLog_erase (id logId : Int64) :
    ofLog (ExtTreeMap.erase rows id) logId = ExtTreeMap.erase (rows.ofLog logId) id := by
  apply ExtTreeMap.ext_getElem?
  intro other
  rw [getElem?_ofLog, getElem?_erase, getElem?_erase, getElem?_ofLog]
  split <;> rfl

/-- What a write to one log leaves of the others. -/
theorem ofLog_write_of_ne {rows : QsoTable} {written : List QsoRow} {logId other : Int64}
    (hrows : ∀ row ∈ written, row.logId = logId ∧
      ∀ columns, rows[row.id]? = some columns →
        QsoRow.logId { id := row.id, columns := columns } = logId) (hne : logId ≠ other) :
    (rows.write written).ofLog other = rows.ofLog other := by
  induction written generalizing rows with
  | nil => rfl
  | cons row written ih =>
      obtain ⟨hlog, hold⟩ := hrows row List.mem_cons_self
      have hput : (rows.put row).ofLog other = rows.ofLog other :=
        rows.ofLog_put_of_ne row (hlog ▸ hne) fun columns hget hc =>
          hne ((hold columns hget).symm.trans hc)
      rw [← hput]
      apply ih
      exact fun other hmem => keptRow hlog (hrows other (List.mem_cons_of_mem _ hmem))

end QsoTable

variable [Platform]

namespace Worker

def run (worker : Worker) (commands : List DbCommand) : Worker := commands.foldl execute worker

/-- Every log is counted with its contacts. -/
def Counted (worker : Worker) : Prop := ∀ logId : Int64,
  worker.cache.counts[logId]?.getD 0 = ExtTreeMap.size (worker.connection.qsos.ofLog logId)

/-- What the cache holds, read from the file. -/
structure Mirrors (worker : Worker) : Prop where
  logs : ∀ id : Int64, worker.cache.logs[id]?.map (·.log) = worker.connection.logs[id]?
  owners : ∀ id : Int64, worker.cache.owners[id.toInt]? =
    worker.connection.qsos[id]?.map fun columns => QsoRow.logId { id := id, columns := columns }
  counts : ∀ logId : Int64, worker.cache.counts[logId]?.getD 0 =
    (dbContacts worker.connection logId).length
  contacts : ∀ (logId : Int64) (cached : CachedContacts),
    worker.cache.contacts[logId]? = some cached →
      cached.toVec = dbContacts worker.connection logId ∧
      (∀ id contact, cached.contact id = some contact ↔
        contact ∈ dbContacts worker.connection logId ∧ contactId contact = some id) ∧
      IndexesSerials cached.serials ((dbContacts worker.connection logId).flatMap serialEntries)

/-- From one moment to a later one, a log keeps its revision only with its name, its station
and its contacts; a change gives it a revision that is greater than every earlier one. -/
structure Advances (worker worker' : Worker) : Prop where
  revision : worker.cache.nextRevision ≤ worker'.cache.nextRevision
  log : ∀ (id : Int64) (entry : RevisedLog), worker'.cache.logs[id]? = some entry →
    (worker.cache.nextRevision < entry.revision ∧
      entry.revision ≤ worker'.cache.nextRevision) ∨
    (worker.cache.logs[id]? = some entry ∧
      worker'.connection.qsos.ofLog id = worker.connection.qsos.ofLog id)

namespace Advances

omit [Platform]

variable {worker worker' worker'' : Worker}

theorem refl (worker : Worker) : Advances worker worker where
  revision := le_refl _
  log _ _ hget := .inr ⟨hget, rfl⟩

theorem trans (h : Advances worker worker') (h' : Advances worker' worker'') :
    Advances worker worker'' where
  revision := h.revision.trans h'.revision
  log id entry hget := by
    cases h'.log id entry hget with
    | inl hnew => exact .inl ⟨h.revision.trans_lt hnew.1, hnew.2⟩
    | inr hsame =>
        cases h.log id entry hsame.1 with
        | inl hnew => exact .inl ⟨hnew.1, hnew.2.trans h'.revision⟩
        | inr hsame' => exact .inr ⟨hsame'.1, hsame.2.trans hsame'.2⟩

/-- Neither a log nor a contact changes. -/
theorem of_eq (hlogs : worker'.cache.logs = worker.cache.logs)
    (hrevision : worker'.cache.nextRevision = worker.cache.nextRevision)
    (hrows : worker'.connection.qsos = worker.connection.qsos) : Advances worker worker' where
  revision := hrevision.ge
  log id entry hget := .inr ⟨hlogs ▸ hget, by rw [hrows]⟩

/-- One log changes, and its revision is bumped. -/
theorem of_bump {cache : DatabaseCache} {connection : Connection} {logId : Int64}
    (hlogs : ∀ id, id ≠ logId → cache.logs[id]? = worker.cache.logs[id]?)
    (hrevision : cache.nextRevision = worker.cache.nextRevision)
    (hrows : ∀ id, id ≠ logId → connection.qsos.ofLog id = worker.connection.qsos.ofLog id) :
    Advances worker { connection := connection, cache := cache.bumpRevision logId } where
  revision := by
    rw [DatabaseCache.bumpRevision, hrevision]
    exact Nat.le_succ _
  log id entry hget := by
    rw [DatabaseCache.bumpRevision, getElem?_adjust_key] at hget
    split at hget
    · obtain ⟨old, -, rfl⟩ := Option.map_eq_some_iff.mp hget
      exact .inl ⟨hrevision ▸ Nat.lt_succ_self _, le_refl _⟩
    · next hne => exact .inr ⟨hlogs id (Ne.symm hne) ▸ hget, hrows id (Ne.symm hne)⟩

end Advances

/-- No log is ahead of the next revision. -/
def Bounded (worker : Worker) : Prop := ∀ (id : Int64) (entry : RevisedLog),
  worker.cache.logs[id]? = some entry → entry.revision ≤ worker.cache.nextRevision

omit [Platform] in
theorem Advances.bounded {worker worker' : Worker} (h : Advances worker worker')
    (hbounded : worker.Bounded) : worker'.Bounded := by
  intro id entry hget
  cases h.log id entry hget with
  | inl hnew => exact hnew.2
  | inr hsame => exact (hbounded id entry hsame.1).trans h.revision

omit [Platform] in
theorem advances_publishLog (worker : Worker) (connection : Connection) (log : Log) (new : Bool)
    (hrows : connection.qsos = worker.connection.qsos) :
    Advances worker { connection := connection, cache := worker.cache.publishLog log new } := by
  have hbump : Advances worker
      { connection := connection
        cache := DatabaseCache.bumpRevision { worker.cache with
          logs := worker.cache.logs.insert log.id
            (worker.cache.logs[log.id]?.elim { log := log, revision := 0 } fun entry =>
              { entry with log := log }) } log.id } := by
    refine .of_bump (fun id hne => ?_) rfl fun id _ => by rw [hrows]
    rw [getElem?_insert_key, if_neg (Ne.symm hne)]
  rw [DatabaseCache.publishLog]
  split
  · exact hbump.trans (.of_eq rfl rfl rfl)
  · exact hbump

omit [Platform] in
theorem logs_foldl_publishContact (logId : Int64) (contacts : List Contact)
    (cache : DatabaseCache) :
    (contacts.foldl (publishContact logId) cache).logs = cache.logs ∧
    (contacts.foldl (publishContact logId) cache).nextRevision = cache.nextRevision := by
  constructor
  · refine foldl_same (·.logs) (publishContact logId) (fun cache contact => ?_) contacts cache
    rw [publishContact]
    split <;> rfl
  · refine foldl_same (·.nextRevision) (publishContact logId)
      (fun cache contact => ?_) contacts cache
    rw [publishContact]
    split <;> rfl

theorem advances_loadContacts (worker : Worker) (logId : Int64) :
    Advances worker (worker.loadContacts logId) := by
  rw [loadContacts]
  split
  · exact .refl worker
  · exact .of_eq rfl rfl rfl

theorem advances_writeContacts {worker : Worker} (h : worker.Coherent) (logId : Int64)
    (contacts : List Contact) (draws : List Int64) :
    Advances worker (worker.writeContacts logId contacts draws).1 := by
  cases hwrite : worker.writeContacts logId contacts draws with
  | mk worker' result =>
      cases result with
      | error error =>
          rcases writeContacts_error hwrite with rfl | rfl
          · exact .refl worker'
          · exact advances_loadContacts worker logId
      | ok mutation =>
          obtain ⟨written, hconnection, -, hcache, hrows, -⟩ := h.writeContacts_ok hwrite
          obtain ⟨connection, cache⟩ := worker'
          obtain rfl : connection = _ := hconnection
          obtain rfl : cache = _ := hcache
          refine (advances_loadContacts worker logId).trans ?_
          obtain ⟨hlogs, hrevision⟩ := logs_foldl_publishContact logId mutation.contacts
            (worker.loadContacts logId).cache
          refine .of_bump (fun id _ => by rw [hlogs]) hrevision fun id hne => ?_
          rw [Coherent.connection_loadContacts]
          exact QsoTable.ofLog_write_of_ne hrows (Ne.symm hne)

omit [Platform] in
theorem advances_removeContact (worker : Worker) (id : Int64) :
    Advances worker (worker.removeContact id).1 := by
  rw [removeContact]
  split
  · exact .refl worker
  · next columns hget =>
      refine .of_bump (fun _ _ => rfl) rfl fun logId hne => ?_
      apply QsoTable.ofLog_erase_of_ne
      intro columns' hcolumns hlog
      rw [hget] at hcolumns
      rw [Option.some.inj hcolumns] at hne
      exact hne hlog.symm

omit [Platform] in
theorem advances_deleteLog (worker : Worker) (id : Int64) :
    Advances worker (worker.deleteLog id) := by
  rw [deleteLog]
  split
  · refine ⟨le_refl _, fun other entry hget => .inr ?_⟩
    rw [DatabaseCache.removeLog, getElem?_erase_key] at hget
    split at hget
    · cases hget
    · next hne => exact ⟨hget, QsoTable.ofLog_filter_of_ne worker.connection.qsos hne⟩
  · exact .refl worker

/-- Every command but a restart, which starts the revisions again. -/
theorem advances_execute {worker : Worker} (h : worker.Coherent) {command : DbCommand}
    (hcommand : command ≠ .restart) : Advances worker (worker.execute command) := by
  cases command with
  | createLog name contestId stationCallsign contestParams draws =>
      simp only [execute, createLog]
      split
      · exact .refl worker
      · exact advances_publishLog worker _ _ true rfl
  | updateLog id name stationCallsign contestParams =>
      simp only [execute, updateLog]
      split
      · exact .refl worker
      · exact advances_publishLog worker _ _ false rfl
  | deleteLog id => exact advances_deleteLog worker id
  | loadContacts logId => exact advances_loadContacts worker logId
  | upsertContacts logId contacts draws => exact advances_writeContacts h logId contacts draws
  | allocateSerial logId field =>
      simp only [execute]
      obtain ⟨error, hsame | hloaded⟩ | ⟨cached, serial, -, -, -, -, -, hreserved⟩ :=
        reserveSerial_cases worker logId field
      · rw [hsame]
        exact .refl worker
      · rw [hloaded]
        exact advances_loadContacts worker logId
      · rw [hreserved]
        exact (advances_loadContacts worker logId).trans
          (.of_eq rfl rfl (by rw [Coherent.connection_loadContacts]))
  | deleteContact id => exact advances_removeContact worker id
  | restart => exact absurd rfl hcommand

theorem advances_run {worker : Worker} (h : worker.Coherent) (commands : List DbCommand)
    (hcommands : DbCommand.restart ∉ commands) : Advances worker (worker.run commands) := by
  induction commands generalizing worker with
  | nil => exact .refl worker
  | cons command commands ih =>
      rw [List.mem_cons, not_or] at hcommands
      exact (advances_execute h (Ne.symm hcommands.1)).trans (ih (h.execute command) hcommands.2)

section Counts

variable {worker : Worker}

/-- One committed row is counted when its id is new. -/
theorem counted_publishRow (h : worker.Coherent) (hcounted : worker.Counted) {row : QsoRow}
    {logId : Int64} (hlog : row.logId = logId)
    (hold : ∀ columns, worker.connection.qsos[row.id]? = some columns →
      QsoRow.logId { id := row.id, columns := columns } = logId) :
    Counted
      { connection := { worker.connection with qsos := worker.connection.qsos.put row }
        cache := publishContact logId worker.cache (rowToContact row) } := by
  subst hlog
  intro logId
  have hcontains : worker.cache.owners.contains row.id.toInt =
      ExtTreeMap.contains (worker.connection.qsos.ofLog row.logId) row.id := by
    rw [ExtTreeMap.contains_eq_isSome_getElem?, ExtTreeMap.contains_eq_isSome_getElem?,
      h.owners, Option.isSome_map, QsoTable.getElem?_ofLog]
    cases hget : worker.connection.qsos[row.id]? with
    | none => rfl
    | some columns =>
        rw [Option.filter_some, if_pos (decide_eq_true (hold columns hget))]
  have hcounts : (publishContact row.logId worker.cache (rowToContact row)).counts =
      if worker.cache.owners.contains row.id.toInt then worker.cache.counts
      else worker.cache.counts.insert row.logId (worker.cache.counts[row.logId]?.getD 0 + 1) := by
    rw [publishContact, contactId_rowToContact]
  show (publishContact row.logId worker.cache (rowToContact row)).counts[logId]?.getD 0 =
    ExtTreeMap.size ((worker.connection.qsos.put row).ofLog logId)
  rw [hcounts]
  by_cases heq : row.logId = logId
  · subst heq
    have hsize : ExtTreeMap.size ((worker.connection.qsos.put row).ofLog row.logId) =
        if worker.cache.owners.contains row.id.toInt then
          ExtTreeMap.size (worker.connection.qsos.ofLog row.logId)
        else ExtTreeMap.size (worker.connection.qsos.ofLog row.logId) + 1 := by
      rw [QsoTable.ofLog_put, hcontains]
      exact ExtTreeMap.size_insert
    rw [hsize]
    split
    · exact hcounted row.logId
    · rw [getElem?_insert_key, if_pos rfl, Option.getD_some, hcounted row.logId]
  · rw [QsoTable.ofLog_put_of_ne _ row heq fun columns hget hc =>
      heq ((hold columns hget).symm.trans hc), ← hcounted logId]
    split
    · rfl
    · rw [getElem?_insert_key, if_neg heq]

theorem counted_publishRows {logId : Int64} {written : List QsoRow} (h : worker.Coherent)
    (hcounted : worker.Counted) (hknown : (worker.connection.logs[logId]?).isSome)
    (hrows : ∀ row ∈ written, row.logId = logId ∧
      ∀ columns, worker.connection.qsos[row.id]? = some columns →
        QsoRow.logId { id := row.id, columns := columns } = logId) :
    Counted
      { connection := { worker.connection with qsos := worker.connection.qsos.write written }
        cache := (written.map rowToContact).foldl (publishContact logId) worker.cache } := by
  induction written generalizing worker with
  | nil => exact hcounted
  | cons row written ih =>
      obtain ⟨hlog, hold⟩ := hrows row List.mem_cons_self
      exact ih (h.publishRow hlog hknown hold) (counted_publishRow h hcounted hlog hold) hknown
        fun other hmem => QsoTable.keptRow hlog (hrows other (List.mem_cons_of_mem _ hmem))

theorem counted_loadContacts (hcounted : worker.Counted) (logId : Int64) :
    (worker.loadContacts logId).Counted := by
  rw [loadContacts]
  split
  · exact hcounted
  · exact hcounted

theorem counted_writeContacts (h : worker.Coherent) (hcounted : worker.Counted) (logId : Int64)
    (contacts : List Contact) (draws : List Int64) :
    (worker.writeContacts logId contacts draws).1.Counted := by
  have hload := counted_loadContacts hcounted logId
  cases hwrite : worker.writeContacts logId contacts draws with
  | mk worker' result =>
      cases result with
      | error error =>
          rcases writeContacts_error hwrite with rfl | rfl
          · exact hcounted
          · exact hload
      | ok mutation =>
          obtain ⟨written, hconnection, hcontacts, hcache, hrows, hknown⟩ :=
            h.writeContacts_ok hwrite
          obtain ⟨connection, cache⟩ := worker'
          obtain rfl : connection = _ := hconnection
          obtain rfl : cache = _ := hcache
          rw [← Coherent.connection_loadContacts worker logId] at hrows hknown
          have hpublished := counted_publishRows (h.loadContacts logId) hload hknown hrows
          rw [Coherent.connection_loadContacts] at hpublished
          rwa [hcontacts]

omit [Platform] in
theorem counted_removeContact (hcounted : worker.Counted) (id : Int64) :
    (worker.removeContact id).1.Counted := by
  rw [removeContact]
  split
  · exact hcounted
  · next columns hget =>
      intro logId
      have hcount : ((worker.cache.counts[QsoRow.logId { id := id, columns := columns }]?.elim
          worker.cache.counts fun count => worker.cache.counts.insert
            (QsoRow.logId { id := id, columns := columns }) (count - 1))[logId]?).getD 0 =
          ExtTreeMap.size (QsoTable.ofLog (ExtTreeMap.erase worker.connection.qsos id) logId) := by
        rw [getElem?_adjust_key, QsoTable.ofLog_erase, ExtTreeMap.size_erase,
          ExtTreeMap.contains_eq_isSome_getElem?, QsoTable.getElem?_ofLog, hget,
          Option.filter_some, ← hcounted logId]
        simp only [decide_eq_true_eq]
        split
        · cases worker.cache.counts[logId]? <;> rfl
        · rfl
      exact hcount

omit [Platform] in
theorem counted_publishLog {connection : Connection} (hcounted : worker.Counted) (log : Log)
    (new : Bool) (hrows : connection.qsos = worker.connection.qsos)
    (hempty : new = true → ExtTreeMap.size (connection.qsos.ofLog log.id) = 0) :
    Counted { connection := connection, cache := worker.cache.publishLog log new } := by
  intro logId
  rw [DatabaseCache.publishLog]
  split
  · next hnew =>
      show ((worker.cache.counts.insert log.id 0)[logId]?).getD 0 = _
      rw [getElem?_insert_key]
      split
      · next heq =>
          subst heq
          exact (hempty hnew).symm
      · exact hrows ▸ hcounted logId
  · exact hrows ▸ hcounted logId

omit [Platform] in
theorem counted_deleteLog (hcounted : worker.Counted) (id : Int64) :
    (worker.deleteLog id).Counted := by
  rw [deleteLog]
  split
  · intro logId
    show ((worker.cache.counts.erase id)[logId]?).getD 0 = ExtTreeMap.size (QsoTable.ofLog _ logId)
    rw [getElem?_erase_key]
    by_cases heq : id = logId
    · subst heq
      rw [if_pos rfl, QsoTable.ofLog_filter_self]
      rfl
    · rw [if_neg heq, QsoTable.ofLog_filter_of_ne _ heq]
      exact hcounted logId
  · exact hcounted

omit [Platform] in
/-- The counts of a cache that is loaded. -/
theorem counted_openDatabase (connection : Connection) :
    (Worker.openDatabase connection).Counted := by
  intro logId
  show (DatabaseCache.load connection).counts[logId]?.getD 0 = _
  rw [DatabaseCache.counts_load]
  exact DatabaseCache.count_loadedRows connection logId

theorem counted_execute (h : worker.Coherent) (hcounted : worker.Counted) (command : DbCommand) :
    (worker.execute command).Counted := by
  cases command with
  | createLog name contestId stationCallsign contestParams draws =>
      simp only [execute, createLog]
      split
      · exact hcounted
      · next id hfresh =>
          refine counted_publishLog hcounted _ true rfl fun _ => ?_
          rw [← QsoTable.length_contacts, List.length_eq_zero_iff]
          have hnone := freshRowid_not_mem hfresh
          apply Coherent.contacts_ofLog_eq_nil
          intro row columns hrow hlog
          have hsome := h.file.rowLogs row columns hrow
          rw [hlog, hnone] at hsome
          cases hsome
  | updateLog id name stationCallsign contestParams =>
      simp only [execute, updateLog]
      split
      · exact hcounted
      · exact counted_publishLog hcounted _ false rfl fun hfalse => by cases hfalse
  | deleteLog id => exact counted_deleteLog hcounted id
  | loadContacts logId => exact counted_loadContacts hcounted logId
  | upsertContacts logId contacts draws =>
      exact counted_writeContacts h hcounted logId contacts draws
  | allocateSerial logId field =>
      simp only [execute]
      obtain ⟨error, hsame | hloaded⟩ | ⟨cached, serial, -, -, -, -, -, hreserved⟩ :=
        reserveSerial_cases worker logId field
      · rw [hsame]
        exact hcounted
      · rw [hloaded]
        exact counted_loadContacts hcounted logId
      · rw [hreserved]
        have hload := counted_loadContacts hcounted logId
        intro other
        exact (hload other).trans (by rw [Coherent.connection_loadContacts])
  | deleteContact id => exact counted_removeContact hcounted id
  | restart => exact counted_openDatabase worker.connection

theorem run_coherent (h : worker.Coherent) (hcounted : worker.Counted)
    (commands : List DbCommand) :
    (worker.run commands).Coherent ∧ (worker.run commands).Counted := by
  induction commands generalizing worker with
  | nil => exact ⟨h, hcounted⟩
  | cons command commands ih => exact ih (h.execute command) (counted_execute h hcounted command)

theorem Coherent.mirrors (h : worker.Coherent) (hcounted : worker.Counted) : worker.Mirrors where
  logs := h.logs
  owners := h.owners
  counts logId := by
    rw [(dbContacts_perm _ _).length_eq, QsoTable.length_contacts]
    exact hcounted logId
  contacts logId cached hget := by
    have hholds := (h.contacts logId cached hget).perm (dbContacts_perm _ _).symm
    refine ⟨(h.contacts logId cached hget).toVec_eq, hholds.byId, hholds.serials⟩

omit [Platform] in
theorem bounded_publishLog {worker : Worker} (hbounded : worker.Bounded) (log : Log) :
    Bounded { worker with cache := worker.cache.publishLog log false } :=
  (advances_publishLog worker worker.connection log false rfl).bounded hbounded

end Counts

/-- Two moments of a log: a later state has a greater revision, unless it is the same state. -/
def RevisionsTell (worker worker' : Worker) : Prop :=
  ∀ (id : Int64) (entry entry' : RevisedLog), worker.cache.logs[id]? = some entry →
    worker'.cache.logs[id]? = some entry' →
      entry.revision < entry'.revision ∨
      (entry' = entry ∧ worker'.connection.qsos.ofLog id = worker.connection.qsos.ofLog id)

omit [Platform] in
theorem Advances.revisionsTell {worker worker' : Worker} (h : Advances worker worker')
    (hbounded : worker.Bounded) : RevisionsTell worker worker' := by
  intro id entry entry' hget hget'
  cases h.log id entry' hget' with
  | inl hnew => exact .inl ((hbounded id entry hget).trans_lt hnew.1)
  | inr hsame => exact .inr ⟨Option.some.inj (hsame.1.symm.trans hget), hsame.2⟩

omit [Platform] in
theorem bounded_openDatabase (connection : Connection) :
    (Worker.openDatabase connection).Bounded := by
  have hfold : ∀ (entries : List (Int64 × Log)) (cache : DatabaseCache),
      Bounded { connection := connection, cache := cache } →
      Bounded { connection := connection, cache := entries.foldl DatabaseCache.loadLog cache } := by
    intro entries
    induction entries with
    | nil => exact fun _ h => h
    | cons entry entries ih =>
        exact fun cache h => ih _ (@bounded_publishLog ⟨connection, cache⟩ h entry.2)
  have hloaded : Bounded
      { connection := connection, cache := DatabaseCache.loadedLogs connection } :=
    hfold connection.logs.toList {} fun id entry hget => by simp at hget
  have hlogs : (DatabaseCache.load connection).logs =
      (DatabaseCache.loadedLogs connection).logs := by
    rw [DatabaseCache.logs_load, DatabaseCache.loadedRows,
      foldl_same (·.logs) DatabaseCache.ownRow fun _ _ => rfl]
  have hrevision : (DatabaseCache.load connection).nextRevision =
      (DatabaseCache.loadedLogs connection).nextRevision := by
    rw [DatabaseCache.nextRevision_load, DatabaseCache.loadedRows,
      foldl_same (·.nextRevision) DatabaseCache.ownRow fun _ _ => rfl]
  intro id entry hget
  show entry.revision ≤ (DatabaseCache.load connection).nextRevision
  rw [hrevision]
  exact hloaded id entry (hlogs ▸ hget)

theorem bounded_run {worker : Worker} (h : worker.Coherent) (hbounded : worker.Bounded)
    (commands : List DbCommand) : (worker.run commands).Bounded := by
  induction commands generalizing worker with
  | nil => exact hbounded
  | cons command commands ih =>
      refine ih (h.execute command) ?_
      by_cases hcommand : command = .restart
      · subst hcommand
        exact bounded_openDatabase worker.connection
      · exact (advances_execute h hcommand).bounded hbounded

/-- After any commands and restarts the cache holds what the file holds, and from there on every
change of a log, its deletion and the reuse of its id included, gives it a greater revision. -/
theorem databaseCache_mirrors (connection : Connection) (hfile : connection.WellFormed)
    (commands commands' : List DbCommand) (hcommands : DbCommand.restart ∉ commands') :
    ((Worker.openDatabase connection).run commands).Mirrors ∧
    RevisionsTell ((Worker.openDatabase connection).run commands)
      (((Worker.openDatabase connection).run commands).run commands') := by
  have hopen : (Worker.openDatabase connection).Coherent := .openDatabase hfile
  obtain ⟨hcoherent, hcounted⟩ := run_coherent hopen (counted_openDatabase connection) commands
  refine ⟨hcoherent.mirrors hcounted, ?_⟩
  exact (advances_run hcoherent commands' hcommands).revisionsTell
    (bounded_run hopen (bounded_openDatabase connection) commands)

end Worker

end Log73

namespace Log73

attribute [local instance] asciiPlatform

/-- A log is deleted and its id given to another one. -/
theorem Worker.databaseCache_mirrors_reusedId :
    ((Worker.openDatabase {}).run
      [.createLog "Test log" "test-contest" "N0CALL" .null []]).Mirrors ∧
    RevisionsTell
      ((Worker.openDatabase {}).run [.createLog "Test log" "test-contest" "N0CALL" .null []])
      (((Worker.openDatabase {}).run [.createLog "Test log" "test-contest" "N0CALL" .null []]).run
        [.deleteLog 1, .createLog "Next log" "test-contest" "N0CALL" .null []]) :=
  databaseCache_mirrors {} Connection.wellFormed_empty _ _ (by simp)

end Log73
