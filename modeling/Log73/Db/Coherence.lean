import Log73.Db.Tables
import Log73.Library.TreeMap

/-!
The cache in memory against the SQLite file: after every command of the worker, and
after a restart, the cache holds the logs, the owners and the contacts of the file.
-/

namespace Log73

open SortedAssoc TreeMap
open Std (ExtTreeMap LawfulEqOrd ReflCmp)

variable [Platform]

/-- What the foreign key from contacts to logs keeps. -/
structure Connection.WellFormed (connection : Connection) : Prop where
  logIds : ∀ (id : Int64) (log : Log), connection.logs[id]? = some log → log.id = id
  rowLogs : ∀ (id : Int64) columns, connection.qsos[id]? = some columns →
    (connection.logs[QsoRow.logId { id := id, columns := columns }]?).isSome

/-- The cache agrees with the file. -/
structure Worker.Coherent (worker : Worker) : Prop where
  file : worker.connection.WellFormed
  logs : ∀ id : Int64, worker.cache.logs[id]?.map (·.log) = worker.connection.logs[id]?
  owners : ∀ id : Int64, worker.cache.owners[id.toInt]? =
    worker.connection.qsos[id]?.map fun columns => QsoRow.logId { id := id, columns := columns }
  contacts : ∀ (logId : Int64) (cached : CachedContacts),
    worker.cache.contacts[logId]? = some cached →
    cached.Holds (worker.connection.qsos.ofLog logId).contacts

omit [Platform] in
theorem getElem?_insert_toInt {ν : Type} (map : ExtTreeMap Int ν) (id other : Int64) (value : ν) :
    (map.insert id.toInt value)[other.toInt]? =
      if id = other then some value else map[other.toInt]? := by
  rw [ExtTreeMap.getElem?_insert]
  exact if_congr (Std.compare_eq_iff_eq.trans Int64.toInt_inj) rfl rfl

omit [Platform] in
theorem getElem?_erase_toInt {ν : Type} (map : ExtTreeMap Int ν) (id other : Int64) :
    (map.erase id.toInt)[other.toInt]? = if id = other then none else map[other.toInt]? := by
  rw [ExtTreeMap.getElem?_erase]
  exact if_congr (Std.compare_eq_iff_eq.trans Int64.toInt_inj) rfl rfl

namespace DatabaseCache

variable (cache : DatabaseCache)

omit [Platform] in
/-- A new revision changes no log. -/
theorem log_bumpRevision (logId id : Int64) :
    (cache.bumpRevision logId).logs[id]?.map (·.log) = cache.logs[id]?.map (·.log) := by
  rw [bumpRevision, getElem?_adjust_key]
  split
  · rw [Option.map_map]
    rfl
  · rfl

omit [Platform] in
theorem log_publishLog (log : Log) (new : Bool) (id : Int64) :
    (cache.publishLog log new).logs[id]?.map (·.log) =
      if log.id = id then some log else cache.logs[id]?.map (·.log) := by
  have hbump : (cache.publishLog log new).logs[id]?.map (·.log) =
      (cache.logs.insert log.id (cache.logs[log.id]?.elim { log := log, revision := 0 } fun entry =>
        { entry with log := log }))[id]?.map (·.log) := by
    rw [publishLog]
    split
    · exact log_bumpRevision { cache with logs := _ } log.id id
    · exact log_bumpRevision { cache with logs := _ } log.id id
  rw [hbump, getElem?_insert_key]
  split
  · cases cache.logs[log.id]? <;> rfl
  · rfl

end DatabaseCache

theorem dbContacts_perm (connection : Connection) (logId : Int64) :
    (dbContacts connection logId).Perm (connection.qsos.ofLog logId).contacts :=
  Indexing.sortDescending_perm _

namespace Worker.Coherent

variable {worker : Worker}

theorem bumpRevision (h : worker.Coherent) (logId : Int64) :
    Coherent { worker with cache := worker.cache.bumpRevision logId } where
  file := h.file
  logs id := (DatabaseCache.log_bumpRevision _ _ _).trans (h.logs id)
  owners := h.owners
  contacts := h.contacts

theorem loadContacts (h : worker.Coherent) (logId : Int64) :
    (worker.loadContacts logId).Coherent := by
  rw [Worker.loadContacts]
  split
  · exact h
  · refine ⟨h.file, h.logs, h.owners, fun id cached hget => ?_⟩
    rw [getElem?_insert_key] at hget
    split at hget
    · next heq =>
        subst heq
        obtain rfl := Option.some.inj hget
        have hperm := dbContacts_perm worker.connection logId
        apply CachedContacts.Holds.perm _ hperm
        apply CachedContacts.Holds.new
        · intro contact hmem
          exact QsoTable.contacts_identified _ contact (hperm.mem_iff.mp hmem)
        · exact (hperm.map contactId).nodup_iff.mpr (QsoTable.contacts_nodup _)
    · exact h.contacts id cached hget

theorem connection_loadContacts (worker : Worker) (logId : Int64) :
    (worker.loadContacts logId).connection = worker.connection := by
  rw [Worker.loadContacts]
  split <;> rfl

theorem nextSerial_loadContacts (worker : Worker) (logId : Int64) :
    (worker.loadContacts logId).cache.nextSerial = worker.cache.nextSerial := by
  rw [Worker.loadContacts]
  split <;> rfl

/-- One committed row of a log enters the file and the cache. -/
theorem publishRow (h : worker.Coherent) {row : QsoRow} {logId : Int64} (hlog : row.logId = logId)
    (hknown : (worker.connection.logs[logId]?).isSome)
    (hold : ∀ columns, worker.connection.qsos[row.id]? = some columns →
      QsoRow.logId { id := row.id, columns := columns } = logId) :
    Coherent
      { connection := { worker.connection with qsos := worker.connection.qsos.put row }
        cache := publishContact logId worker.cache (rowToContact row) } := by
  subst hlog
  rw [publishContact, contactId_rowToContact]
  refine ⟨⟨h.file.logIds, fun id columns hget => ?_⟩, h.logs, fun id => ?_,
    fun id cached hget => ?_⟩
  · rw [QsoTable.getElem?_put] at hget
    split at hget
    · next heq =>
        subst heq
        obtain rfl := Option.some.inj hget
        exact hknown
    · exact h.file.rowLogs id columns hget
  · rw [QsoTable.getElem?_put, getElem?_insert_toInt]
    split
    · next heq =>
        subst heq
        rfl
    · exact h.owners id
  · rw [getElem?_adjust_key] at hget
    split at hget
    · next heq =>
        subst heq
        obtain ⟨loaded, hloaded, rfl⟩ := Option.map_eq_some_iff.mp hget
        exact ((h.contacts _ loaded hloaded).upsert (contactId_rowToContact row)).perm
          (QsoTable.ofLog_put_perm _ row).symm
    · next hne =>
        rw [QsoTable.ofLog_put_of_ne _ row hne fun columns hcolumns hc =>
          hne ((hold columns hcolumns).symm.trans hc)]
        exact h.contacts id cached hget

/-- The rows of a transaction enter the file and the cache. -/
theorem publishRows {logId : Int64} {written : List QsoRow} (h : worker.Coherent)
    (hknown : (worker.connection.logs[logId]?).isSome)
    (hrows : ∀ row ∈ written, row.logId = logId ∧
      ∀ columns, worker.connection.qsos[row.id]? = some columns →
        QsoRow.logId { id := row.id, columns := columns } = logId) :
    Coherent
      { connection := { worker.connection with qsos := worker.connection.qsos.write written }
        cache := (written.map rowToContact).foldl (publishContact logId) worker.cache } := by
  induction written generalizing worker with
  | nil => exact h
  | cons row written ih =>
      obtain ⟨hlog, hold⟩ := hrows row List.mem_cons_self
      exact ih (h.publishRow hlog hknown hold) hknown fun other hmem =>
        QsoTable.keptRow hlog (hrows other (List.mem_cons_of_mem _ hmem))

/-- What a write that succeeds does. -/
theorem writeContacts_ok (h : worker.Coherent) {logId : Int64} {contacts : List Contact}
    {draws : List Int64} {sql : SqlFaults} {mutation : ContactMutation} {worker' : Worker}
    (hwrite : worker.writeContacts logId contacts draws sql = (worker', .ok mutation)) :
    ∃ written, worker'.connection = { worker.connection with
        qsos := worker.connection.qsos.write written } ∧
      mutation.contacts = written.map rowToContact ∧
      worker'.cache = DatabaseCache.bumpRevision (mutation.contacts.foldl (publishContact logId)
        (worker.loadContacts logId).cache) logId ∧
      (∀ row ∈ written, row.logId = logId ∧
        ∀ columns, worker.connection.qsos[row.id]? = some columns →
          QsoRow.logId { id := row.id, columns := columns } = logId) ∧
      (worker.connection.logs[logId]?).isSome := by
  have hload := h.loadContacts logId
  rw [Worker.writeContacts] at hwrite
  split at hwrite
  · cases hwrite
  next loaded htry =>
  obtain rfl := tryLoadContacts_ok htry
  split at hwrite
  · cases hwrite
  next entry hentry =>
  split at hwrite
  · cases hwrite
  next hforeign =>
  split at hwrite
  · cases hwrite
  next connection written hupsert =>
  obtain ⟨rfl, hmutation⟩ := Prod.mk.inj hwrite
  obtain rfl := Except.ok.inj hmutation
  obtain ⟨qsos, hstored, rfl⟩ := dbUpsertContacts_ok hupsert
  rw [connection_loadContacts] at hstored ⊢
  have hspec := storeContacts_spec hstored fun contact hmem id hid columns hget => by
    have howner := hload.owners (Int64.ofInt id)
    rw [connection_loadContacts, hget, toInt_ofInt_contactId hid] at howner
    have hnone := List.findSome?_eq_none_iff.mp hforeign contact hmem
    rw [hid, Option.bind_some, howner] at hnone
    by_contra hne
    simp [hne] at hnone
  refine ⟨written, by rw [hspec.1], rfl, rfl, hspec.2, ?_⟩
  have hlogs := hload.logs logId
  rw [hentry, connection_loadContacts] at hlogs
  rw [← hlogs]
  rfl

theorem writeContacts (h : worker.Coherent) (logId : Int64) (contacts : List Contact)
    (draws : List Int64) (sql : SqlFaults := {}) :
    (worker.writeContacts logId contacts draws sql).1.Coherent := by
  have hload := h.loadContacts logId
  cases hwrite : worker.writeContacts logId contacts draws sql with
  | mk worker' result =>
      cases result with
      | error error =>
          rcases writeContacts_error hwrite with hsame | hloaded
          · exact hsame ▸ h
          · exact hloaded ▸ hload
      | ok mutation =>
          obtain ⟨written, hconnection, hcontacts, hcache, hrows, hknown⟩ :=
            h.writeContacts_ok hwrite
          rw [← connection_loadContacts worker logId] at hrows hknown
          have hpublished := (publishRows hload hknown hrows).bumpRevision logId
          rw [connection_loadContacts] at hpublished
          obtain ⟨connection, cache⟩ := worker'
          obtain rfl : connection = _ := hconnection
          obtain rfl : cache = _ := hcache
          rwa [hcontacts]

theorem removeContact (h : worker.Coherent) (id : Int64) :
    (worker.removeContact id).1.Coherent := by
  rw [Worker.removeContact]
  split
  · exact h
  · next columns hget =>
      refine @bumpRevision _ ⟨_, _⟩ ?_ _
      refine ⟨⟨h.file.logIds, fun other columns' hother => ?_⟩, h.logs, fun other => ?_,
        fun logId cached hcached => ?_⟩
      · rw [QsoTable.getElem?_erase] at hother
        split at hother
        · cases hother
        · exact h.file.rowLogs other columns' hother
      · rw [QsoTable.getElem?_erase, getElem?_erase_toInt]
        split
        · rfl
        · exact h.owners other
      · rw [getElem?_adjust_key] at hcached
        split at hcached
        · next heq =>
            subst heq
            obtain ⟨loaded, hloaded, rfl⟩ := Option.map_eq_some_iff.mp hcached
            exact ((h.contacts _ loaded hloaded).remove id.toInt).perm
              (QsoTable.ofLog_erase_perm _ id _).symm
        · next hne =>
            rw [QsoTable.ofLog_erase_of_ne]
            · exact h.contacts logId cached hcached
            · intro columns' hcolumns hlog
              rw [hget] at hcolumns
              rw [Option.some.inj hcolumns] at hne
              exact hne hlog

end Worker.Coherent

end Log73
