import Log73.Db.Cache
import Log73.Library.Indexing

/-!
The database worker of `db/worker.rs`: the only writer of the SQLite file and of the
cache in memory. A restart drops the cache and opens the file again.
-/

namespace Log73

open Std

/-- Rows of `qsos` by their id. -/
abbrev QsoTable := ExtTreeMap Int64 (List (String × SqlValue))

namespace QsoTable

variable [Platform] (rows : QsoTable)

/-- The rows of a log. -/
def ofLog (logId : Int64) : QsoTable :=
  rows.filter fun id columns => QsoRow.logId { id := id, columns := columns } = logId

def contacts : List Contact :=
  rows.toList.map fun entry => rowToContact { id := entry.1, columns := entry.2 }

def put (row : QsoRow) : QsoTable := rows.insert row.id row.columns

end QsoTable

/-- One more than the largest rowid; past the largest of all, unused ones are drawn. -/
def freshRowid {α : Type} (rows : ExtTreeMap Int64 α) (draws : List Int64) : Option Int64 :=
  match rows.maxKey? with
  | none => some 1
  | some largest =>
      if largest < Int64.maxValue then some (largest + 1)
      else draws.find? fun id => 0 < id && !rows.contains id

/-- The tables of the SQLite file that concern logs. -/
structure Connection where
  logs : ExtTreeMap Int64 Log := ∅
  qsos : QsoTable := ∅
  serials : ExtTreeMap Int64 (KeyMap Int) := ∅

inductive DbError where
  | queryReturnedNoRows
  | invalidParameterName (text : String)
  | constraint
  | sqliteFailure
  deriving DecidableEq

/-- The calls of SQLite that fail in an operation, each with its error: the query of a log's
contacts, the begin of the transaction, its statements by their index, its commit. -/
structure SqlFaults where
  query : Option DbError := none
  transaction : Option DbError := none
  statement : Nat → Option DbError := fun _ => none
  commit : Option DbError := none

/-- A transaction of `rusqlite`: what its body has written is rolled back when the transaction is
dropped, unless the body and the commit succeed. -/
def Connection.transaction {α : Type} (connection : Connection) (sql : SqlFaults)
    (body : Connection → Connection × Except DbError α) : Connection × Except DbError α :=
  match sql.transaction with
  | some error => (connection, .error error)
  | none =>
      match body connection with
      | (_, .error error) => (connection, .error error)
      | (written, .ok result) =>
          match sql.commit with
          | some error => (connection, .error error)
          | none => (written, .ok result)

structure Worker where
  connection : Connection := {}
  cache : DatabaseCache := {}

structure ContactMutation where
  previousRevision : Nat
  revision : Nat
  contacts : List Contact

structure SerialAllocation where
  logId : Int64
  fieldAdif : String
  serial : Int
  deriving DecidableEq

structure ContactDeletion where
  logId : Int64
  previousRevision : Nat
  revision : Nat

/-- `i64::checked_add(1)`. -/
def checkedSucc (value : Int) : Option Int := if value < i64Max then some (value + 1) else none

section Tables

variable [Platform]

def upsertContact (qsos : QsoTable) (draws : List Int64) (contact : Contact) :
    Option (QsoTable × QsoRow) :=
  (((contactId contact).map Int64.ofInt).or (freshRowid qsos draws)).bind fun id =>
    (storedRow id contact).map fun row => (qsos.put row, row)

/-- The rows once all the contacts are stored in order, where each of them can be. -/
def storeContacts (logId : Int64) (contestId : String) (draws : List Int64) :
    QsoTable → List Contact → Option (QsoTable × List QsoRow)
  | qsos, [] => some (qsos, [])
  | qsos, contact :: contacts =>
      (upsertContact qsos draws (preparedContact logId.toInt contestId contact)).bind fun stored =>
        (storeContacts logId contestId draws stored.1 contacts).map fun rest =>
          (rest.1, stored.2 :: rest.2)

/-- The loop of `db_upsert_contacts` from its `index`-th contact on. A contact that cannot be
stored, or a statement that fails, ends it with the rows before it written. -/
def upsertEach (sql : SqlFaults) (logId : Int64) (contestId : String) (draws : List Int64) :
    Nat → QsoTable → List Contact → QsoTable × Except DbError (List QsoRow)
  | _, qsos, [] => (qsos, .ok [])
  | index, qsos, contact :: contacts =>
      match sql.statement index with
      | some error => (qsos, .error error)
      | none =>
          match upsertContact qsos draws (preparedContact logId.toInt contestId contact) with
          | none => (qsos, .error .constraint)
          | some (qsos, row) =>
              match upsertEach sql logId contestId draws (index + 1) qsos contacts with
              | (qsos, .error error) => (qsos, .error error)
              | (qsos, .ok rows) => (qsos, .ok (row :: rows))

def dbUpsertContacts (connection : Connection) (logId : Int64) (contestId : String)
    (draws : List Int64) (contacts : List Contact) (sql : SqlFaults) :
    Connection × Except DbError (List QsoRow) :=
  connection.transaction sql fun connection =>
    match upsertEach sql logId contestId draws 0 connection.qsos contacts with
    | (qsos, result) => ({ connection with qsos := qsos }, result)

def putSerial (serials : ExtTreeMap Int64 (KeyMap Int)) (logId : Int64) (field : String)
    (serial : Int) : ExtTreeMap Int64 (KeyMap Int) :=
  serials.insert logId ((serials[logId]?.getD (∅ : KeyMap Int)).insert field serial)

def dbAllocateSerial (connection : Connection) (logId : Int64) (fieldAdif : String) (serial : Int)
    (sql : SqlFaults) : Connection × Except DbError SerialAllocation :=
  match checkedSucc serial with
  | none => (connection, .error (.invalidParameterName "serial allocation overflow"))
  | some nextSerial =>
      connection.transaction sql fun connection =>
        match sql.statement 0 with
        | some error => (connection, .error error)
        | none =>
            ({ connection with
                serials := putSerial connection.serials logId fieldAdif nextSerial },
              .ok { logId := logId, fieldAdif := fieldAdif, serial := serial })

def dbContacts (connection : Connection) (logId : Int64) : List Contact :=
  Indexing.sortDescending contactOrderKey (connection.qsos.ofLog logId).contacts

end Tables

namespace DatabaseCache

variable [Platform] (connection : Connection)

/-- `DatabaseCache::load`: only logs without contacts have their contacts loaded. -/
def load : DatabaseCache :=
  let cache := connection.logs.toList.foldl (fun cache entry => publishLog cache entry.2 false) {}
  let cache := connection.qsos.toList.foldl (fun (cache : DatabaseCache) entry =>
    let logId := QsoRow.logId { id := entry.1, columns := entry.2 }
    { cache with
      owners := cache.owners.insert entry.1.toInt logId
      counts := cache.counts.insert logId (cache.counts[logId]?.getD 0 + 1) }) cache
  let cache := cache.logs.keys.foldl (fun (cache : DatabaseCache) logId =>
    if cache.counts[logId]?.getD 0 = 0 then
      { cache with contacts := cache.contacts.insert logId {} }
    else cache) cache
  { cache with nextSerial := connection.serials.map fun _ fields =>
      fields.toList.foldl (fun next entry =>
        let field := toAsciiUppercase (trim entry.1)
        next.insert field (max (next[field]?.getD 0) entry.2)) ∅ }

end DatabaseCache

namespace Worker

variable [Platform] (worker : Worker)

def openDatabase (connection : Connection) : Worker where
  connection := connection
  cache := .load connection

def restart : Worker := openDatabase worker.connection

/-- The log is known and its contacts are not in memory. -/
def cold (logId : Int64) : Bool :=
  worker.cache.logs.contains logId && !worker.cache.contacts.contains logId

/-- Load the contacts of a known log once. -/
def loadContacts (logId : Int64) : Worker :=
  if !worker.cache.logs.contains logId || worker.cache.contacts.contains logId then worker
  else
    { worker with
      cache := { worker.cache with
        contacts := worker.cache.contacts.insert logId
          (.new (dbContacts worker.connection logId)) } }

/-- `load_contacts` with the error of its query, which is made where the log is cold. -/
def tryLoadContacts (logId : Int64) (sql : SqlFaults) : Worker × Except DbError Unit :=
  match if worker.cold logId then sql.query else none with
  | some error => (worker, .error error)
  | none => (worker.loadContacts logId, .ok ())

/-- The first contact whose id another log owns. -/
def foreignContact (logId : Int64) (contacts : List Contact) : Option (Int × Int64) :=
  contacts.findSome? fun contact =>
    (contactId contact).bind fun id =>
      worker.cache.owners[id]?.bind fun owner => if owner ≠ logId then some (id, owner) else none

/-- A committed contact enters the caches of its log. -/
def publishContact (logId : Int64) (cache : DatabaseCache) (contact : Contact) : DatabaseCache :=
  match contactId contact with
  | none => cache
  | some id =>
      { cache with
        owners := cache.owners.insert id logId
        counts :=
          if cache.owners.contains id then cache.counts
          else cache.counts.insert logId (cache.counts[logId]?.getD 0 + 1)
        contacts := cache.contacts[logId]?.elim cache.contacts fun cached =>
          cache.contacts.insert logId (cached.upsert contact) }

/-- The caches are written once the rows are committed; what SQLite refuses is `sql`. -/
def writeContacts (logId : Int64) (contacts : List Contact) (draws : List Int64)
    (sql : SqlFaults := {}) : Worker × Except DbError ContactMutation :=
  match worker.tryLoadContacts logId sql with
  | (worker, .error error) => (worker, .error error)
  | (worker, .ok ()) =>
      match worker.cache.logs[logId]? with
      | none => (worker, .error .queryReturnedNoRows)
      | some entry =>
          match worker.foreignContact logId contacts with
          | some (id, owner) =>
              (worker, .error (.invalidParameterName
                ("contact id " ++ toString id ++ " belongs to log " ++ toString owner.toInt
                  ++ ", cannot write to log " ++ toString logId.toInt)))
          | none =>
              match dbUpsertContacts worker.connection logId entry.log.contestId draws contacts sql
                with
              | (connection, .error error) =>
                  ({ worker with connection := connection }, .error error)
              | (connection, .ok rows) =>
                  let committed := rows.map rowToContact
                  let cache := DatabaseCache.bumpRevision
                    (committed.foldl (publishContact logId) worker.cache) logId
                  ({ connection := connection, cache := cache },
                    .ok
                      { previousRevision := entry.revision
                        revision := cache.nextRevision
                        contacts := committed })

/-- Reserve the next serial of a field: past every one reserved and every one in a contact. The
reservation is in the file before it is in the cache; what SQLite refuses is `sql`. -/
def reserveSerial (logId : Int64) (fieldAdif : String) (sql : SqlFaults := {}) :
    Worker × Except DbError SerialAllocation :=
  let requestedField := trim fieldAdif
  let field := toAsciiUppercase requestedField
  if logId ≤ 0 || field.isEmpty then
    (worker, .error (.invalidParameterName
      "log id must be positive and serial field must not be empty"))
  else
    match worker.tryLoadContacts logId sql with
    | (worker, .error error) => (worker, .error error)
    | (worker, .ok ()) =>
        match worker.cache.contacts[logId]? with
        | none => (worker, .error .queryReturnedNoRows)
        | some contacts =>
            match (contacts.serialMax field none).elim (some 1) checkedSucc with
            | none => (worker, .error (.invalidParameterName "serial allocation overflow"))
            | some committedNext =>
                let serial :=
                  max (max ((worker.cache.nextSerialFor logId field).getD 1) committedNext) 1
                match dbAllocateSerial worker.connection logId field serial sql with
                | (connection, .error error) =>
                    ({ worker with connection := connection }, .error error)
                | (connection, .ok allocation) =>
                    ({ connection := connection
                       cache := { worker.cache with
                        nextSerial :=
                          putSerial worker.cache.nextSerial logId field (serial + 1) } },
                      .ok { allocation with fieldAdif := requestedField })

def removeContact (id : Int64) : Worker × Option ContactDeletion :=
  match worker.connection.qsos[id]? with
  | none => (worker, none)
  | some columns =>
      let logId := QsoRow.logId { id := id, columns := columns }
      let cache := worker.cache
      let cache := { cache with
        owners := cache.owners.erase id.toInt
        counts := cache.counts[logId]?.elim cache.counts fun count =>
          cache.counts.insert logId (count - 1)
        contacts := cache.contacts[logId]?.elim cache.contacts fun cached =>
          cache.contacts.insert logId (cached.remove id.toInt) }
      ({ connection := { worker.connection with qsos := worker.connection.qsos.erase id }
         cache := DatabaseCache.bumpRevision cache logId },
        some
          { logId := logId
            previousRevision := (worker.cache.logs[logId]?.map (·.revision)).getD 0
            revision := worker.cache.nextRevision + 1 })

def createLog (name contestId stationCallsign : String) (contestParams : Value)
    (draws : List Int64) : Worker :=
  match freshRowid worker.connection.logs draws with
  | none => worker
  | some id =>
      let log : Log :=
        { id := id
          name := trim name
          contestId := trim contestId
          stationCallsign := toUppercase (trim stationCallsign)
          contestParams := contestParams }
      { connection := { worker.connection with logs := worker.connection.logs.insert id log }
        cache := worker.cache.publishLog log true }

/-- The contest of a log stays; a log that does not exist is not created. -/
def updateLog (id : Int64) (name stationCallsign : String) (contestParams : Value) : Worker :=
  match worker.connection.logs[id]? with
  | none => worker
  | some log =>
      let log := { log with
        name := trim name
        stationCallsign := toUppercase (trim stationCallsign)
        contestParams := contestParams }
      { connection := { worker.connection with logs := worker.connection.logs.insert id log }
        cache := worker.cache.publishLog log false }

/-- The rows of the log go with it. -/
def deleteLog (id : Int64) : Worker :=
  if worker.connection.logs.contains id then
    { connection :=
        { logs := worker.connection.logs.erase id
          qsos := worker.connection.qsos.filter fun contact columns =>
            QsoRow.logId { id := contact, columns := columns } ≠ id
          serials := worker.connection.serials.erase id }
      cache := worker.cache.removeLog id }
  else worker

end Worker

end Log73
