import Log73.Db.Coherence

/-!
Logs that come and go, and a restart: the cache that is loaded from a file agrees
with the file.
-/

namespace Log73

open SortedAssoc TreeMap
open Std (ExtTreeMap LawfulEqOrd ReflCmp)

theorem get?_toList {ν : Type} (map : ExtTreeMap Int64 ν) (id : Int64) :
    get? map.toList id = map[id]? := by
  have hnodup : (map.toList.map Prod.fst).Nodup :=
    ExtTreeMap.map_fst_toList_eq_keys (t := map) ▸ ExtTreeMap.nodup_keys
  apply Option.ext
  intro value
  rw [← ExtTreeMap.mem_toList_iff_getElem?_eq_some]
  exact ⟨mem_of_get?, get?_of_mem hnodup⟩

theorem nodup_keys_toList {ν : Type} (map : ExtTreeMap Int64 ν) :
    (map.toList.map Prod.fst).Nodup :=
  ExtTreeMap.map_fst_toList_eq_keys (t := map) ▸ ExtTreeMap.nodup_keys

/-- A fold changes only what its steps change. -/
theorem foldl_same {σ α τ : Type*} (read : σ → τ) (step : σ → α → σ)
    (hstep : ∀ s a, read (step s a) = read s) (list : List α) (s : σ) :
    read (list.foldl step s) = read s := by
  induction list generalizing s with
  | nil => rfl
  | cons a list ih => exact (ih (step s a)).trans (hstep s a)

namespace DatabaseCache

/-- One row of `qsos` is counted and gets its owner. -/
def ownRow (cache : DatabaseCache) (entry : Int64 × List (String × SqlValue)) : DatabaseCache :=
  let logId := QsoRow.logId { id := entry.1, columns := entry.2 }
  { cache with
    owners := cache.owners.insert entry.1.toInt logId
    counts := cache.counts.insert logId (cache.counts[logId]?.getD 0 + 1) }

/-- A log without contacts needs no load. -/
def emptyLog (cache : DatabaseCache) (logId : Int64) : DatabaseCache :=
  if cache.counts[logId]?.getD 0 = 0 then
    { cache with contacts := cache.contacts.insert logId {} }
  else cache

def loadLog (cache : DatabaseCache) (entry : Int64 × Log) : DatabaseCache :=
  publishLog cache entry.2 false

def loadedSerials (fields : KeyMap Int) : KeyMap Int :=
  fields.toList.foldl (fun next entry =>
    let field := toAsciiUppercase (trim entry.1)
    next.insert field (max (next[field]?.getD 0) entry.2)) ∅

variable (connection : Connection)

def loadedLogs : DatabaseCache := connection.logs.toList.foldl loadLog {}

def loadedRows : DatabaseCache := connection.qsos.toList.foldl ownRow (loadedLogs connection)

theorem load_eq : load connection =
    { (loadedRows connection).logs.keys.foldl emptyLog (loadedRows connection) with
      nextSerial := connection.serials.map fun _ fields => loadedSerials fields } := rfl

theorem contacts_loadedRows : (loadedRows connection).contacts = ∅ := by
  rw [loadedRows, foldl_same (·.contacts) ownRow fun _ _ => rfl, loadedLogs,
    foldl_same (·.contacts) loadLog fun _ _ => rfl]

theorem log_loadedRows (hids : ∀ (id : Int64) (log : Log), connection.logs[id]? = some log →
    log.id = id) (id : Int64) :
    (loadedRows connection).logs[id]?.map (·.log) = connection.logs[id]? := by
  have hfold := foldl_observe (nodup_keys_toList connection.logs)
    loadLog (fun (cache : DatabaseCache) (id : Int64) => cache.logs[id]?.map (·.log))
      (fun _ log => log)
    (fun cache entry hmem id => by
      rw [loadLog, log_publishLog, hids _ _ (ExtTreeMap.mem_toList_iff_getElem?_eq_some.mp hmem)])
    {} id
  rw [loadedRows, foldl_same (·.logs) ownRow fun _ _ => rfl, loadedLogs]
  refine hfold.trans ?_
  rw [get?_toList]
  cases connection.logs[id]? <;> simp

theorem owner_loadedRows (id : Int64) : (loadedRows connection).owners[id.toInt]? =
    connection.qsos[id]?.map fun columns => QsoRow.logId { id := id, columns := columns } := by
  have hfold := foldl_observe (nodup_keys_toList connection.qsos) ownRow
    (fun (cache : DatabaseCache) (id : Int64) => cache.owners[id.toInt]?)
    (fun id columns => QsoRow.logId { id := id, columns := columns })
    (fun cache entry _ id => getElem?_insert_toInt cache.owners entry.1 id _)
    (loadedLogs connection) id
  have hlogs : (loadedLogs connection).owners = ∅ := by
    rw [loadedLogs, foldl_same (·.owners) loadLog fun _ _ => rfl]
  rw [loadedRows]
  refine hfold.trans ?_
  rw [get?_toList, hlogs, ExtTreeMap.getElem?_empty, Option.or_none]

/-- A log is counted for each of its rows. -/
theorem count_loadedRows (logId : Int64) :
    (loadedRows connection).counts[logId]?.getD 0 =
      ExtTreeMap.size (connection.qsos.ofLog logId) := by
  have hlogs : (loadedLogs connection).counts = ∅ := by
    rw [loadedLogs, foldl_same (·.counts) loadLog fun _ _ => rfl]
  have hfold : ∀ (entries : List (Int64 × List (String × SqlValue))) (cache : DatabaseCache),
      (entries.foldl ownRow cache).counts[logId]?.getD 0 = cache.counts[logId]?.getD 0 +
        (entries.filter fun entry =>
          QsoRow.logId { id := entry.1, columns := entry.2 } = logId).length := by
    intro entries
    induction entries with
    | nil => exact fun _ => rfl
    | cons entry entries ih =>
        intro cache
        rw [List.foldl_cons, ih, ownRow, getElem?_insert_key, List.filter_cons]
        by_cases heq : QsoRow.logId { id := entry.1, columns := entry.2 } = logId
        · rw [if_pos heq, if_pos (decide_eq_true heq), heq, Option.getD_some, List.length_cons]
          omega
        · rw [if_neg heq, if_neg (by simpa using heq)]
  rw [loadedRows, hfold, hlogs, ExtTreeMap.getElem?_empty, Option.getD_none, Nat.zero_add,
    ← ExtTreeMap.length_toList, QsoTable.ofLog, ExtTreeMap.toList_filter]

/-- The logs without contacts change neither logs, owners, counts nor revisions. -/
theorem foldl_emptyLog {τ : Type} (read : DatabaseCache → τ)
    (hread : ∀ (cache : DatabaseCache) contacts nextSerial,
      read { cache with contacts := contacts, nextSerial := nextSerial } = read cache) :
    read (load connection) = read (loadedRows connection) := by
  rw [load_eq]
  refine (hread ((loadedRows connection).logs.keys.foldl emptyLog (loadedRows connection))
    _ _).trans ?_
  refine foldl_same read emptyLog (fun cache logId => ?_) _ _
  rw [emptyLog]
  split
  · exact hread cache _ _
  · rfl

theorem logs_load : (load connection).logs = (loadedRows connection).logs :=
  foldl_emptyLog connection (·.logs) fun _ _ _ => rfl

theorem owners_load : (load connection).owners = (loadedRows connection).owners :=
  foldl_emptyLog connection (·.owners) fun _ _ _ => rfl

theorem counts_load : (load connection).counts = (loadedRows connection).counts :=
  foldl_emptyLog connection (·.counts) fun _ _ _ => rfl

theorem nextRevision_load :
    (load connection).nextRevision = (loadedRows connection).nextRevision :=
  foldl_emptyLog connection (·.nextRevision) fun _ _ _ => rfl

/-- Only logs without contacts are loaded. -/
theorem contacts_load {logId : Int64} {cached : CachedContacts}
    (h : (load connection).contacts[logId]? = some cached) :
    cached = {} ∧ ((loadedRows connection).counts[logId]?).getD 0 = 0 := by
  have hfold : ∀ (keys : List Int64) (cache : DatabaseCache),
      (cache.contacts[logId]? = some cached → cached = {} ∧ cache.counts[logId]?.getD 0 = 0) →
      (keys.foldl emptyLog cache).contacts[logId]? = some cached →
        cached = {} ∧ cache.counts[logId]?.getD 0 = 0 := by
    intro keys
    induction keys with
    | nil => exact fun _ hcache => hcache
    | cons key keys ih =>
        intro cache hcache hget
        have hcounts : (emptyLog cache key).counts = cache.counts := by
          rw [emptyLog]
          split <;> rfl
        rw [← hcounts]
        refine ih (emptyLog cache key) (fun hstep => ?_) hget
        rw [hcounts]
        rw [emptyLog] at hstep
        split at hstep
        · next hzero =>
            rw [getElem?_insert_key] at hstep
            split at hstep
            · next heq => exact ⟨(Option.some.inj hstep).symm, heq ▸ hzero⟩
            · exact hcache hstep
        · exact hcache hstep
  rw [load_eq] at h
  refine hfold _ _ (fun hstart => ?_) h
  rw [contacts_loadedRows, ExtTreeMap.getElem?_empty] at hstart
  cases hstart

end DatabaseCache

variable [Platform]

namespace Worker.Coherent

variable {worker : Worker}

/-- The rows of a log that has none. -/
theorem contacts_ofLog_eq_nil {connection : Connection} {logId : Int64}
    (hnone : ∀ (id : Int64) columns, connection.qsos[id]? = some columns →
      QsoRow.logId { id := id, columns := columns } ≠ logId) :
    (connection.qsos.ofLog logId).contacts = [] := by
  apply List.eq_nil_iff_forall_not_mem.mpr
  intro contact hmem
  obtain ⟨id, columns, hget, -⟩ := (QsoTable.mem_contacts _).mp hmem
  obtain ⟨hget, hlog⟩ := (QsoTable.ofLog_eq_some _).mp hget
  exact hnone id columns hget hlog

theorem openDatabase {connection : Connection} (h : connection.WellFormed) :
    (Worker.openDatabase connection).Coherent where
  file := h
  logs id := (congrArg (fun logs => logs[id]?.map (·.log))
    (DatabaseCache.logs_load connection)).trans
    (DatabaseCache.log_loadedRows connection h.logIds id)
  owners id := (congrArg (·[id.toInt]?) (DatabaseCache.owners_load connection)).trans
    (DatabaseCache.owner_loadedRows connection id)
  contacts logId cached hget := by
    obtain ⟨rfl, hzero⟩ := DatabaseCache.contacts_load connection hget
    rw [DatabaseCache.count_loadedRows, ← ExtTreeMap.length_toList] at hzero
    have hnil : (connection.qsos.ofLog logId).contacts = [] := by
      rw [QsoTable.contacts, List.length_eq_zero_iff.mp hzero, List.map_nil]
    exact hnil.symm ▸ CachedContacts.Holds.empty

theorem createLog (h : worker.Coherent) (name contestId stationCallsign : String)
    (contestParams : Value) (draws : List Int64) :
    (worker.createLog name contestId stationCallsign contestParams draws).Coherent := by
  rw [Worker.createLog]
  split
  · exact h
  · next id hfresh =>
      have hnone := freshRowid_not_mem hfresh
      refine ⟨⟨fun other log hget => ?_, fun row columns hget => ?_⟩, fun other => ?_, h.owners,
        fun logId cached hget => ?_⟩
      · rw [getElem?_insert_key] at hget
        split at hget
        · next heq => exact Option.some.inj hget ▸ heq
        · exact h.file.logIds other log hget
      · rw [getElem?_insert_key]
        split
        · rfl
        · exact h.file.rowLogs row columns hget
      · rw [DatabaseCache.log_publishLog, getElem?_insert_key, h.logs]
      · have hinsert : (worker.cache.contacts.insert id ({} : CachedContacts))[logId]? =
            some cached := hget
        rw [getElem?_insert_key] at hinsert
        split at hinsert
        · next heq =>
            subst heq
            obtain rfl := Option.some.inj hinsert
            refine (contacts_ofLog_eq_nil ?_).symm ▸ CachedContacts.Holds.empty
            intro row columns hrow hlog
            have hsome := h.file.rowLogs row columns hrow
            rw [hlog, hnone] at hsome
            cases hsome
        · exact h.contacts logId cached hinsert

theorem updateLog (h : worker.Coherent) (id : Int64) (name stationCallsign : String)
    (contestParams : Value) :
    (worker.updateLog id name stationCallsign contestParams).Coherent := by
  rw [Worker.updateLog]
  split
  · exact h
  · next log hlog =>
      have hid := h.file.logIds id log hlog
      refine ⟨⟨fun other found hget => ?_, fun row columns hget => ?_⟩, fun other => ?_, h.owners,
        h.contacts⟩
      · rw [getElem?_insert_key] at hget
        split at hget
        · next heq => exact Option.some.inj hget ▸ hid.trans heq
        · exact h.file.logIds other found hget
      · rw [getElem?_insert_key]
        split
        · rfl
        · exact h.file.rowLogs row columns hget
      · rw [DatabaseCache.log_publishLog, getElem?_insert_key, h.logs, hid]

theorem deleteLog (h : worker.Coherent) (id : Int64) : (worker.deleteLog id).Coherent := by
  rw [Worker.deleteLog]
  split
  · refine ⟨⟨fun other log hget => ?_, fun row columns hget => ?_⟩, fun other => ?_, fun row => ?_,
      fun logId cached hget => ?_⟩
    · rw [getElem?_erase_key] at hget
      split at hget
      · cases hget
      · exact h.file.logIds other log hget
    · rw [ExtTreeMap.getElem?_filter', Option.filter_eq_some_iff] at hget
      rw [getElem?_erase_key, if_neg (Ne.symm (of_decide_eq_true hget.2))]
      exact h.file.rowLogs row columns hget.1
    · rw [DatabaseCache.removeLog, getElem?_erase_key, getElem?_erase_key]
      split
      · rfl
      · exact h.logs other
    · rw [DatabaseCache.removeLog, ExtTreeMap.getElem?_filter', ExtTreeMap.getElem?_filter',
        h.owners row]
      cases worker.connection.qsos[row]? with
      | none => rfl
      | some columns =>
          rw [Option.map_some, Option.filter_some, Option.filter_some]
          split <;> rfl
    · rw [DatabaseCache.removeLog, getElem?_erase_key] at hget
      split at hget
      · cases hget
      · next hne =>
          rw [QsoTable.ofLog_filter_of_ne _ hne]
          exact h.contacts logId cached hget
  · exact h

end Worker.Coherent

end Log73
