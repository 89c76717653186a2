import Log73.Db.Restart

/-!
Serial reservation over the life of a database: commands of the worker and restarts in
any order, with a record of the serials that were handed out. The file and the cache
both stay ahead of the record, and the cache agrees with the file on the contacts.
-/

namespace Log73

open TreeMap
open Std (ExtTreeMap LawfulEqOrd ReflCmp)

variable [Platform]

/-- The commands on logs, contacts and serials; a restart comes from outside. -/
inductive DbCommand where
  | createLog (name contestId stationCallsign : String) (contestParams : Value)
      (draws : List Int64)
  | updateLog (id : Int64) (name stationCallsign : String) (contestParams : Value)
  | deleteLog (id : Int64)
  | loadContacts (logId : Int64)
  | upsertContacts (logId : Int64) (contacts : List Contact) (draws : List Int64)
  | allocateSerial (logId : Int64) (fieldAdif : String)
  | deleteContact (id : Int64)
  | restart

def Worker.execute (worker : Worker) : DbCommand → Worker
  | .createLog name contestId stationCallsign contestParams draws =>
      worker.createLog name contestId stationCallsign contestParams draws
  | .updateLog id name stationCallsign contestParams =>
      worker.updateLog id name stationCallsign contestParams
  | .deleteLog id => worker.deleteLog id
  | .loadContacts logId => worker.loadContacts logId
  | .upsertContacts logId contacts draws => (worker.writeContacts logId contacts draws).1
  | .allocateSerial logId fieldAdif => (worker.reserveSerial logId fieldAdif).1
  | .deleteContact id => (worker.removeContact id).1
  | .restart => worker.restart

/-- A database with the serials it handed out, newest first. The id of a deleted log may be
given to another log, whose serials start again. -/
structure SerialHistory where
  worker : Worker
  allocations : List SerialAllocation

namespace SerialHistory

def start (connection : Connection) : SerialHistory where
  worker := .openDatabase connection
  allocations := []

variable (history : SerialHistory)

def record : DbCommand → List SerialAllocation
  | .allocateSerial logId fieldAdif =>
      match (history.worker.reserveSerial logId fieldAdif).2 with
      | .ok allocation => allocation :: history.allocations
      | .error _ => history.allocations
  | .deleteLog id => history.allocations.filter fun allocation => allocation.logId ≠ id
  | _ => history.allocations

def step (command : DbCommand) : SerialHistory where
  worker := history.worker.execute command
  allocations := history.record command

def run (commands : List DbCommand) : SerialHistory := commands.foldl step history

/-- A serial of a log that was handed out, or that is in one of its contacts. -/
def Taken (logId : Int64) (field : String) (serial : Int) : Prop :=
  (∃ allocation ∈ history.allocations, allocation.logId = logId ∧
    normalizeAdifFieldName allocation.fieldAdif = normalizeAdifFieldName field ∧
    allocation.serial = serial) ∨
  ∃ contact ∈ dbContacts history.worker.connection logId,
    ∃ entry ∈ (contactAdif contact).getD [],
      normalizeAdifFieldName entry.1 = normalizeAdifFieldName field ∧
      jsonSerialValue entry.2 = some serial

/-- The next reservation hands out a new and greater serial, or fails and reserves nothing. -/
structure ReservesFresh (logId : Int64) (field : String) : Prop where
  fresh : ∀ allocation, (history.worker.reserveSerial logId field).2 = .ok allocation →
    allocation.logId = logId ∧
    normalizeAdifFieldName allocation.fieldAdif = normalizeAdifFieldName field ∧
    0 < allocation.serial ∧ allocation.serial ≤ i64Max ∧
    ∀ serial, history.Taken logId field serial → serial < allocation.serial
  exhausted : ∀ serial, history.Taken logId field serial → i64Max ≤ serial →
    ∃ error, (history.worker.reserveSerial logId field).2 = .error error
  unchanged : ∀ error, (history.worker.reserveSerial logId field).2 = .error error →
    (history.worker.reserveSerial logId field).1.connection = history.worker.connection ∧
    (history.worker.reserveSerial logId field).1.cache.nextSerial =
      history.worker.cache.nextSerial

end SerialHistory

/-- The next serials are greater than those handed out. -/
def Ahead (serials : ExtTreeMap Int64 (KeyMap Int)) (allocations : List SerialAllocation) : Prop :=
  ∀ allocation ∈ allocations, ∃ next,
    serials[allocation.logId]?.bind (·[normalizeAdifFieldName allocation.fieldAdif]?) = some next ∧
      allocation.serial < next

omit [Platform] in
theorem getElem?_putSerial (serials : ExtTreeMap Int64 (KeyMap Int)) (logId other : Int64)
    (field key : String) (next : Int) :
    (putSerial serials logId field next)[other]?.bind (·[key]?) =
      if logId = other ∧ field = key then some next else serials[other]?.bind (·[key]?) := by
  rw [putSerial, getElem?_insert_key]
  by_cases hlog : logId = other
  · subst hlog
    rw [if_pos rfl, Option.bind_some, ExtTreeMap.getElem?_insert]
    by_cases hfield : field = key
    · rw [if_pos (Std.compare_eq_iff_eq.mpr hfield), if_pos ⟨rfl, hfield⟩]
    · rw [if_neg fun h => hfield (Std.compare_eq_iff_eq.mp h), if_neg fun h => hfield h.2]
      cases serials[logId]? <;> simp
  · rw [if_neg hlog, if_neg fun h => hlog h.1]

/-- A reservation either fails and changes no table, or hands out a serial past the one that
is next in the cache and past every one of the contacts in memory. -/
theorem reserveSerial_cases (worker : Worker) (logId : Int64) (field : String)
    (sql : SqlFaults := {}) :
    (∃ error, worker.reserveSerial logId field sql = (worker, .error error) ∨
      worker.reserveSerial logId field sql = (worker.loadContacts logId, .error error)) ∨
    ∃ cached serial, (worker.loadContacts logId).cache.contacts[logId]? = some cached ∧
      0 < serial ∧ serial < i64Max ∧
      (∀ largest, cached.serialMax (normalizeAdifFieldName field) none = some largest →
        largest < serial) ∧
      (∀ next, worker.cache.nextSerialFor logId (normalizeAdifFieldName field) = some next →
        next ≤ serial) ∧
      worker.reserveSerial logId field sql =
        ({ connection := { worker.connection with
            serials := putSerial worker.connection.serials logId (normalizeAdifFieldName field)
              (serial + 1) }
           cache := { (worker.loadContacts logId).cache with
            nextSerial := putSerial worker.cache.nextSerial logId (normalizeAdifFieldName field)
              (serial + 1) } },
          .ok { logId := logId, fieldAdif := trim field, serial := serial }) := by
  rw [Worker.reserveSerial]
  dsimp only
  split
  · exact .inl ⟨_, .inl rfl⟩
  split
  · next loaded error htry => exact .inl ⟨error, .inl (by rw [Worker.tryLoadContacts_error htry])⟩
  next loaded htry =>
  obtain rfl := Worker.tryLoadContacts_ok htry
  split
  · exact .inl ⟨_, .inr rfl⟩
  next cached hcached =>
  split
  · exact .inl ⟨_, .inr rfl⟩
  next committedNext hcommitted =>
  split
  · next connection error hallocate =>
      exact .inl ⟨error, .inr (by rw [dbAllocateSerial_error hallocate])⟩
  next connection allocation hallocate =>
  obtain ⟨hlt, rfl, rfl⟩ := dbAllocateSerial_ok hallocate
  refine .inr ⟨cached, _, hcached, ?_, hlt, fun largest hlargest => ?_, fun next hnext => ?_, ?_⟩
  · omega
  · rw [normalizeAdifFieldName] at hlargest
    rw [hlargest, Option.elim_some] at hcommitted
    obtain ⟨-, rfl⟩ := checkedSucc_eq_some.mp hcommitted
    omega
  · have hcache : (worker.loadContacts logId).cache.nextSerialFor logId
        (toAsciiUppercase (trim field)) = some next := by
      rw [DatabaseCache.nextSerialFor, Worker.Coherent.nextSerial_loadContacts]
      exact hnext
    rw [hcache, Option.getD_some]
    omega
  · rw [Worker.Coherent.connection_loadContacts, Worker.Coherent.nextSerial_loadContacts]
    rfl

theorem Worker.Coherent.reserveSerial {worker : Worker} (h : worker.Coherent) (logId : Int64)
    (field : String) (sql : SqlFaults := {}) :
    (worker.reserveSerial logId field sql).1.Coherent := by
  obtain ⟨error, hsame | hloaded⟩ | ⟨cached, serial, -, -, -, -, -, hreserved⟩ :=
    reserveSerial_cases worker logId field sql
  · rw [hsame]
    exact h
  · rw [hloaded]
    exact h.loadContacts logId
  · rw [hreserved]
    have hload := h.loadContacts logId
    have hfile := Worker.Coherent.connection_loadContacts worker logId
    exact ⟨⟨h.file.logIds, h.file.rowLogs⟩, fun id => hfile ▸ hload.logs id,
      fun id => hfile ▸ hload.owners id, fun id cached hget =>
        hfile ▸ hload.contacts id cached hget⟩

theorem Worker.Coherent.execute {worker : Worker} (h : worker.Coherent) (command : DbCommand) :
    (worker.execute command).Coherent := by
  cases command with
  | createLog name contestId stationCallsign contestParams draws =>
      exact h.createLog name contestId stationCallsign contestParams draws
  | updateLog id name stationCallsign contestParams =>
      exact h.updateLog id name stationCallsign contestParams
  | deleteLog id => exact h.deleteLog id
  | loadContacts logId => exact h.loadContacts logId
  | upsertContacts logId contacts draws => exact h.writeContacts logId contacts draws
  | allocateSerial logId field => exact h.reserveSerial logId field
  | deleteContact id => exact h.removeContact id
  | restart => exact .openDatabase h.file

/-- What holds of a database at any time of its life. -/
structure SerialHistory.Sound (history : SerialHistory) : Prop where
  coherent : history.worker.Coherent
  persisted : Ahead history.worker.connection.serials history.allocations
  cached : Ahead history.worker.cache.nextSerial history.allocations

namespace Ahead

variable {serials : ExtTreeMap Int64 (KeyMap Int)} {allocations : List SerialAllocation}

omit [Platform] in
theorem mono {fewer : List SerialAllocation} (h : Ahead serials allocations)
    (hsub : ∀ allocation ∈ fewer, allocation ∈ allocations) : Ahead serials fewer :=
  fun allocation hmem => h allocation (hsub allocation hmem)

omit [Platform] in
theorem putSerial (h : Ahead serials allocations) {logId : Int64} {field : String} {serial : Int}
    (hpast : ∀ allocation ∈ allocations, allocation.logId = logId →
      normalizeAdifFieldName allocation.fieldAdif = normalizeAdifFieldName field →
        allocation.serial < serial) :
    Ahead (putSerial serials logId (normalizeAdifFieldName field) (serial + 1))
      ({ logId := logId, fieldAdif := trim field, serial := serial } :: allocations) := by
  intro allocation hmem
  rw [getElem?_putSerial]
  cases List.mem_cons.mp hmem with
  | inl heq =>
      subst heq
      exact ⟨serial + 1, if_pos ⟨rfl, (normalizeAdifFieldName_trim field).symm⟩,
        Int.lt_succ serial⟩
  | inr hin =>
      by_cases hpair : logId = allocation.logId ∧
          normalizeAdifFieldName field = normalizeAdifFieldName allocation.fieldAdif
      · have hlt := hpast allocation hin hpair.1.symm hpair.2.symm
        exact ⟨serial + 1, if_pos hpair, by omega⟩
      · rw [if_neg hpair]
        exact h allocation hin

omit [Platform] in
theorem erase (h : Ahead serials allocations) (id : Int64) :
    Ahead (serials.erase id) (allocations.filter fun allocation => allocation.logId ≠ id) := by
  intro allocation hmem
  obtain ⟨hin, hne⟩ := List.mem_filter.mp hmem
  rw [getElem?_erase_key, if_neg (Ne.symm (of_decide_eq_true hne))]
  exact h allocation hin

omit [Platform] in
/-- Loading keeps the greatest of the serials whose fields have one canonical name. -/
theorem loadedSerials_le (fields : KeyMap Int) {field : String} {next : Int}
    (hget : fields[field]? = some next) :
    ∃ loaded, (DatabaseCache.loadedSerials fields)[normalizeAdifFieldName field]? = some loaded ∧
      next ≤ loaded := by
  have hmem := ExtTreeMap.mem_toList_iff_getElem?_eq_some.mpr hget
  rw [DatabaseCache.loadedSerials]
  generalize fields.toList = entries at hmem
  have hgrow : ∀ (entries : List (String × Int)) (start : KeyMap Int) (key : String) (value : Int),
      start[key]? = some value → ∃ loaded, (entries.foldl (fun next entry =>
        next.insert (normalizeAdifFieldName entry.1)
          (max (next[normalizeAdifFieldName entry.1]?.getD 0) entry.2)) start)[key]? = some loaded ∧
        value ≤ loaded := by
    intro entries
    induction entries with
    | nil => exact fun start key value hstart => ⟨value, hstart, le_refl _⟩
    | cons entry entries ih =>
        intro start key value hstart
        by_cases hkey : normalizeAdifFieldName entry.1 = key
        · obtain ⟨loaded, hloaded, hle⟩ := ih (start.insert (normalizeAdifFieldName entry.1)
            (max (start[normalizeAdifFieldName entry.1]?.getD 0) entry.2)) key
            (max value entry.2) (by
              rw [ExtTreeMap.getElem?_insert, if_pos (Std.compare_eq_iff_eq.mpr hkey), hkey, hstart,
                Option.getD_some])
          exact ⟨loaded, hloaded, (le_max_left _ _).trans hle⟩
        · apply ih _ key value
          rw [ExtTreeMap.getElem?_insert, if_neg fun h => hkey (Std.compare_eq_iff_eq.mp h)]
          exact hstart
  generalize (∅ : KeyMap Int) = start
  induction entries generalizing start with
  | nil => cases hmem
  | cons entry entries ih =>
      cases List.mem_cons.mp hmem with
      | inl heq =>
          subst heq
          obtain ⟨loaded, hloaded, hle⟩ := hgrow entries
            (start.insert (normalizeAdifFieldName field)
              (max (start[normalizeAdifFieldName field]?.getD 0) next))
            (normalizeAdifFieldName field) _ ExtTreeMap.getElem?_insert_self
          exact ⟨loaded, hloaded, (le_max_right _ _).trans hle⟩
      | inr hin => exact ih hin _

omit [Platform] in
theorem load {connection : Connection} (h : Ahead connection.serials allocations) :
    Ahead (DatabaseCache.load connection).nextSerial allocations := by
  intro allocation hmem
  obtain ⟨next, hnext, hlt⟩ := h allocation hmem
  obtain ⟨fields, hfields, hfield⟩ := Option.bind_eq_some_iff.mp hnext
  obtain ⟨loaded, hloaded, hle⟩ := loadedSerials_le fields hfield
  rw [normalizeAdifFieldName_idem] at hloaded
  refine ⟨loaded, ?_, hlt.trans_le hle⟩
  rw [DatabaseCache.load_eq]
  simp only [ExtTreeMap.getElem?_map, hfields, Option.map_some, Option.bind_some]
  exact hloaded

end Ahead

namespace SerialHistory

variable {history : SerialHistory}

theorem start_sound {connection : Connection} (h : connection.WellFormed) :
    (start connection).Sound where
  coherent := .openDatabase h
  persisted := by simp [Ahead, start]
  cached := by simp [Ahead, start]

/-- What was handed out for a pair is smaller than what is next for it. -/
theorem Sound.lt_next (h : history.Sound) {allocation : SerialAllocation}
    (hmem : allocation ∈ history.allocations) {serial : Int}
    (hnext : ∀ next, history.worker.cache.nextSerialFor allocation.logId
      (normalizeAdifFieldName allocation.fieldAdif) = some next → next ≤ serial) :
    allocation.serial < serial := by
  obtain ⟨next, hget, hlt⟩ := h.cached allocation hmem
  have hle := hnext next hget
  omega

theorem Sound.reserve (h : history.Sound) (logId : Int64) (field : String) :
    (history.step (.allocateSerial logId field)).Sound := by
  refine ⟨h.coherent.reserveSerial logId field, ?_, ?_⟩
  all_goals
    simp only [step, Worker.execute, record]
    obtain ⟨error, hsame | hloaded⟩ | ⟨cached, serial, -, -, -, -, hnext, hreserved⟩ :=
      reserveSerial_cases history.worker logId field
  · rw [hsame]
    exact h.persisted
  · rw [hloaded, Worker.Coherent.connection_loadContacts]
    exact h.persisted
  · rw [hreserved]
    apply h.persisted.putSerial
    intro allocation hmem hlog hname
    exact h.lt_next hmem (by rwa [hlog, hname])
  · rw [hsame]
    exact h.cached
  · rw [hloaded, Worker.Coherent.nextSerial_loadContacts]
    exact h.cached
  · rw [hreserved]
    apply h.cached.putSerial
    intro allocation hmem hlog hname
    exact h.lt_next hmem (by rwa [hlog, hname])

/-- The serials of a write are those of the worker before it. -/
theorem serials_writeContacts {worker : Worker} (hcoherent : worker.Coherent) (logId : Int64)
    (contacts : List Contact) (draws : List Int64) :
    (worker.writeContacts logId contacts draws).1.connection.serials = worker.connection.serials ∧
    (worker.writeContacts logId contacts draws).1.cache.nextSerial = worker.cache.nextSerial := by
  have hload := Worker.Coherent.connection_loadContacts worker logId
  have hserials := Worker.Coherent.nextSerial_loadContacts worker logId
  have hpublish : ∀ (contacts : List Contact) (cache : DatabaseCache),
      (contacts.foldl (Worker.publishContact logId) cache).nextSerial = cache.nextSerial := by
    intro contacts cache
    refine foldl_same (·.nextSerial) (Worker.publishContact logId) (fun cache contact => ?_) _ _
    rw [Worker.publishContact]
    split <;> rfl
  cases hwrite : worker.writeContacts logId contacts draws with
  | mk worker' result =>
      cases result with
      | error error =>
          rcases Worker.writeContacts_error hwrite with rfl | rfl
          · exact ⟨rfl, rfl⟩
          · exact ⟨hload ▸ rfl, hserials⟩
      | ok mutation =>
          obtain ⟨written, hconnection, -, hcache, -⟩ := hcoherent.writeContacts_ok hwrite
          refine ⟨hconnection ▸ rfl, ?_⟩
          dsimp only
          rw [hcache]
          exact (hpublish _ _).trans hserials

theorem Sound.step (h : history.Sound) (command : DbCommand) : (history.step command).Sound := by
  cases command with
  | createLog name contestId stationCallsign contestParams draws =>
      refine ⟨h.coherent.createLog name contestId stationCallsign contestParams draws, ?_, ?_⟩
      all_goals simp only [SerialHistory.step, Worker.execute, Worker.createLog, record]
      · split
        · exact h.persisted
        · exact h.persisted
      · split
        · exact h.cached
        · exact h.cached
  | updateLog id name stationCallsign contestParams =>
      refine ⟨h.coherent.updateLog id name stationCallsign contestParams, ?_, ?_⟩
      all_goals simp only [SerialHistory.step, Worker.execute, Worker.updateLog, record]
      · split
        · exact h.persisted
        · exact h.persisted
      · split
        · exact h.cached
        · exact h.cached
  | deleteLog id =>
      refine ⟨h.coherent.deleteLog id, ?_, ?_⟩
      all_goals simp only [SerialHistory.step, Worker.execute, Worker.deleteLog, record]
      · split
        · exact h.persisted.erase id
        · exact h.persisted.mono fun _ => List.mem_of_mem_filter
      · split
        · exact h.cached.erase id
        · exact h.cached.mono fun _ => List.mem_of_mem_filter
  | loadContacts logId =>
      refine ⟨h.coherent.loadContacts logId, ?_, ?_⟩
      · exact Worker.Coherent.connection_loadContacts history.worker logId ▸ h.persisted
      · exact Worker.Coherent.nextSerial_loadContacts history.worker logId ▸ h.cached
  | upsertContacts logId contacts draws =>
      have hserials := serials_writeContacts h.coherent logId contacts draws
      exact ⟨h.coherent.writeContacts logId contacts draws, hserials.1 ▸ h.persisted,
        hserials.2 ▸ h.cached⟩
  | allocateSerial logId field => exact h.reserve logId field
  | deleteContact id =>
      refine ⟨h.coherent.removeContact id, ?_, ?_⟩
      all_goals simp only [SerialHistory.step, Worker.execute, Worker.removeContact, record]
      · split
        · exact h.persisted
        · exact h.persisted
      · split
        · exact h.cached
        · exact h.cached
  | restart => exact ⟨.openDatabase h.coherent.file, h.persisted, h.persisted.load⟩

theorem run_sound (commands : List DbCommand) (h : history.Sound) :
    (history.run commands).Sound := by
  induction commands generalizing history with
  | nil => exact h
  | cons command commands ih => exact ih (h.step command)

/-- A serial past what is next in the cache and past the contacts is past every one taken. -/
theorem Sound.taken_lt (h : history.Sound) {logId : Int64} {field : String}
    {cached : CachedContacts}
    (hcached : (history.worker.loadContacts logId).cache.contacts[logId]? = some cached)
    {serial : Int}
    (hlargest : ∀ largest, cached.serialMax (normalizeAdifFieldName field) none = some largest →
      largest < serial)
    (hnext : ∀ next, history.worker.cache.nextSerialFor logId (normalizeAdifFieldName field) =
      some next → next ≤ serial)
    {taken : Int} (htaken : history.Taken logId field taken) : taken < serial := by
  cases htaken with
  | inl hallocated =>
      obtain ⟨allocation, hmem, rfl, hname, rfl⟩ := hallocated
      rw [← hname] at hnext
      exact h.lt_next hmem hnext
  | inr hcontact =>
      obtain ⟨contact, hmem, ⟨key, value⟩, hentry, hname, hvalue⟩ := hcontact
      have hholds := (h.coherent.loadContacts logId).contacts logId cached hcached
      rw [Worker.Coherent.connection_loadContacts] at hholds
      have hrow := (dbContacts_perm _ _).mem_iff.mp hmem
      obtain ⟨id, columns, -, rfl⟩ := (QsoTable.mem_contacts _).mp hrow
      have hcanonical := normalizeAdifFieldName_of_mem_rowToContact hentry
      obtain ⟨largest, hlargest', hle⟩ := hholds.le_serialMax hrow hentry hcanonical hvalue
      rw [← hcanonical, hname] at hlargest'
      exact hle.trans_lt (hlargest largest hlargest')

theorem Sound.reservesFresh (h : history.Sound) (logId : Int64) (field : String) :
    history.ReservesFresh logId field := by
  obtain ⟨error, hfailed⟩ | ⟨cached, serial, hcached, hpos, hmax, hlargest, hnext, hreserved⟩ :=
    reserveSerial_cases history.worker logId field
  · have herror : (history.worker.reserveSerial logId field).2 = .error error := by
      cases hfailed with
      | inl hsame => rw [hsame]
      | inr hloaded => rw [hloaded]
    refine ⟨fun allocation hok => ?_, fun _ _ _ => ⟨error, herror⟩, fun _ _ => ?_⟩
    · rw [herror] at hok
      cases hok
    · cases hfailed with
      | inl hsame => rw [hsame]; exact ⟨rfl, rfl⟩
      | inr hloaded =>
          rw [hloaded]
          exact ⟨Worker.Coherent.connection_loadContacts _ _,
            Worker.Coherent.nextSerial_loadContacts _ _⟩
  · have hpast : ∀ taken, history.Taken logId field taken → taken < serial :=
      fun taken htaken => h.taken_lt hcached hlargest hnext htaken
    have hok : (history.worker.reserveSerial logId field).2 =
        .ok { logId := logId, fieldAdif := trim field, serial := serial } := by rw [hreserved]
    refine ⟨fun allocation hallocation => ?_, fun taken htaken hle => ?_, fun error herror => ?_⟩
    · obtain rfl := Except.ok.inj (hok.symm.trans hallocation)
      exact ⟨rfl, normalizeAdifFieldName_trim field, hpos, hmax.le, hpast⟩
    · have hlt := hpast taken htaken
      omega
    · cases hok.symm.trans herror

/-- Whatever happened to a database, the next serial of a field is greater than every serial of
it that was handed out or is in a contact of the log, or the reservation fails and reserves
nothing. -/
theorem reserveSerial_fresh (connection : Connection) (hfile : connection.WellFormed)
    (commands : List DbCommand) (logId : Int64) (field : String) :
    ((start connection).run commands).ReservesFresh logId field :=
  (run_sound commands (start_sound hfile)).reservesFresh logId field

end SerialHistory

end Log73

namespace Log73

attribute [local instance] asciiPlatform

/-- A new file. -/
theorem Connection.wellFormed_empty : Connection.WellFormed {} where
  logIds _ _ h := by simp at h
  rowLogs _ _ h := by simp at h

theorem SerialHistory.reserveSerial_fresh_newLog :
    ((start {}).run [.createLog "Test log" "test-contest" "N0CALL" .null [],
      .allocateSerial 1 "stx", .restart]).ReservesFresh 1 " STX " :=
  reserveSerial_fresh {} Connection.wellFormed_empty _ 1 " STX "

end Log73
