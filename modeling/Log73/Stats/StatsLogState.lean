import Log73.Library.Collating
import Log73.Library.Runs
import Log73.LogCache.Loaded
import Mathlib.Algebra.Field.Rat

/-!
The statistics of a log (`stats.rs`): the entries kept in order of time, what the log cache tells
the tracker of, and the rates of a snapshot, as exact numbers. What a panic leaves is `none`.
-/

namespace Log73

open Collating (searchIndex)

structure RateStat where
  qsoCount : Nat
  ratePerHour : Option ℚ

structure LogWindowStats where
  last10Contacts : RateStat
  last100Contacts : RateStat
  movingHour : RateStat
  clockHour : RateStat

structure LogStatsSnapshot where
  generatedAt : Int
  overall : LogWindowStats
  byOperator : KeyMap LogWindowStats

structure StatsEntry where
  id : Int
  epoch : Int
  operator : String
  deriving DecidableEq

namespace StatsEntry

/-- `stats_entry_cmp` compares times, then ids. -/
def orderKey (entry : StatsEntry) : Int ×ₗ Int := toLex (entry.epoch, entry.id)

end StatsEntry

def statsEntry [Platform] (contact : Contact) : Option StatsEntry :=
  (contactId contact).bind fun id =>
    ((contactAdifValue contact "QSO_DATE_TIME_ON").bind Value.asI64).map fun epoch =>
      { id, epoch
        operator := toUppercase
          (trim (((contactAdifValue contact "OPERATOR").bind Value.asStr).getD "")) }

/-- `a - b` on `i64`: a debug build panics where a release build keeps the low bits. -/
def subI64 (build : Build) (a b : Int) : Option Int :=
  if i64Min ≤ a - b ∧ a - b ≤ i64Max then some (a - b)
  else
    match build with
    | .debug => none
    | .release => some (if i64Max < a - b then a - b - (u64Max + 1) else a - b + (u64Max + 1))

def hourSeconds : Int := 3600

section Windows

variable (build : Build)

def contactWindowRate (entries : List StatsEntry) (size : Nat) : Option RateStat :=
  let count := min entries.length size
  if count = 0 then some { qsoCount := 0, ratePerHour := none }
  else if count = 1 then some { qsoCount := 1, ratePerHour := none }
  else
    let window := entries.drop (entries.length - count)
    (subI64 build ((window.getLast?.map StatsEntry.epoch).getD 0)
        ((window.head?.map StatsEntry.epoch).getD 0)).map fun (spanSeconds : Int) =>
      { qsoCount := count
        ratePerHour :=
          if 0 < spanSeconds then some ((count - 1 : ℚ) * hourSeconds / spanSeconds) else none }

def entriesInTimeWindow (entries : List StatsEntry) (start finish : Int) : Nat :=
  (entries.filter fun entry => start ≤ entry.epoch ∧ entry.epoch ≤ finish).length

def movingHourRate (entries : List StatsEntry) (now : Int) : Option RateStat :=
  (subI64 build now hourSeconds).map fun (start : Int) =>
    let count := entriesInTimeWindow entries start now
    { qsoCount := count, ratePerHour := some count }

def clockHourRate (entries : List StatsEntry) (now : Int) : Option RateStat :=
  let elapsedSeconds := now % hourSeconds
  (subI64 build now elapsedSeconds).map fun (start : Int) =>
    let count := entriesInTimeWindow entries start now
    { qsoCount := count
      ratePerHour :=
        if 0 < elapsedSeconds then some ((count : ℚ) * hourSeconds / elapsedSeconds) else none }

def windowStats (entries : List StatsEntry) (now : Int) : Option LogWindowStats :=
  let eligibleEntries := entries.take (searchIndex (fun entry => entry.epoch ≤ now) entries)
  (contactWindowRate build eligibleEntries 10).bind fun last10Contacts =>
    (contactWindowRate build eligibleEntries 100).bind fun last100Contacts =>
      (movingHourRate build eligibleEntries now).bind fun movingHour =>
        (clockHourRate build eligibleEntries now).map fun clockHour =>
          { last10Contacts, last100Contacts, movingHour, clockHour }

end Windows

structure StatsLogState where
  contacts : List StatsEntry := []

namespace StatsLogState

variable (state : StatsLogState)

def fromContacts [Platform] (contacts : List Contact) : StatsLogState where
  contacts := (contacts.filterMap statsEntry).mergeSort fun left right =>
    left.orderKey ≤ right.orderKey

def removeContact (id : Int) : StatsLogState where
  contacts := state.contacts.eraseP (·.id = id)

/-- The place that the binary search finds for an entry that is not there. -/
def upsertContact (entry : StatsEntry) : StatsLogState :=
  let removed := state.removeContact entry.id
  { contacts := removed.contacts.insertIdx
      (searchIndex (fun existing => existing.orderKey < entry.orderKey) removed.contacts) entry }

/-- The entries of each operator, in their order. -/
def grouped : KeyMap (List StatsEntry) :=
  state.contacts.foldl (fun grouped entry =>
    if entry.operator.isEmpty then grouped
    else grouped.insert entry.operator ((grouped[entry.operator]?).getD [] ++ [entry])) ∅

def snapshot (build : Build) (now : Int) : Option LogStatsSnapshot :=
  (windowStats build state.contacts now).bind fun overall =>
    let windows := state.grouped.map fun _ entries => windowStats build entries now
    if windows.toList.all fun entry => entry.2.isSome then
      some { generatedAt := now, overall, byOperator := windows.filterMap fun _ window => window }
    else none

end StatsLogState

/-- A loaded log with its entry in the tracker of statistics. -/
structure TrackedLog where
  loaded : LoadedLog
  stats : StatsLogState

/-- The contacts of a log as the database has them: each with an id of its own. -/
structure StoredContacts where
  contacts : List Contact
  identified : ∀ contact ∈ contacts, (contactId contact).isSome
  distinct : (contacts.map contactId).Nodup

inductive StatsEvent where
  | load (module : Arc ContestScoringModule) (stored : StoredContacts)
  | upsert (committed : List Contact)
  | delete (id : Int)

namespace StatsTracker

variable [Platform]

def onLogLoaded (contacts : List Contact) : StatsLogState := .fromContacts contacts

def onContactsUpserted (state : StatsLogState) (committedContacts : List Contact)
    (previousContacts : List (Option Contact)) : StatsLogState :=
  let removed := (previousContacts.filterMap fun previous => previous.bind contactId).foldl
    StatsLogState.removeContact state
  (committedContacts.filterMap statsEntry).foldl StatsLogState.upsertContact removed

def onContactDeleted (state : StatsLogState) (deletedContact : Contact) : StatsLogState :=
  (contactId deletedContact).elim state state.removeContact

end StatsTracker

namespace TrackedLog

variable [Platform] (database : DxccDatabase) (log : TrackedLog)

def load (module : Arc ContestScoringModule) (revision : Nat) (stored : StoredContacts) :
    TrackedLog where
  loaded := .load database module revision stored.contacts
  stats := StatsTracker.onLogLoaded (sortContactsDesc (enrichMissingDxcc database stored.contacts))

def nextRevision : Nat := log.loaded.cached.revision + 1

def step : StatsEvent → TrackedLog
  | .load module stored => load database module log.nextRevision stored
  | .upsert committed =>
      { loaded := (log.loaded.upsert log.nextRevision committed).log
        stats := StatsTracker.onContactsUpserted log.stats (finalContacts committed)
          (log.loaded.previousContacts (finalContacts committed)) }
  | .delete id =>
      { loaded := (log.loaded.delete log.nextRevision id).log
        stats := (log.loaded.cached.contacts.find? (contactId · == some id)).elim log.stats
          (StatsTracker.onContactDeleted log.stats) }

def afterEvents (module : Arc ContestScoringModule) (revision : Nat) (stored : StoredContacts)
    (events : List StatsEvent) : TrackedLog :=
  Runs.run (step database) (load database module revision stored) events

end TrackedLog

end Log73
