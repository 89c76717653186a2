import Log73.Db.Tables
import Log73.LogCache.Loaded

/-!
One log of a running backend: its rows, its cache entry and the tracker entry, under
loads, upsert batches and deletions that follow one another. What holds of the cache
and of the account holds after every sequence of them.
-/

namespace Log73

open Std

variable [Platform]

structure LogSession where
  logId : Int64
  rows : QsoTable
  loaded : LoadedLog

inductive LogEvent where
  | load (module : Arc ContestScoringModule)
  | upsert (batch : List (Int64 × Contact))
  | delete (id : Int64)

/-- The rows a batch is written as; a contact that misses a column fails the whole batch. -/
def storedRows (database : DxccDatabase) (logId : Int64) (contestId : String)
    (batch : List (Int64 × Contact)) : Option (List QsoRow) :=
  batch.mapM fun entry =>
    storedRow entry.1 (preparedContact logId.toInt contestId (enrichContact database entry.2))

namespace LogSession

variable (database : DxccDatabase) (session : LogSession)

/-- The cache is empty, and the rows are loaded. -/
def start (logId : Int64) (rows : QsoTable) (module : Arc ContestScoringModule) : LogSession where
  logId := logId
  rows := rows
  loaded := .load database module 0 (sortContactsDesc rows.contacts)

def nextRevision : Nat := session.loaded.cached.revision + 1

/-- The rows a batch commits to this log. -/
def committedRows (batch : List (Int64 × Contact)) : Option (List QsoRow) :=
  storedRows database session.logId session.loaded.cached.module.value.rules.id batch

def step : LogEvent → LogSession
  | .load module =>
      { session with
        loaded := .load database module session.nextRevision
          (sortContactsDesc session.rows.contacts) }
  | .upsert batch =>
      match session.committedRows database batch with
      | none => session
      | some rows =>
          { session with
            rows := session.rows.write rows
            loaded := (session.loaded.upsert session.nextRevision (rows.map rowToContact)).log }
  | .delete id =>
      if session.rows.contains id then
        { session with
          rows := session.rows.erase id
          loaded := (session.loaded.delete session.nextRevision id.toInt).log }
      else session

def run (events : List LogEvent) : LogSession := events.foldl (step database) session

end LogSession

section Consistency

variable (database : DxccDatabase) (session : LogSession)

namespace LogSession

theorem load_consistent (module : Arc ContestScoringModule) (revision : Nat) (rows : QsoTable) :
    (LoadedLog.load database module revision
      (sortContactsDesc rows.contacts)).cached.Consistent := by
  refine LoadedLog.load_consistent database module revision (fun contact hmem => ?_) ?_
  · exact rows.contacts_identified contact ((sortContactsDesc_perm _).mem_iff.mp hmem)
  · exact ((sortContactsDesc_perm _).map contactId).nodup_iff.mpr rows.contacts_nodup

theorem step_consistent (event : LogEvent) (h : session.loaded.cached.Consistent) :
    (session.step database event).loaded.cached.Consistent := by
  cases event with
  | load module => exact load_consistent database module _ session.rows
  | upsert batch =>
      rw [step]
      split
      · exact h
      · exact LoadedLog.upsert_consistent h _ _
  | delete id =>
      rw [step]
      split
      · exact LoadedLog.delete_consistent h _ _
      · exact h

theorem run_consistent (events : List LogEvent) (h : session.loaded.cached.Consistent) :
    (session.run database events).loaded.cached.Consistent := by
  induction events generalizing session with
  | nil => exact h
  | cons event events ih => exact ih _ (session.step_consistent database event h)

theorem start_consistent (logId : Int64) (rows : QsoTable) (module : Arc ContestScoringModule) :
    (LogSession.start database logId rows module).loaded.cached.Consistent :=
  load_consistent database module 0 rows

end LogSession

/-- After every sequence of loads, upserts and deletions the cached contacts are sorted newest
first with distinct ids, and both indexes hold exactly the entries of these contacts. -/
theorem cachedLog_consistent (logId : Int64) (rows : QsoTable) (module : Arc ContestScoringModule)
    (events : List LogEvent) :
    ((LogSession.start database logId rows module).run database events).loaded.cached.Consistent :=
  LogSession.run_consistent database _ events
    (LogSession.start_consistent database logId rows module)

end Consistency

end Log73
