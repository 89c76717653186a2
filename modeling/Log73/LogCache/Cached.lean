import Mathlib.Data.List.TakeWhile
import Log73.Library.Indexing
import Log73.Scoring.Tracker

/-!
`CachedLog` of `log_cache.rs`: the contacts of one log, newest first, with an index
by callsign and the position of each id.
-/

namespace Log73

open Std

def sortContactsDesc (contacts : List Contact) : List Contact :=
  Indexing.sortDescending contactOrderKey contacts

def mergeContact (contacts : List Contact) (contact : Contact) : List Contact :=
  match contactId contact with
  | none => contacts ++ [contact]
  | some id =>
      match contacts.findIdx? (contactId · == some id) with
      | some index => contacts.set index contact
      | none => contacts ++ [contact]

/-- The contacts of which no later one carries the id. -/
def finalContacts : List Contact → List Contact
  | [] => []
  | contact :: contacts =>
      match contactId contact with
      | none => finalContacts contacts
      | some id =>
          if (contacts.filterMap contactId).contains id then finalContacts contacts
          else contact :: finalContacts contacts

/-- The first contact for each id, without the excluded ids. -/
def dedupeContacts (contacts : List Contact) (excludedIds : List Int) : List Contact :=
  match contacts with
  | [] => []
  | contact :: contacts =>
      match contactId contact with
      | none => dedupeContacts contacts excludedIds
      | some id =>
          if excludedIds.contains id then dedupeContacts contacts excludedIds
          else contact :: dedupeContacts contacts (id :: excludedIds)

variable [Platform]

def contactCallsign (contact : Contact) : Option String :=
  let callsign := toUppercase (trim (((contactAdifValue contact "CALL").bind Value.asStr).getD ""))
  if callsign.isEmpty then none else some callsign

structure CachedLog where
  revision : Nat
  module : Arc ContestScoringModule
  contacts : List Contact
  callsignIndex : KeyMap (List Int)
  contactPositions : ExtTreeMap Int Nat

/-- A contact with a callsign is appended to the ids of that callsign. -/
def addContactToCallsignIndex (callsignIndex : KeyMap (List Int)) (contact : Contact) :
    KeyMap (List Int) :=
  Indexing.addToGroup contactId contactCallsign callsignIndex contact

namespace CachedLog

variable (log : CachedLog)

/-- One loop of the source fills both maps. -/
def rebuildIndexes : CachedLog :=
  { log with
    callsignIndex := log.contacts.foldl addContactToCallsignIndex ∅
    contactPositions :=
      (∅ : ExtTreeMap Int Nat).insertMany (Indexing.positions contactId log.contacts 0) }

def new (module : Arc ContestScoringModule) (contacts : List Contact) : CachedLog :=
  rebuildIndexes
    { revision := 0, module := module, contacts := contacts, callsignIndex := ∅
      contactPositions := ∅ }

def contactById (id : Int) : Option Contact :=
  log.contactPositions[id]?.bind (log.contacts[·]?)

def hasContactId (contact : Contact) : Bool :=
  (contactId contact).any log.contactPositions.contains

/-- Before every contact, after every contact, or at the point of partition. -/
def sortedInsertPosition (contact : Contact) : Nat :=
  match log.contacts.head?, log.contacts.getLast? with
  | some first, some last =>
      if contactOrderKey first < contactOrderKey contact then 0
      else if contactOrderKey contact ≤ contactOrderKey last then log.contacts.length
      else (log.contacts.takeWhile fun existing =>
        contactOrderKey contact ≤ contactOrderKey existing).length
  | _, _ => 0

def refreshContactPositionsFrom (start : Nat) : CachedLog :=
  { log with
    contactPositions :=
      log.contactPositions.insertMany (Indexing.positions contactId log.contacts start) }

def insertNewContactSorted (contact : Contact) : CachedLog :=
  let index := log.sortedInsertPosition contact
  let log := { log with contacts := log.contacts.insertIdx index contact }
  let log := log.refreshContactPositionsFrom index
  { log with callsignIndex := addContactToCallsignIndex log.callsignIndex contact }

/-- Insert or merge the next committed contact; a merge leaves the indexes dirty. -/
def insertOrMerge (step : CachedLog × Bool) (contact : Contact) : CachedLog × Bool :=
  if step.2 || step.1.hasContactId contact then
    ({ step.1 with contacts := mergeContact step.1.contacts contact }, true)
  else (step.1.insertNewContactSorted contact, false)

/-- Put the committed contacts into the slice; the flag says whether the indexes are dirty. -/
def applyUpsertedContacts (committed : List Contact) (previous : List (Option Contact)) :
    CachedLog × Bool :=
  if previous.any Option.isSome then
    ({ log with contacts := sortContactsDesc (committed.foldl mergeContact log.contacts) }, true)
  else
    let (log, dirty) := committed.foldl insertOrMerge (log, false)
    if dirty then ({ log with contacts := sortContactsDesc log.contacts }, true) else (log, false)

end CachedLog

end Log73
