import Mathlib.Data.String.Basic
import Mathlib.Order.OrderDual
import Log73.Db.Contacts
import Log73.Library.Tally

/-!
Canonical persisted data in memory, from `db/cache.rs`: the contacts of a log with an
index of their serials, and the cache of the whole database. A map keyed by a pair of
log and field is held as a map of maps.
-/

namespace Log73

open SortedAssoc Std

def jsonSerialValue : Value → Option Int
  | .number n => n.asI64
  | .string s => parseI64 (trim s)
  | _ => none

/-- How often each serial occurs, overall and by band. -/
structure SerialValues where
  global : ExtTreeMap Int Nat := ∅
  bands : KeyMap (ExtTreeMap Int Nat) := ∅

def updateCount (values : ExtTreeMap Int Nat) (value : Int) (insert : Bool) : ExtTreeMap Int Nat :=
  if insert then Tally.increment values value else Tally.decrement values value

/-- One serial of one contact enters or leaves the index. -/
def updateSerial (serials : KeyMap SerialValues) (field band : String) (value : Int)
    (insert : Bool) : KeyMap SerialValues :=
  let values := serials[field]?.getD {}
  let global := updateCount values.global value insert
  let bandValues := updateCount (values.bands[band]?.getD ∅) value insert
  let bands :=
    if bandValues.isEmpty then values.bands.erase band else values.bands.insert band bandValues
  if global.isEmpty then serials.erase field
  else serials.insert field { global := global, bands := bands }

def contactBand (contact : Contact) : String :=
  toAsciiLowercase (((contactAdifValue contact "BAND").bind Value.asStr).getD "")

def updateSerials (serials : KeyMap SerialValues) (contact : Contact) (insert : Bool) :
    KeyMap SerialValues :=
  ((contactAdif contact).getD []).foldl (fun serials entry =>
    match jsonSerialValue entry.2 with
    | none => serials
    | some value => updateSerial serials entry.1 (contactBand contact) value insert) serials

/-- The contacts of one log, newest first in `ordered`. -/
structure CachedContacts where
  ordered : List ((Int ×ₗ Int)ᵒᵈ × Contact) := []
  byId : ExtTreeMap Int Contact := ∅
  serials : KeyMap SerialValues := ∅

namespace CachedContacts

variable (cached : CachedContacts)

def toVec : List Contact := cached.ordered.map Prod.snd

def contact (id : Int) : Option Contact := cached.byId[id]?

def serialMax (field : String) (band : Option String) : Option Int :=
  cached.serials[toAsciiUppercase (trim field)]?.bind fun values =>
    match band with
    | none => values.global.maxKey?
    | some band => values.bands[toAsciiLowercase band]?.bind (·.maxKey?)

def remove (id : Int) : CachedContacts :=
  match cached.byId[id]? with
  | none => cached
  | some contact =>
      { ordered := erase cached.ordered (OrderDual.toDual (contactOrderKey contact))
        byId := cached.byId.erase id
        serials := updateSerials cached.serials contact false }

/-- A persisted contact has an id. -/
def upsert (contact : Contact) : CachedContacts :=
  match contactId contact with
  | none => cached
  | some id =>
      let cached := cached.remove id
      { ordered := insert cached.ordered (OrderDual.toDual (contactOrderKey contact)) contact
        byId := cached.byId.insert id contact
        serials := updateSerials cached.serials contact true }

def new (contacts : List Contact) : CachedContacts := contacts.foldl upsert {}

end CachedContacts

structure Log where
  id : Int64
  name : String
  contestId : String
  stationCallsign : String
  contestParams : Value

/-- A log with the revision of its last change. -/
structure RevisedLog where
  log : Log
  revision : Nat

structure DatabaseCache where
  logs : ExtTreeMap Int64 RevisedLog := ∅
  owners : ExtTreeMap Int Int64 := ∅
  counts : ExtTreeMap Int64 Nat := ∅
  contacts : ExtTreeMap Int64 CachedContacts := ∅
  nextSerial : ExtTreeMap Int64 (KeyMap Int) := ∅
  nextRevision : Nat := 0

structure LogSnapshot where
  log : Log
  revision : Nat
  contacts : CachedContacts

namespace DatabaseCache

variable (cache : DatabaseCache)

def bumpRevision (logId : Int64) : DatabaseCache :=
  { cache with
    logs := cache.logs[logId]?.elim cache.logs fun entry =>
      cache.logs.insert logId { entry with revision := cache.nextRevision + 1 }
    nextRevision := cache.nextRevision + 1 }

def publishLog (log : Log) (new : Bool) : DatabaseCache :=
  let entry := cache.logs[log.id]?.elim { log := log, revision := 0 } fun entry =>
    { entry with log := log }
  let cache := bumpRevision { cache with logs := cache.logs.insert log.id entry } log.id
  if new then
    { cache with
      counts := cache.counts.insert log.id 0
      contacts := cache.contacts.insert log.id {} }
  else cache

def removeLog (id : Int64) : DatabaseCache :=
  { cache with
    logs := cache.logs.erase id
    contacts := cache.contacts.erase id
    counts := cache.counts.erase id
    owners := cache.owners.filter fun _ logId => logId ≠ id
    nextSerial := cache.nextSerial.erase id }

def snapshot (id : Int64) : Option LogSnapshot :=
  cache.logs[id]?.bind fun entry =>
    cache.contacts[id]?.map fun contacts =>
      { log := entry.log, revision := entry.revision, contacts := contacts }

def nextSerialFor (logId : Int64) (field : String) : Option Int :=
  cache.nextSerial[logId]?.bind (·[field]?)

end DatabaseCache

end Log73
