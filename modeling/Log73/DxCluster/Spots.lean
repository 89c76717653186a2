import Std.Data.ExtTreeSet
import Log73.Contact

/-!
The spot store of `dxcluster.rs`: spots by id with three indexes, one spot for a
callsign and a frequency within a tenth of a kilohertz.
-/

namespace Log73

open SortedAssoc
open Std (ExtTreeMap ExtTreeSet)

structure DxClusterRbnSpot where
  mode : String
  db : Int
  speed : Option Nat
  speedUnit : Option String
  info : String
  loc : Option String
  deriving DecidableEq

structure DxClusterSpot where
  id : Nat
  receivedAt : Nat
  source : String
  callDe : String
  callDx : String
  frequencyHz : Nat
  utc : Nat
  loc : Option String
  comment : Option String
  rbn : Option DxClusterRbnSpot
  deriving DecidableEq

/-- A spot as the cluster parser gives it. -/
structure Dx where
  callDe : String
  callDx : String
  freq : Nat
  utc : Nat
  loc : Option String
  comment : Option String

structure DxClusterDedupeKey where
  frequencyTenthKhz : Nat
  callDx : String
  deriving DecidableEq

structure DxClusterSpotStore where
  nextId : Nat := 0
  idsByTime : List Nat := []
  idsByCallsign : KeyMap (ExtTreeSet Nat) := ∅
  idsByDedupeKey : List (DxClusterDedupeKey × Nat) := []
  spotsById : ExtTreeMap Nat DxClusterSpot := ∅

/-- `saturating_add(1).max(1)` of an unsigned 64-bit counter. -/
def nextCounter (counter : Nat) : Nat := max (min (counter + 1) (2 ^ 64 - 1)) 1

section Store

variable [Platform]

def dedupeKey (frequencyHz : Nat) (callDx : String) : DxClusterDedupeKey where
  frequencyTenthKhz := (frequencyHz + 50) % 2 ^ 64 / 100
  callDx := toUppercase callDx

namespace DxClusterSpot

def key (spot : DxClusterSpot) : DxClusterDedupeKey := dedupeKey spot.frequencyHz spot.callDx

end DxClusterSpot

namespace DxClusterDedupeKey

/-- `abs_diff` of the frequencies is at most one step. -/
def near (key key' : DxClusterDedupeKey) : Bool :=
  key.frequencyTenthKhz ≤ key'.frequencyTenthKhz + 1 &&
    key'.frequencyTenthKhz ≤ key.frequencyTenthKhz + 1

end DxClusterDedupeKey

/-- The spot a message of the cluster is stored as; `parseRbn` is the parser's reading of a
comment that a skimmer sent. -/
def dxSpot (parseRbn : String → Option DxClusterRbnSpot) (now : Nat) (dx : Dx) (id : Nat) :
    DxClusterSpot :=
  let rbn := dx.comment.bind parseRbn
  { id := id
    receivedAt := now
    source := if rbn.isSome then "rbn" else "dx"
    callDe := dx.callDe
    callDx := toUppercase (trim dx.callDx)
    frequencyHz := dx.freq
    utc := dx.utc
    loc := dx.loc
    comment := dx.comment
    rbn := rbn }

namespace DxClusterSpotStore

variable (store : DxClusterSpotStore)

def findDuplicateId (key : DxClusterDedupeKey) : Option Nat :=
  store.idsByCallsign[key.callDx]?.bind fun ids =>
    ids.toList.find? fun id => store.spotsById[id]?.any fun spot => spot.key.near key

def add (parseRbn : String → Option DxClusterRbnSpot) (now : Nat) (dx : Dx) :
    DxClusterSpotStore × DxClusterSpot :=
  let newDedupeKey := dedupeKey dx.freq (toUppercase (trim dx.callDx))
  match (store.findDuplicateId newDedupeKey).bind fun id =>
      store.spotsById[id]?.map fun spot => (id, spot) with
  | some (id, old) =>
      let spot := dxSpot parseRbn now dx id
      ({ store with
          idsByTime := store.idsByTime.filter (· ≠ id) ++ [id]
          idsByDedupeKey := put (erase store.idsByDedupeKey old.key) newDedupeKey id
          spotsById := store.spotsById.insert id spot }, spot)
  | none =>
      let id := nextCounter store.nextId
      let spot := dxSpot parseRbn now dx id
      ({ nextId := id
         idsByTime := store.idsByTime ++ [id]
         idsByCallsign := store.idsByCallsign.insert spot.callDx
           ((store.idsByCallsign[spot.callDx]?.getD ∅).insert id)
         idsByDedupeKey := put store.idsByDedupeKey newDedupeKey id
         spotsById := store.spotsById.insert id spot }, spot)

def spots : List DxClusterSpot := store.idsByTime.filterMap (store.spotsById[·]?)

/-- An id leaves the set of its callsign, and an empty set leaves the index. -/
def callsignWithout (index : KeyMap (ExtTreeSet Nat)) (call : String) (id : Nat) :
    KeyMap (ExtTreeSet Nat) :=
  match index[call]? with
  | none => index
  | some ids =>
      if (ids.erase id).isEmpty then index.erase call else index.insert call (ids.erase id)

/-- A spot leaves every index but the one by time. -/
def removeById (id : Nat) : DxClusterSpotStore :=
  match store.spotsById[id]? with
  | none => store
  | some spot =>
      { store with
        spotsById := store.spotsById.erase id
        idsByCallsign := callsignWithout store.idsByCallsign spot.callDx id
        idsByDedupeKey := erase store.idsByDedupeKey spot.key }

/-- The loop of `prune` over the ids in order of arrival. -/
def pruneLoop (cutoff : Nat) : DxClusterSpotStore → List Nat → DxClusterSpotStore × List Nat
  | store, [] => ({ store with idsByTime := [] }, [])
  | store, id :: ids =>
      match store.spotsById[id]? with
      | none => pruneLoop cutoff store ids
      | some spot =>
          if cutoff ≤ spot.receivedAt then ({ store with idsByTime := id :: ids }, [])
          else
            let pruned := pruneLoop cutoff (store.removeById id) ids
            (pruned.1, id :: pruned.2)

def prune (now maxAge : Nat) : DxClusterSpotStore × List Nat :=
  pruneLoop (now - maxAge) store store.idsByTime

def clear : DxClusterSpotStore × List Nat := ({ nextId := store.nextId }, store.idsByTime)

end DxClusterSpotStore

end Store

end Log73
