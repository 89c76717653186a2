import Log73.BandMap.Spots

/-!
The spot store of `bandmap.rs` and the operations of its manager. Every change gets a
sequence number while the store is locked; the events are broadcast afterwards.
-/

namespace Log73

open SortedAssoc
open Std (ExtTreeMap)

structure BandMapSpotStore where
  nextId : Nat := 0
  nextSequence : Nat := 0
  idsByTime : List Nat := []
  spotsById : ExtTreeMap Nat BandMapSpot := ∅
  idByKey : List (BandMapDedupeKey × Nat) := []
  keyById : ExtTreeMap Nat BandMapDedupeKey := ∅

inductive BandMapEvent where
  | spotUpserted (sequence : Nat) (spot : BandMapSpot)
  | spotDeleted (sequence : Nat) (id : Nat)
  deriving DecidableEq

inductive UpsertOutcome where
  | inserted (spot : BandMapSpot)
  | updated (spot : BandMapSpot)
  | refreshed (spot : BandMapSpot)

/-- The order a hash map or a hash set is gone through in, which is not specified. -/
structure IterationOrder (α : Type) where
  arrange : List α → List α
  perm : ∀ entries, (arrange entries).Perm entries

def BandMapDedupeKey.isLocalFor (key : BandMapDedupeKey) (logId : Int) : Bool :=
  match key with
  | .localBand (some currentLogId) _ _ | .localUnknownBand (some currentLogId) _ _ =>
      currentLogId = logId
  | _ => false

/-- The events of one operation follow those of the one before. -/
def recordEvents {σ ε : Type} (state : σ × List ε) (operation : σ → σ × List ε) : σ × List ε :=
  let result := operation state.1
  (result.1, state.2 ++ result.2)

namespace BandMapSpotStore

variable (store : BandMapSpotStore)

/-- The first index whose spot is later than the given one; ids without a spot count as later.
Of a list in order this is its point of partition. -/
def partitionPoint (receivedAt id : Nat) : Nat :=
  (store.idsByTime.takeWhile fun currentId => (store.spotsById[currentId]?).any fun spot =>
    decide (toLex (spot.receivedAt, currentId) ≤ toLex (receivedAt, id))).length

def insertIdByTime (id : Nat) : BandMapSpotStore :=
  match store.spotsById[id]? with
  | none => store
  | some spot =>
      { store with
        idsByTime := store.idsByTime.insertIdx (store.partitionPoint spot.receivedAt id) id }

def reinsertIdByTime (id : Nat) : BandMapSpotStore :=
  insertIdByTime { store with idsByTime := store.idsByTime.filter (· ≠ id) } id

/-- A key that is known updates its spot, another one gets a spot under the next id. That a known
key has no spot is unreachable in the source, and is no case of its own here. -/
def upsert (key : BandMapDedupeKey) (candidate : BandMapSpotCandidate) :
    BandMapSpotStore × UpsertOutcome :=
  match (get? store.idByKey key).bind fun id => store.spotsById[id]?.map fun spot => (id, spot) with
  | some (id, old) =>
      let spot : BandMapSpot := { toBandMapSpotCandidate := candidate, id := old.id }
      (reinsertIdByTime { store with spotsById := store.spotsById.insert id spot } id,
        if spotVisibleFieldsChanged old candidate then .updated spot else .refreshed spot)
  | none =>
      let id := nextCounter store.nextId
      let spot : BandMapSpot := { toBandMapSpotCandidate := candidate, id := id }
      (insertIdByTime
        { store with
          nextId := id
          spotsById := store.spotsById.insert id spot
          idByKey := put store.idByKey key id
          keyById := store.keyById.insert id key } id, .inserted spot)

def spots (logId : Option Int) : List BandMapSpot :=
  (store.idsByTime.filterMap (store.spotsById[·]?)).filter (spotVisibleForLog · logId)

/-- A change that a client can see takes the next sequence number. -/
def announce (outcome : UpsertOutcome) : BandMapSpotStore × List BandMapEvent :=
  match outcome with
  | .inserted spot | .updated spot =>
      ({ store with nextSequence := nextCounter store.nextSequence },
        [.spotUpserted (nextCounter store.nextSequence) spot])
  | .refreshed _ => (store, [])

def upsertAnnounced (request : SpotRequest) : BandMapSpotStore × List BandMapEvent :=
  let upserted := store.upsert request.1 request.2
  upserted.1.announce upserted.2

/-- The spot leaves every index but the one by time. -/
def removeById (id : Nat) : BandMapSpotStore × List BandMapEvent :=
  match store.spotsById[id]? with
  | none => (store, [])
  | some _ =>
      ({ store with
          spotsById := store.spotsById.erase id
          idByKey := store.keyById[id]?.elim store.idByKey fun key => erase store.idByKey key
          keyById := store.keyById.erase id
          nextSequence := nextCounter store.nextSequence },
        [.spotDeleted (nextCounter store.nextSequence) id])

/-- The loop of `prune` over the ids in order of arrival. -/
def pruneLoop (cutoff : Nat) : BandMapSpotStore → List Nat → BandMapSpotStore × List BandMapEvent
  | store, [] => ({ store with idsByTime := [] }, [])
  | store, id :: ids =>
      match store.spotsById[id]? with
      | none => pruneLoop cutoff store ids
      | some spot =>
          if cutoff ≤ spot.receivedAt then ({ store with idsByTime := id :: ids }, [])
          else
            let removed := store.removeById id
            let pruned := pruneLoop cutoff removed.1 ids
            (pruned.1, removed.2 ++ pruned.2)

def prune (now maxAge : Nat) : BandMapSpotStore × List BandMapEvent :=
  pruneLoop (cutoffTimestamp now maxAge) store store.idsByTime

def remove (id : Nat) : BandMapSpotStore × List BandMapEvent :=
  removeById { store with idsByTime := store.idsByTime.filter (· ≠ id) } id

def removeClusterSourceSpot (sourceId : Nat) : BandMapSpotStore × List BandMapEvent :=
  match get? store.idByKey (.cluster sourceId) with
  | none => (store, [])
  | some id => store.remove id

def localKeysForLog (logId : Int) : List BandMapDedupeKey :=
  (store.idByKey.map Prod.fst).filter fun key => key.isLocalFor logId

def removeKey (key : BandMapDedupeKey) : BandMapSpotStore × List BandMapEvent :=
  match get? store.idByKey key with
  | none => (store, [])
  | some id => store.removeById id

/-- `upsert_candidate` of the manager. -/
def upsertCandidate (now maxAge : Nat) (request : SpotRequest) :
    BandMapSpotStore × List BandMapEvent :=
  recordEvents (store.prune now maxAge) (upsertAnnounced · request)

/-- The local spots of a log become those its contacts ask for. The clock is read once before the
store is locked, for the contacts, and once more by the prune. -/
def syncLocalSpotsForLog [Platform] (upsertOrder : IterationOrder SpotRequest)
    (removeOrder : IterationOrder BandMapDedupeKey) (bands : List Band) (asked now maxAge : Nat)
    (logId : Int) (contacts : List Contact) : BandMapSpotStore × List BandMapEvent :=
  let desired := desiredSpots bands (cutoffTimestamp asked maxAge) logId contacts
  let pruned := store.prune now maxAge
  let existingKeys := pruned.1.localKeysForLog logId
  let upserted := (upsertOrder.arrange desired).foldl (fun state request =>
    recordEvents state (upsertAnnounced · request)) pruned
  (removeOrder.arrange (existingKeys.filter fun key => (get? desired key).isNone)).foldl
    (fun state key => recordEvents state (removeKey · key)) upserted

end BandMapSpotStore

/-- What the manager is asked to do; the age of spots and the bands may change in between. -/
inductive BandMapOperation where
  | upsertDxclusterSpot (bands : List Band) (now maxAge : Nat) (spot : DxClusterSpot)
  | upsertLocalSpot (bands : List Band) (now maxAge : Nat) (input : LocalSpotInput)
  | upsertCq (bands : List Band) (now maxAge frequencyHz : Nat) (radioId : Int)
      (radioName : String)
  | upsertInUse (bands : List Band) (now maxAge frequencyHz : Nat)
  | syncLocalSpotsForLog (upsertOrder : IterationOrder SpotRequest)
      (removeOrder : IterationOrder BandMapDedupeKey) (bands : List Band)
      (asked now maxAge : Nat) (logId : Int) (contacts : List Contact)
  | deleteSpot (id : Nat)
  | deleteDxclusterSpot (sourceId : Nat)
  | pruneOldSpots (now maxAge : Nat)

/-- An operation while the store is locked: the store it leaves, and the events to broadcast. -/
def BandMapSpotStore.operate [Platform] (store : BandMapSpotStore) :
    BandMapOperation → BandMapSpotStore × List BandMapEvent
  | .upsertDxclusterSpot bands now maxAge spot =>
      store.upsertCandidate now maxAge (dxclusterSpotRequest bands spot)
  | .upsertLocalSpot bands now maxAge input =>
      store.upsertCandidate now maxAge (localSpotRequest bands now input)
  | .upsertCq bands now maxAge frequencyHz radioId radioName =>
      match cqRequest bands now frequencyHz radioId radioName with
      | none => (store, [])
      | some request => store.upsertCandidate now maxAge request
  | .upsertInUse bands now maxAge frequencyHz =>
      store.upsertCandidate now maxAge (inUseRequest bands now frequencyHz)
  | .syncLocalSpotsForLog upsertOrder removeOrder bands asked now maxAge logId contacts =>
      store.syncLocalSpotsForLog upsertOrder removeOrder bands asked now maxAge logId contacts
  | .deleteSpot id => store.remove id
  | .deleteDxclusterSpot sourceId => store.removeClusterSourceSpot sourceId
  | .pruneOldSpots now maxAge => store.prune now maxAge

end Log73
