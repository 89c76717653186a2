import Log73.BandMap.Store
import Log73.Frontend.BandMap

/-!
A client that follows the band map (`useBandMap.js`): it takes in numbered messages, and
fetches a snapshot when one is missing. An update of its spots is queued, and runs when the
client is rendered.
-/

namespace Log73.Frontend

/-- A message that carries a number of the band map. -/
inductive SequenceMessage where
  | bandmapSpot (sequence : Nat) (spot : BandMapSpot)
  | bandmapSpotDeleted (sequence id : Nat)
  | bandmapSequence (sequence : Nat)
  deriving DecidableEq

inductive SessionMessage where
  | bandmapSubscriptionReady
  | sequenced (message : SequenceMessage)

inductive SyncStatus where
  | idle
  | awaitingReady
  | loadingSnapshot
  | live
  deriving DecidableEq

/-- What a client sends: to its session, or for a snapshot. -/
inductive ClientRequest where
  | setBandmapEnabled (enabled : Bool)
  | fetchSpots (generation : Nat)

/-- An update of the spots that waits for the next rendering. -/
inductive StoreUpdate where
  | replace (store : ClientSpotStore)
  | message (message : SequenceMessage)

structure BandMapClient where
  enabled : Bool := false
  status : SyncStatus := .idle
  sequence : Nat := 0
  bufferedMessages : List SequenceMessage := []
  refreshInFlight : Bool := false
  generation : Nat := 0
  store : ClientSpotStore := {}
  updates : List StoreUpdate := []

structure AppliedMessage where
  store : ClientSpotStore
  sequence : Nat
  applied : Bool
  needsRefresh : Bool
  messageSequence : Option Nat := none

namespace SequenceMessage

def sequence : SequenceMessage → Nat
  | bandmapSpot sequence _ => sequence
  | bandmapSpotDeleted sequence _ => sequence
  | bandmapSequence sequence => sequence

end SequenceMessage

section Messages

variable [Platform] [Collator]

def applyBandMapSequenceMessage (store : ClientSpotStore) (sequence : Nat)
    (message : SequenceMessage) : AppliedMessage :=
  let messageSequence := message.sequence
  if messageSequence = 0 ∨ messageSequence ≤ sequence then
    { store, sequence, applied := false, needsRefresh := false }
  else if messageSequence ≠ sequence + 1 then
    { store, sequence, applied := false, needsRefresh := true,
      messageSequence := some messageSequence }
  else
    match message with
    | .bandmapSpot _ spot =>
        { store := addBandMapSpot store spot, sequence := messageSequence, applied := true,
          needsRefresh := false }
    | .bandmapSpotDeleted _ id =>
        { store := removeBandMapSpot store id, sequence := messageSequence, applied := true,
          needsRefresh := false }
    | .bandmapSequence _ =>
        { store, sequence := messageSequence, applied := true, needsRefresh := false }

/-- The buffered messages on top of a snapshot; there is no result when one is missing. -/
def replayMessages (store : ClientSpotStore) (sequence : Nat) :
    List SequenceMessage → Option (ClientSpotStore × Nat)
  | [] => some (store, sequence)
  | message :: messages =>
      let applied := applyBandMapSequenceMessage store sequence message
      if applied.needsRefresh then none
      else replayMessages applied.store applied.sequence messages

end Messages

namespace BandMapClient

variable (client : BandMapClient)

def resetBandMapSync (status : SyncStatus) : BandMapClient :=
  { client with
    status := status
    sequence := 0
    bufferedMessages := []
    refreshInFlight := false
    generation := client.generation + 1 }

def setBandMapSpotStore (update : StoreUpdate) : BandMapClient :=
  { client with updates := client.updates ++ [update] }

/-- The effect that follows the switch of the band map. -/
def setEnabled (enabled : Bool) : BandMapClient × List ClientRequest :=
  let client := { client with enabled := enabled }
  let client :=
    if enabled then (client.setBandMapSpotStore (.replace {})).resetBandMapSync .awaitingReady
    else client.resetBandMapSync .idle
  (client, [.setBandmapEnabled enabled])

def handleSocketOpenReload : BandMapClient × List ClientRequest :=
  if client.enabled then
    ((client.setBandMapSpotStore (.replace {})).resetBandMapSync .awaitingReady,
      [.setBandmapEnabled true])
  else (client, [])

/-- `refreshBandMapSnapshot` up to its request. -/
def refreshBandMapSnapshot : BandMapClient × List ClientRequest :=
  if !client.enabled || client.refreshInFlight then (client, [])
  else
    ({ client with refreshInFlight := true, status := .loadingSnapshot },
      [.fetchSpots client.generation])

/-- The `finally` of a refresh. -/
def finishRefresh (generation : Nat) : BandMapClient :=
  if client.generation = generation then { client with refreshInFlight := false } else client

def snapshotFailed (generation : Nat) : BandMapClient :=
  if client.generation ≠ generation then client
  else ({ client with status := .awaitingReady }).finishRefresh generation

section Messages

variable [Platform] [Collator]

/-- `refreshBandMapSnapshot` from the answer to its request on. -/
def snapshotLoaded (generation sequence : Nat) (spots : List BandMapSpot) :
    BandMapClient × List ClientRequest :=
  if !client.enabled || client.generation ≠ generation then (client.finishRefresh generation, [])
  else
    let emptied := { client with bufferedMessages := [] }
    match replayMessages (createBandMapSpotStore spots) sequence client.bufferedMessages with
    | none =>
        let refreshed := ({ emptied with refreshInFlight := false }).refreshBandMapSnapshot
        (refreshed.1.finishRefresh generation, refreshed.2)
    | some (store, sequence) =>
        ((({ emptied with sequence := sequence, status := .live }).setBandMapSpotStore
          (.replace store)).finishRefresh generation, [])

omit [Platform] [Collator] in
def handleSocketMessage (message : SessionMessage) : BandMapClient × List ClientRequest :=
  match message with
  | .bandmapSubscriptionReady =>
      if client.enabled then client.refreshBandMapSnapshot else (client, [])
  | .sequenced message =>
      if client.status ≠ .live then
        ({ client with bufferedMessages := client.bufferedMessages ++ [message] }, [])
      else (client.setBandMapSpotStore (.message message), [])

/-- A queued update runs; the one of a message reads and writes the number of the client. -/
def runUpdate (update : StoreUpdate) : BandMapClient × List ClientRequest :=
  match update with
  | .replace store => ({ client with store := store }, [])
  | .message message =>
      let result := applyBandMapSequenceMessage client.store client.sequence message
      if result.needsRefresh then
        ({ client with status := .loadingSnapshot, bufferedMessages := [] }).refreshBandMapSnapshot
      else ({ client with store := result.store, sequence := result.sequence }, [])

def render : BandMapClient × List ClientRequest :=
  client.updates.foldl (fun state update => recordEvents state (runUpdate · update))
    ({ client with updates := [] }, [])

end Messages

end BandMapClient

end Log73.Frontend
