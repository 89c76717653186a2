import Log73.BandMap.Recorded
import Log73.Frontend.BandMapClient

/-!
The band map of the backend and one client of a log: operations of the band map, the
subscription of the session (`main.rs`), messages and snapshots on their way, and the client.
-/

namespace Log73.Frontend

/-- `BANDMAP_EVENT_BUFFER`. -/
def bandmapEventBuffer : Nat := 512

/-- A receiver of the broadcast channel: the events it is to get, and how many it lost. -/
structure Subscription where
  retained : List BandMapEvent := []
  skipped : Nat := 0

/-- A full channel loses its oldest event. -/
def Subscription.send (subscription : Subscription) (event : BandMapEvent) : Subscription :=
  let retained := subscription.retained ++ [event]
  if bandmapEventBuffer < retained.length then
    { retained := retained.drop 1, skipped := subscription.skipped + 1 }
  else { subscription with retained := retained }

structure BandMapSession where
  bandmapEnabled : Bool := false
  subscription : Option Subscription := none
  incoming : List Bool := []
  outgoing : List SessionMessage := []

/-- A request for a snapshot, and its answer. -/
structure SnapshotFetch where
  generation : Nat
  answer : Option (Nat × List BandMapSpot) := none

/-- The history is what was recorded so far; no part of the program reads it. -/
structure BandMapSystem where
  store : BandMapSpotStore := {}
  history : List BandMapEvent := []
  unsent : List BandMapEvent := []
  session : BandMapSession := {}
  fetches : List SnapshotFetch := []
  client : BandMapClient := {}

inductive BandMapAction where
  | operate (operation : BandMapOperation)
  | broadcast (index : Nat)
  | handleRequest
  | forward
  | answerFetch (index : Nat)
  | deliverMessage
  | deliverSnapshot (index : Nat)
  | failSnapshot (index : Nat)
  | setEnabled (enabled : Bool)
  | reconnect
  | render

/-- The message of the subscription for an event; a spot of another log is only counted. -/
def sessionMessage (logId : Int) : BandMapEvent → SequenceMessage
  | .spotUpserted sequence spot =>
      if spotVisibleForLog spot (some logId) then .bandmapSpot sequence spot
      else .bandmapSequence sequence
  | .spotDeleted sequence id => .bandmapSpotDeleted sequence id

namespace BandMapSystem

variable (logId : Int) (system : BandMapSystem)

/-- An event that was recorded is sent, in no order among the operations. -/
def broadcastEvent (index : Nat) : BandMapSystem :=
  match system.unsent[index]? with
  | none => system
  | some event =>
      { system with
        unsent := system.unsent.eraseIdx index
        session := { system.session with
          subscription := system.session.subscription.map (·.send event) } }

/-- `SetBandMapEnabled` at the session: a new subscription takes the place of the old one. -/
def handleRequest : BandMapSystem :=
  match system.session.incoming with
  | [] => system
  | enabled :: incoming =>
      let session := { system.session with incoming := incoming }
      if session.bandmapEnabled = enabled then { system with session := session }
      else
        { system with
          session :=
            { session with
              bandmapEnabled := enabled
              subscription := if enabled then some {} else none
              outgoing :=
                if enabled then session.outgoing ++ [.bandmapSubscriptionReady]
                else session.outgoing } }

/-- One round of the subscription. When it lagged it forwards the current number. -/
def forward : BandMapSystem :=
  match system.session.subscription with
  | none => system
  | some subscription =>
      if 0 < subscription.skipped then
        { system with
          session := { system.session with
            subscription := some { subscription with skipped := 0 }
            outgoing := system.session.outgoing
              ++ [.sequenced (.bandmapSequence system.store.nextSequence)] } }
      else
        match subscription.retained with
        | [] => system
        | event :: retained =>
            { system with
              session := { system.session with
                subscription := some { subscription with retained := retained }
                outgoing := system.session.outgoing ++ [.sequenced (sessionMessage logId event)] } }

/-- The number and the spots are read together. -/
def answerFetch (index : Nat) : BandMapSystem :=
  match system.fetches[index]? with
  | none => system
  | some fetch =>
      { system with
        fetches := system.fetches.set index
          { fetch with answer := some (system.store.nextSequence, system.store.spots (some logId)) }
            }

/-- The client goes on, and its requests are on their way. -/
def continueClient (result : BandMapClient × List ClientRequest) : BandMapSystem :=
  result.2.foldl (fun system request =>
    match request with
    | .setBandmapEnabled enabled =>
        { system with
          session := { system.session with incoming := system.session.incoming ++ [enabled] } }
    | .fetchSpots generation =>
        { system with fetches := system.fetches ++ [{ generation := generation }] })
    { system with client := result.1 }

variable [Platform] [Collator]

omit [Collator] in
def recordOperation (operation : BandMapOperation) : BandMapSystem :=
  let result := system.store.operate operation
  { system with
    store := result.1
    history := system.history ++ result.2
    unsent := system.unsent ++ result.2 }

omit [Platform] [Collator] in
def deliverMessage : BandMapSystem :=
  match system.session.outgoing with
  | [] => system
  | message :: outgoing =>
      continueClient { system with session := { system.session with outgoing := outgoing } }
        (system.client.handleSocketMessage message)

def deliverSnapshot (index : Nat) : BandMapSystem :=
  match system.fetches[index]? with
  | some { generation, answer := some (sequence, spots) } =>
      continueClient { system with fetches := system.fetches.eraseIdx index }
        (system.client.snapshotLoaded generation sequence spots)
  | _ => system

omit [Platform] [Collator] in
def failSnapshot (index : Nat) : BandMapSystem :=
  match system.fetches[index]? with
  | none => system
  | some fetch =>
      { system with
        fetches := system.fetches.eraseIdx index
        client := system.client.snapshotFailed fetch.generation }

def step (action : BandMapAction) : BandMapSystem :=
  match action with
  | .operate operation => system.recordOperation operation
  | .broadcast index => system.broadcastEvent index
  | .handleRequest => system.handleRequest
  | .forward => system.forward logId
  | .answerFetch index => system.answerFetch logId index
  | .deliverMessage => system.deliverMessage
  | .deliverSnapshot index => system.deliverSnapshot index
  | .failSnapshot index => system.failSnapshot index
  | .setEnabled enabled => system.continueClient (system.client.setEnabled enabled)
  | .reconnect =>
      continueClient { system with session := {} } system.client.handleSocketOpenReload
  | .render => system.continueClient system.client.render

def run (actions : List BandMapAction) : BandMapSystem :=
  actions.foldl (fun system action => system.step logId action) system

end BandMapSystem

end Log73.Frontend
