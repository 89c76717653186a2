import Log73.Contact
import Log73.Frontend.BandMapClient
import Log73.Library.Broadcast
import Log73.Library.Runs

/-!
The websocket of a log (`handle_socket` of `main.rs`): the events of all logs come through a
bounded channel, are filtered for the session, and are sent between the messages queued for it;
the client (`useBackendSocket.js`) hands on what it gets.
-/

namespace Log73.Session

open Broadcast

/-- The messages of `radio.rs` that are sent. -/
inductive ServerMessage where
  | pong (requestId : String)
  | logEntry (contact : Contact)
  | contactDeleted (id logId : Int)
  | supercheckpartialUpdate (callsigns : List String)
  | scoreUpdate (logId qsoCount multipliers bonusPoints totalScore : Int)
  | bandMap (message : Frontend.SessionMessage)

/-- The messages the session itself and the band map put in its queue. -/
inductive DirectMessage where
  | pong (requestId : String)
  | bandMap (message : Frontend.SessionMessage)

def DirectMessage.toServer : DirectMessage → ServerMessage
  | pong requestId => .pong requestId
  | bandMap message => .bandMap message

/-- The channel of `log_events`. -/
def logEventsCapacity : Nat := 128

def websocketLogEventForClient (event : ServerMessage) (outboundSessionId : String)
    (outboundLogId : Option Int) : Option ServerMessage :=
  outboundLogId.bind fun outboundLogId =>
    match event with
    | .logEntry contact =>
        if contactLogId contact ≠ some outboundLogId then none
        else if (contactMetaValue contact "sessionId").bind Value.asStr =
            some outboundSessionId then
          none
        else some (.logEntry contact)
    | .contactDeleted id logId =>
        if logId = outboundLogId then some (.contactDeleted id logId) else none
    | .scoreUpdate logId qsoCount multipliers bonusPoints totalScore =>
        if logId = outboundLogId then
          some (.scoreUpdate logId qsoCount multipliers bonusPoints totalScore)
        else none
    | .supercheckpartialUpdate callsigns => some (.supercheckpartialUpdate callsigns)
    | _ => none

/-- What the client does with a message. -/
inductive ClientCall where
  | refreshContacts
  | remoteContact (contact : Contact)
  | remoteContactDeleted (id : Int)
  | setScoreSummary (qsoCount multipliers bonusPoints score : Int)
  | socketMessage (message : ServerMessage)

def onMessage (message : ServerMessage) : List ClientCall :=
  let first : List ClientCall :=
    match message with
    | .logEntry contact => [.remoteContact contact]
    | .contactDeleted id _ => [.remoteContactDeleted id]
    | .scoreUpdate _ qsoCount multipliers bonusPoints totalScore =>
        [.setScoreSummary qsoCount multipliers bonusPoints totalScore]
    | _ => []
  first ++ [.socketMessage message]

/-- The contacts are read again when the socket opens; the band map starts apart. -/
def onOpen : List ClientCall := [.refreshContacts]

/-- The trace, the last item first, is read by no part of the program. -/
structure LogSocket where
  sessionId : String
  logId : Int
  receiver : Receiver ServerMessage := {}
  direct : List DirectMessage := []
  wire : List ServerMessage := []
  opened : Bool := false
  closed : Bool := false
  trace : List (Item ServerMessage) := []

inductive SocketAction where
  | broadcast (event : ServerMessage)
  | queue (message : DirectMessage)
  | sendEvent
  | sendDirect
  | connected
  | receive
  | close

namespace LogSocket

variable (socket : LogSocket)

/-- The totals of the log, if they are known, are sent first. -/
def start (sessionId : String) (logId : Int) (totals : Option (Int × Int × Int × Int)) :
    LogSocket :=
  let first := totals.toList.map fun total =>
    ServerMessage.scoreUpdate logId total.1 total.2.1 total.2.2.1 total.2.2.2
  { sessionId := sessionId
    logId := logId
    wire := first
    trace := first.map .sent }

/-- The calls of the client, as the trace has them. -/
def told (calls : List ClientCall) : List (Item ServerMessage) :=
  calls.filterMap fun
    | .refreshContacts => some .told
    | _ => none

/-- One round of the outbound task on the channel: a lag is passed over. -/
def sendEvent : LogSocket :=
  match socket.receiver.recv with
  | none => socket
  | some (.lagged _, receiver) => { socket with receiver := receiver }
  | some (.event event, receiver) =>
      let socket := { socket with receiver := receiver }
      match websocketLogEventForClient event socket.sessionId (some socket.logId) with
      | none => socket
      | some message => { socket with wire := socket.wire ++ [message] }

def sendDirect : LogSocket :=
  match socket.direct with
  | [] => socket
  | message :: direct =>
      { socket with direct := direct, wire := socket.wire ++ [message.toServer] }

/-- The client takes the next message of an open socket. -/
def receive : LogSocket :=
  if !socket.opened || socket.closed then socket
  else
    match socket.wire with
    | [] => socket
    | message :: wire =>
        { socket with
          wire := wire
          trace := told (onMessage message) ++ .taken message :: socket.trace }

def step (socket : LogSocket) : SocketAction → LogSocket
  | .broadcast event =>
      { socket with
        receiver := socket.receiver.send logEventsCapacity event
        trace := .sent event :: socket.trace }
  | .queue message => { socket with direct := socket.direct ++ [message] }
  | .sendEvent => socket.sendEvent
  | .sendDirect => socket.sendDirect
  | .connected =>
      if socket.opened || socket.closed then socket
      else { socket with opened := true, trace := told onOpen ++ socket.trace }
  | .receive => socket.receive
  | .close => { socket with closed := true }

def run (socket : LogSocket) (actions : List SocketAction) : LogSocket :=
  Runs.run step socket actions

end LogSocket

/-- The contact entries and deletions of a log that are not of the session. -/
def Owed (sessionId : String) (logId : Int) : ServerMessage → Prop
  | .logEntry contact => contactLogId contact = some logId ∧
      (contactMetaValue contact "sessionId").bind Value.asStr ≠ some sessionId
  | .contactDeleted _ log => log = logId
  | _ => False

/-- The events of a log. -/
def OfLog (logId : Int) : ServerMessage → Prop
  | .logEntry contact => contactLogId contact = some logId
  | .contactDeleted _ log => log = logId
  | .scoreUpdate log _ _ _ _ => log = logId
  | _ => False

instance (sessionId : String) (logId : Int) : DecidablePred (Owed sessionId logId) := fun event =>
  match event with
  | .logEntry _ => inferInstanceAs (Decidable (_ ∧ _))
  | .contactDeleted _ log => inferInstanceAs (Decidable (log = logId))
  | .scoreUpdate _ _ _ _ _ | .pong _ | .supercheckpartialUpdate _ | .bandMap _ =>
      inferInstanceAs (Decidable False)

theorem Owed.ofLog {sessionId : String} {logId : Int} {event : ServerMessage}
    (h : Owed sessionId logId event) : OfLog logId event := by
  cases event with
  | logEntry contact => exact h.1
  | contactDeleted id log => exact h
  | scoreUpdate _ _ _ _ _ | pong _ | supercheckpartialUpdate _ | bandMap _ => exact h.elim

/-- The filter leaves an event as it is. -/
theorem websocketLogEventForClient_eq {event message : ServerMessage} {sessionId : String}
    {logId : Int} (h : websocketLogEventForClient event sessionId (some logId) = some message) :
    message = event := by
  rw [websocketLogEventForClient, Option.bind_some] at h
  cases event with
  | logEntry contact =>
      dsimp only at h
      split at h
      · cases h
      · split at h
        · cases h
        · exact (Option.some.inj h).symm
  | contactDeleted _ _ | scoreUpdate _ _ _ _ _ =>
      dsimp only at h
      split at h
      · exact (Option.some.inj h).symm
      · cases h
  | supercheckpartialUpdate _ => exact (Option.some.inj h).symm
  | pong _ | bandMap _ => cases h

/-- What the filter passes of the log. -/
def Passes (sessionId : String) (logId : Int) (event : ServerMessage) : Prop :=
  OfLog logId event ∧ (websocketLogEventForClient event sessionId (some logId)).isSome

instance (logId : Int) : DecidablePred (OfLog logId) := fun event =>
  match event with
  | .logEntry contact => inferInstanceAs (Decidable (contactLogId contact = some logId))
  | .contactDeleted _ log => inferInstanceAs (Decidable (log = logId))
  | .scoreUpdate log _ _ _ _ => inferInstanceAs (Decidable (log = logId))
  | .pong _ | .supercheckpartialUpdate _ | .bandMap _ => inferInstanceAs (Decidable False)

instance (sessionId : String) (logId : Int) : DecidablePred (Passes sessionId logId) := fun _ =>
  inferInstanceAs (Decidable (_ ∧ _))

theorem Owed.passes {sessionId : String} {logId : Int} {event : ServerMessage}
    (h : Owed sessionId logId event) : Passes sessionId logId event := by
  refine ⟨h.ofLog, ?_⟩
  cases event with
  | logEntry contact =>
      rw [websocketLogEventForClient, Option.bind_some]
      dsimp only
      rw [if_neg (not_not_intro h.1), if_neg h.2]
      rfl
  | contactDeleted id log =>
      obtain rfl : log = logId := h
      rw [websocketLogEventForClient, Option.bind_some]
      dsimp only
      rw [if_pos rfl]
      rfl
  | scoreUpdate _ _ _ _ _ | pong _ | supercheckpartialUpdate _ | bandMap _ => exact h.elim

end Log73.Session
