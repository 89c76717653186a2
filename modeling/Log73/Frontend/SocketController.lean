import Mathlib.Logic.Function.Basic
import Log73.Json
import Log73.Library.Runs

/-!
The controller that keeps a browser page connected: one WebSocket at a time, replaced
whenever it closes, fails, stalls or stops answering pings. The world below holds the
controller's own variables together with what it sees of the browser: the sockets it
created, the timeouts it set, the page's visibility, and the callbacks it has called.
-/

namespace Log73.Frontend.ReconnectingSocket

inductive ReadyState where
  | connecting
  | opened
  | closing
  | closed
  deriving DecidableEq

inductive TimerName where
  | connect
  | foreground
  | health
  | pong
  | reconnect
  deriving DecidableEq

def timerNames : List TimerName := [.connect, .foreground, .health, .pong, .reconnect]

/-- A request id is never empty, so that a pending one always counts as true. -/
structure RequestId where
  text : String
  nonempty : text ≠ ""
  deriving DecidableEq

/-- What the browser and the caller give the controller. `parse` is `JSON.parse`. -/
structure Options where
  url : String
  createPing : RequestId → Value
  isPong : Value → Bool
  parse : String → Option Value
  connectTimeoutMs : Nat := 5000
  initialReconnectDelayMs : Nat := 2000
  maxReconnectDelayMs : Nat := 16000
  idlePingDelayMs : Nat := 15000
  pongTimeoutMs : Nat := 5000
  immediateTimeoutRecovery : Bool := false
  foregroundConnectingGraceMs : Option Nat := none

structure Connection where
  id : Nat
  createdAt : Int
  opened : Bool

/-- `connection.opened = true` -/
def Connection.markOpened (connection : Connection) : Connection :=
  { connection with opened := true }

structure Socket where
  readyState : ReadyState
  listening : Bool

/-- The callback of a timer. -/
inductive Task where
  | connectTimeout (connection : Nat)
  | foreground (source : String)
  | checkHealth
  | pongTimeout (connection : Nat) (requestId : RequestId)
  | reconnect
  deriving DecidableEq

structure Timer where
  name : TimerName
  id : Nat
  task : Task
  delay : Nat
  connection : Option Nat
  deriving DecidableEq

abbrev Details := List (String × Value)

inductive Call where
  | onDebug (event : String) (details : Details)
  | onStatusChange (status : String)
  | onClose (details : Details)
  | onError (error phase url : String)
  | onOpen (connection : Nat)
  | onMessage (message : Value) (connection : Nat)
  | onMessageError (data : String)

/-- The variables of the controller. -/
structure Controller where
  started : Bool
  disposed : Bool
  current : Option Connection
  reconnectDelayMs : Nat
  lastMessageAt : Int
  pendingPingRequestId : Option RequestId
  timers : TimerName → Option Timer

/-- The controller in its browser. A timeout is listed while it is set and neither cleared nor
fired; `listening` tells that the page's own listeners are attached. -/
structure World extends Controller where
  sockets : Nat → Socket
  socketCount : Nat
  hidden : Bool
  listening : Bool
  timeouts : List Timer
  timeoutCount : Nat
  sent : List (Nat × Value)
  calls : List Call

inductive SocketEvent where
  | opened
  | message (data : String)
  | close (code : Nat) (reason : String) (wasClean : Bool)
  | error (event : String)

/-- How the calls that one step makes into the browser and the caller turn out. A socket may
dispatch events of its own while a message is being sent. -/
structure Outcome where
  now : Int
  createSocketError : Option String
  closeError : Option String
  sendError : Option String
  dispatched : List (Nat × SocketEvent)
  requestId : RequestId
  onOpenError : Option String
  onMessageThrows : Bool

inductive Event where
  | start
  | dispose
  | socket (connection : Nat) (event : SocketEvent)
  | dropped (connection : Nat) (closed : Bool)
  | openRejected (connection : Nat) (error : String)
  | timer (timer : Timer)
  | visibilityChange (hidden : Bool)
  | focus
  | pageShow
  | send (message : Value)
  | contextSend (connection : Nat) (message : Value)

/-- The connection whose event or timer this is. -/
def Event.connection : Event → Option Nat
  | .socket connection _ | .dropped connection _ | .openRejected connection _ => some connection
  | .contextSend connection _ => some connection
  | .timer set => set.connection
  | _ => none

def requestIdValue : Option RequestId → Value
  | none => .null
  | some requestId => .string requestId.text

def reasonDetails (reason : String) : Details := [("reason", .string reason)]

/-- `message?.[name]` -/
def member (name : String) (message : Value) : Value :=
  (message.asObject.bind fun entries => SortedAssoc.get? entries name).getD .null

namespace World

def isCurrent (connection : Nat) (w : World) : Bool :=
  w.started && !w.disposed && w.current.any (·.id == connection)

def notify (call : Call) (w : World) : World :=
  { w with calls := if w.disposed then w.calls else w.calls ++ [call] }

def debug (event : String) (details : Details) (w : World) : World :=
  w.notify (.onDebug event details)

def readyState (connection : Nat) (w : World) : ReadyState := (w.sockets connection).readyState

def visibilityState (w : World) : Value := .string (if w.hidden then "hidden" else "visible")

def clearTimer (name : TimerName) (w : World) : World :=
  { w with
    timers := Function.update w.timers name none
    timeouts := w.timeouts.filter fun timer => w.timers name ≠ some timer }

/-- `for (const name of timers.keys()) clearTimer(name)` -/
def clearTimers (w : World) : World :=
  timerNames.foldl (fun w name => w.clearTimer name) w

def setTimer (name : TimerName) (task : Task) (delay : Nat) (connection : Option Nat) (w : World) :
    World :=
  let w := w.clearTimer name
  let timer : Timer :=
    { name := name, id := w.timeoutCount, task := task, delay := delay, connection := connection }
  { w with
    timers := Function.update w.timers name (some timer)
    timeouts := w.timeouts ++ [timer]
    timeoutCount := w.timeoutCount + 1 }

def clearHealth (w : World) : World :=
  (({ w with pendingPingRequestId := none }).clearTimer .health).clearTimer .pong

def resetDelay (options : Options) (w : World) : World :=
  { w with reconnectDelayMs := options.initialReconnectDelayMs }

def markOpened (w : World) : World :=
  { w with current := w.current.map Connection.markOpened }

def setSocket (connection : Nat) (socket : Socket) (w : World) : World :=
  { w with sockets := Function.update w.sockets connection socket }

def setReadyState (connection : Nat) (readyState : ReadyState) (w : World) : World :=
  w.setSocket connection { w.sockets connection with readyState := readyState }

def addEventListeners (connection : Nat) (w : World) : World :=
  w.setSocket connection { w.sockets connection with listening := true }

def removeEventListeners (connection : Nat) (w : World) : World :=
  w.setSocket connection { w.sockets connection with listening := false }

/-- `socket.close()` starts the closing handshake of a socket that has not begun it. -/
def socketClose (connection : Nat) (w : World) : World :=
  match w.readyState connection with
  | .connecting | .opened => w.setReadyState connection .closing
  | .closing | .closed => w

def closeSocket (outcome : Outcome) (connection : Nat) (w : World) : World :=
  match outcome.closeError with
  | none => w.socketClose connection
  | some error => w.debug "socket_close_failed" [("error", .string error)]

/-- `none` where the source returns `false`: the connection is not the current one. -/
def retire (outcome : Outcome) (connection : Nat) (details : Details) (w : World) : Option World :=
  if !w.isCurrent connection then
    none
  else
    let cleared := requestIdValue w.pendingPingRequestId
    let w := { w with current := none }
    let w := w.removeEventListeners connection
    let w := ((w.clearTimer .connect).clearTimer .foreground).clearHealth
    let w := w.debug "socket_close" (details ++ [("clearedPendingPingRequestId", cleared)])
    let w := w.notify (.onStatusChange "disconnected")
    let w := w.notify (.onClose details)
    some (w.closeSocket outcome connection)

def scheduleReconnect (options : Options) (w : World) : World :=
  if w.disposed || (w.timers .reconnect).isSome then
    w
  else
    let w := w.debug "reconnect_scheduled" [("delayMs", .ofInt w.reconnectDelayMs)]
    let w := w.setTimer .reconnect .reconnect w.reconnectDelayMs none
    { w with reconnectDelayMs := min (w.reconnectDelayMs * 2) options.maxReconnectDelayMs }

/-- `env.createSocket(url)`, its new socket under the next number. -/
def createSocket (w : World) : World :=
  { w.setSocket w.socketCount { readyState := .connecting, listening := false } with
    socketCount := w.socketCount + 1 }

/-- The end of `connect`: the new socket becomes the current connection. -/
def adopt (options : Options) (outcome : Outcome) (socket : Nat) (w : World) : World :=
  let connection : Connection := { id := socket, createdAt := outcome.now, opened := false }
  let w := { w with current := some connection }
  let w := w.addEventListeners socket
  w.setTimer .connect (.connectTimeout socket) options.connectTimeoutMs (some socket)

def connect (options : Options) (outcome : Outcome) (w : World) : World :=
  if w.disposed || !w.started || w.current.isSome then
    w
  else
    let w := (w.clearTimer .reconnect).clearHealth
    let w := w.notify (.onStatusChange "connecting")
    let w := w.debug "connect_attempt" [("url", .string options.url)]
    if w.disposed then
      w
    else
      match outcome.createSocketError with
      | some error =>
          let w := w.notify (.onStatusChange "disconnected")
          let w := w.notify (.onError error "connect" options.url)
          w.scheduleReconnect options
      | none =>
          let socket := w.socketCount
          let w := w.createSocket
          if w.disposed then
            w.closeSocket outcome socket
          else
            w.adopt options outcome socket

def recover (options : Options) (outcome : Outcome) (connection : Nat) (reason : String)
    (immediate : Bool) (w : World) : World :=
  match w.retire outcome connection (reasonDetails reason) with
  | none => w
  | some w =>
      if w.disposed then
        w
      else if immediate then
        let w := w.debug "reconnect_now" (reasonDetails reason)
        let w := w.clearTimer .reconnect
        let w := w.resetDelay options
        w.connect options outcome
      else
        w.scheduleReconnect options

def scheduleHealth (options : Options) (outcome : Outcome) (w : World) : World :=
  let w := w.clearTimer .health
  match w.current with
  | none => w
  | some connection =>
      if !w.isCurrent connection.id || w.hidden || w.readyState connection.id != .opened
          || w.pendingPingRequestId.isSome then
        w
      else
        w.setTimer .health .checkHealth
          (options.idlePingDelayMs - (outcome.now - w.lastMessageAt)).toNat (some connection.id)

def activity (options : Options) (outcome : Outcome) (w : World) : World :=
  let w := { w with lastMessageAt := outcome.now, pendingPingRequestId := none }
  (w.clearTimer .pong).scheduleHealth options outcome

/-! ### The listeners of a connection's socket -/

def onOpen (options : Options) (outcome : Outcome) (connection : Nat) (w : World) : World :=
  if !w.isCurrent connection || w.current.any (·.opened) then
    w
  else
    let w := w.markOpened
    let w := (w.clearTimer .connect).clearTimer .foreground
    let w := w.resetDelay options
    let w := w.notify (.onStatusChange "connected")
    let w := w.activity options outcome
    let w := w.debug "socket_open" []
    let w := w.notify (.onOpen connection)
    match outcome.onOpenError with
    | none => w
    | some error =>
        if w.isCurrent connection then w.notify (.onError error "open" options.url) else w

def messageFailed (data : String) (w : World) : World :=
  (w.notify (.onMessageError data)).debug "message_parse_failed" []

def onMessage (options : Options) (outcome : Outcome) (connection : Nat) (data : String)
    (w : World) : World :=
  if !w.isCurrent connection then
    w
  else
    let cleared := w.pendingPingRequestId
    let w := w.activity options outcome
    match options.parse data with
    | none => w.messageFailed data
    | some message =>
        let w :=
          if options.isPong message then
            w.debug "pong_received" [("requestId", member "request_id" message),
              ("clearedPendingPingRequestId", requestIdValue cleared)]
          else if cleared.isSome then
            w.debug "socket_activity_cleared_ping" [("messageType", member "type" message),
              ("clearedPendingPingRequestId", requestIdValue cleared)]
          else
            w
        let w := w.notify (.onMessage message connection)
        if outcome.onMessageThrows then w.messageFailed data else w

def onClose (options : Options) (outcome : Outcome) (connection code : Nat) (reason : String)
    (wasClean : Bool) (w : World) : World :=
  if !w.isCurrent connection then
    w
  else
    match w.retire outcome connection [("code", .ofInt code), ("reason", .string reason),
        ("wasClean", .bool wasClean)] with
    | none => w
    | some w => w.scheduleReconnect options

def onError (options : Options) (outcome : Outcome) (connection : Nat) (event : String)
    (w : World) : World :=
  if !w.isCurrent connection then
    w
  else
    let w := w.debug "socket_error" []
    let w := w.notify (.onError event "socket" options.url)
    w.recover options outcome connection "socket_error" false

def listener (options : Options) (outcome : Outcome) (connection : Nat) (event : SocketEvent)
    (w : World) : World :=
  match event with
  | .opened => w.onOpen options outcome connection
  | .message data => w.onMessage options outcome connection data
  | .close code reason wasClean => w.onClose options outcome connection code reason wasClean
  | .error event => w.onError options outcome connection event

/-- A connecting socket is open from its open event on. -/
def becomeOpen (connection : Nat) (event : SocketEvent) (w : World) : World :=
  match event, w.readyState connection with
  | .opened, .connecting => w.setReadyState connection .opened
  | _, _ => w

def dispatch (options : Options) (outcome : Outcome) (connection : Nat) (event : SocketEvent)
    (w : World) : World :=
  let w := w.becomeOpen connection event
  if (w.sockets connection).listening then
    w.listener options outcome connection event
  else
    w

/-- What the browser does to a socket in the course of `socket.send`. -/
def socketSend (options : Options) (outcome : Outcome) (connection : Nat) (message : Value)
    (w : World) : World :=
  let w := { w with sent := w.sent ++ [(connection, message)] }
  outcome.dispatched.foldl (fun w event => w.dispatch options outcome event.1 event.2) w

def send (options : Options) (outcome : Outcome) (connection : Nat) (message : Value) (w : World) :
    World × Bool :=
  if !w.isCurrent connection || w.readyState connection != .opened then
    (w, false)
  else
    let w := w.socketSend options outcome connection message
    match outcome.sendError with
    | none => (w, true)
    | some error =>
        let w := w.notify (.onError error "send" options.url)
        (w.recover options outcome connection "send_failed" options.immediateTimeoutRecovery, false)

def checkHealth (options : Options) (outcome : Outcome) (source : String) (forcePing : Bool)
    (w : World) : World :=
  if w.disposed || w.hidden then
    w
  else
    match w.current with
    | none => w
    | some connection =>
        if w.readyState connection.id = .closed then
          w.recover options outcome connection.id "health_check_closed_socket" true
        else if w.readyState connection.id = .closing then
          w.recover options outcome connection.id "health_check_closing_socket"
            options.immediateTimeoutRecovery
        else if w.readyState connection.id ≠ .opened ∨ w.pendingPingRequestId.isSome then
          w
        else
          let idle := outcome.now - w.lastMessageAt
          let w := w.debug "health_check_started" [("source", .string source),
            ("forcePing", .bool forcePing), ("idleMs", .ofInt idle)]
          if forcePing = false ∧ idle < options.idlePingDelayMs then
            w.scheduleHealth options outcome
          else
            let w := w.clearTimer .health
            let requestId := outcome.requestId
            let w := { w with pendingPingRequestId := some requestId }
            let w := w.debug "ping_sent" [("source", .string source),
              ("requestId", .string requestId.text), ("timeoutMs", .ofInt options.pongTimeoutMs)]
            let (w, sent) := w.send options outcome connection.id (options.createPing requestId)
            if sent = false then
              w
            -- a message that arrived while sending has answered the ping
            else if w.isCurrent connection.id = false ∨ w.pendingPingRequestId ≠ some requestId then
              w
            else
              w.setTimer .pong (.pongTimeout connection.id requestId) options.pongTimeoutMs
                (some connection.id)

def foreground (options : Options) (outcome : Outcome) (source : String) (w : World) : World :=
  if w.disposed || w.hidden then
    w
  else
    let w := w.debug "foreground_event" [("source", .string source),
      ("visibilityState", w.visibilityState)]
    match w.current with
    | none =>
        let w := w.clearTimer .reconnect
        let w := w.resetDelay options
        w.connect options outcome
    | some connection =>
        match w.readyState connection.id with
        | .closed =>
            let w := (w.retire outcome connection.id
              (reasonDetails "foreground_closed_socket")).getD w
            let w := w.clearTimer .reconnect
            let w := w.resetDelay options
            w.connect options outcome
        | .connecting =>
            match options.foregroundConnectingGraceMs with
            | none => w.resetDelay options
            | some grace =>
                let remaining : Int := grace - (outcome.now - connection.createdAt)
                if 0 < remaining then
                  let w := w.debug "foreground_connecting_grace" [("source", .string source),
                    ("graceRemainingMs", .ofInt remaining)]
                  w.setTimer .foreground (.foreground (source ++ ":connecting_grace_elapsed"))
                    remaining.toNat (some connection.id)
                else
                  w.recover options outcome connection.id "foreground_connecting_stalled" true
        | .opened => (w.clearTimer .foreground).checkHealth options outcome source true
        | .closing => w.recover options outcome connection.id "foreground_non_open_socket" true

def visibilityChange (options : Options) (outcome : Outcome) (w : World) : World :=
  if w.disposed then
    w
  else
    let w := w.debug "visibility_change" [("hidden", .bool w.hidden),
      ("visibilityState", w.visibilityState)]
    if w.hidden then
      let cleared := requestIdValue w.pendingPingRequestId
      let w := w.clearHealth.clearTimer .foreground
      w.debug "backgrounded" [("clearedPendingPingRequestId", cleared)]
    else
      w.foreground options outcome "visibilitychange"

/-- The callback of a timer that is still the one set under its name. -/
def runTask (options : Options) (outcome : Outcome) (task : Task) (w : World) : World :=
  match task with
  | .connectTimeout connection =>
      if w.readyState connection = .opened then
        w
      else
        let w := w.debug "connect_timeout" [("timeoutMs", .ofInt options.connectTimeoutMs)]
        w.recover options outcome connection "connect_timeout" options.immediateTimeoutRecovery
  | .foreground source => w.foreground options outcome source
  | .checkHealth => w.checkHealth options outcome "timer" false
  | .pongTimeout connection requestId =>
      if w.pendingPingRequestId ≠ some requestId then
        w
      else
        let w := w.debug "pong_timeout" [("requestId", .string requestId.text),
          ("timeoutMs", .ofInt options.pongTimeoutMs)]
        w.recover options outcome connection "pong_timeout" options.immediateTimeoutRecovery
  | .reconnect => (w.debug "reconnect_timer_fired" []).connect options outcome

/-- The browser's part in a timeout that is due. -/
def expire (timer : Timer) (w : World) : World :=
  { w with timeouts := w.timeouts.filter (· ≠ timer) }

def deleteTimer (name : TimerName) (w : World) : World :=
  { w with timers := Function.update w.timers name none }

/-- A timeout's own callback, whether or not the browser still has it set. -/
def timerFired (options : Options) (outcome : Outcome) (timer : Timer) (w : World) : World :=
  let w := w.expire timer
  if w.disposed || w.timers timer.name != some timer
      || timer.connection.any (fun connection => !w.isCurrent connection) then
    w
  else
    let w := w.deleteTimer timer.name
    w.runTask options outcome timer.task

def start (options : Options) (outcome : Outcome) (w : World) : World :=
  if w.started || w.disposed then
    w
  else
    ({ w with started := true, listening := true }).connect options outcome

def dispose (outcome : Outcome) (w : World) : World :=
  if w.disposed then
    w
  else
    let w := w.debug "effect_cleanup" []
    let current := w.current
    let w := { w with disposed := true, listening := false }
    let w := w.clearTimers
    let w := { w with current := none }
    match current with
    | none => w
    | some connection => (w.removeEventListeners connection.id).closeSocket outcome connection.id

/-- A socket falls to CLOSING or CLOSED, its close event still to come. -/
def drop (connection : Nat) (closed : Bool) (w : World) : World :=
  w.setReadyState connection (if closed then .closed else .closing)

/-- The page's own events reach the controller while its listeners are attached. -/
def pageEvent (handler : World → World) (w : World) : World :=
  if w.listening then handler w else w

def step (options : Options) (w : World) (event : Event × Outcome) : World :=
  let outcome := event.2
  match event.1 with
  | .start => w.start options outcome
  | .dispose => w.dispose outcome
  | .socket connection event => w.dispatch options outcome connection event
  | .dropped connection closed => w.drop connection closed
  | .openRejected connection error =>
      if w.isCurrent connection then w.notify (.onError error "open" options.url) else w
  | .timer timer => w.timerFired options outcome timer
  | .visibilityChange hidden =>
      ({ w with hidden := hidden }).pageEvent fun w => w.visibilityChange options outcome
  | .focus => w.pageEvent fun w => w.foreground options outcome "focus"
  | .pageShow => w.pageEvent fun w => w.foreground options outcome "pageshow"
  | .send message =>
      match w.current with
      | none => w
      | some connection => (w.send options outcome connection.id message).1
  | .contextSend connection message => (w.send options outcome connection message).1

def run (options : Options) (w : World) (events : List (Event × Outcome)) : World :=
  Runs.run (step options) w events

end World

/-- The controller as `createReconnectingSocket` makes it, in a page that is hidden or not. -/
def createReconnectingSocket (options : Options) (now : Int) (hidden : Bool) : World where
  started := false
  disposed := false
  current := none
  reconnectDelayMs := options.initialReconnectDelayMs
  lastMessageAt := now
  pendingPingRequestId := none
  timers := fun _ => none
  sockets := fun _ => { readyState := .connecting, listening := false }
  socketCount := 0
  hidden := hidden
  listening := false
  timeouts := []
  timeoutCount := 0
  sent := []
  calls := []

end Log73.Frontend.ReconnectingSocket
