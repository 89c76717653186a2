import Log73.BandMap.Spots
import Log73.RadioIo.CwTask

/-!
The task of a managed radio (`radio_manager/cat_runtime.rs`, with `commands.rs` and `rit.rs`):
it connects to the radio, passes on what the radio reports, carries out the commands of the
loggers, and connects again when the connection is lost. A step is what one await of the task
comes back with. The keying task of a connection runs beside it; the texts that are sent to a
radio are numbered in the order in which the task takes them.
-/

namespace Log73.RadioIo

structure RadioStatus where
  online : Bool
  deriving DecidableEq

structure RadioState where
  frequencyHz : Nat
  mode : String
  ritOffsetHz : Int
  deriving DecidableEq

inductive RadioCommand where
  | setFrequency (frequencyHz : Nat)
  | setMode (mode : String)
  | ritClear
  | ritIncrement (hz : Int)
  | ritDecrement (hz : Int)
  | sendText (text : String) (waitForCompletion : Bool)
  | stopKeying
  | setWpm (wpm : UInt8)

/-- The configured modes are given where `radio_cat_rs` can parse their names. -/
structure ManagedConfig where
  dataMode : Option Mode
  rttyMode : Option Mode
  flrigEnabled : Bool

/-! ### What the radio says -/

inductive CatConnectionState where
  | ready
  | error
  | other
  deriving DecidableEq

/-- What a state of `radio_cat_rs` tells about the main receiver. -/
structure CatState where
  connection : CatConnectionState
  frequencyHz : Option Nat
  mode : Option Mode
  ritOffsetHz : Option Int

inductive CatUpdate where
  | update (state : CatState)
  | lagged (latest : CatState)
  | closed

inductive RadioError where
  | unsupportedCapability
  | transport
  | taskStopped
  | commandCanceled
  | other
  deriving DecidableEq

/-- How the radio answers while a command is carried out. `ritXitOffset` is whether an offset can
be written at all. -/
structure CatRadio where
  latestState : CatState
  setMainFrequency : Nat → Except RadioError Unit
  setMainMode : Mode → Except RadioError Unit
  setMainRitEnabled : Except RadioError Unit
  ritXitOffset : Int → Except RadioError Unit
  setMainRitOffset : Int → Except RadioError Unit

def isUnsupportedCapability (error : RadioError) : Bool := error = .unsupportedCapability

def commandErrorRequiresReconnect (error : RadioError) : Bool :=
  error = .transport || error = .taskStopped || error = .commandCanceled

def configuredModeIs (configured : Option Mode) (observed : Mode) : Bool :=
  configured = some observed

def loggerModeFromCatMode [Platform] (mode : Mode) (previous : Option String)
    (config : ManagedConfig) : String :=
  let previous := previous.map Validation.normalizeLoggerMode
  if previous = some "DATA" && configuredModeIs config.dataMode mode then "DATA"
  else if previous = some "RTTY" && configuredModeIs config.rttyMode mode then "RTTY"
  else normalizeMode mode

/-- Nothing is known of a radio before both its frequency and its mode are. -/
def loggerStateFromCatState [Platform] (state : CatState) (previous : Option RadioState)
    (config : ManagedConfig) : Option RadioState := do
  let frequencyHz ← state.frequencyHz.or (previous.map RadioState.frequencyHz)
  let mode ← (state.mode.map fun mode =>
    loggerModeFromCatMode mode (previous.map RadioState.mode) config).or
      (previous.map RadioState.mode)
  some {
    frequencyHz := frequencyHz
    mode := mode
    ritOffsetHz := (state.ritOffsetHz.or (previous.map RadioState.ritOffsetHz)).getD 0 }

/-! ### What the loggers ask for -/

def ssbModeForFrequency [Platform] (frequencyHz : Nat) (bands : List Band) : Mode :=
  match (bandForFrequency bands frequencyHz).map fun band =>
      Validation.normalizeLoggerMode band.defaultSsbMode with
  | some "LSB" => .lsb
  | _ => .usb

def modeCandidatesForRequest [Platform] (requested : String) (frequencyHz : Nat)
    (bands : List Band) (config : ManagedConfig) : List Mode :=
  match Validation.normalizeLoggerMode requested with
  | "CW" => [.cw]
  | "CW-R" => [.cwReverse, .cw]
  | "FM" => [.fm]
  | "AM" => [.am]
  | "SSB" => [ssbModeForFrequency frequencyHz bands]
  | "DATA" => config.dataMode.toList
  | "RTTY" => config.rttyMode.toList
  | _ => []

/-- The nearest `i32`. -/
def saturateI32 (value : Int) : Int := max (-2147483648) (min 2147483647 value)

/-- `as i16` of an `i32` -/
def asI16 (value : Int) : Int := (value + 32768) % 65536 - 32768

def minRitOffsetHz : Int := -9999
def maxRitOffsetHz : Int := 9999

def nextRitOffsetHz (currentOffsetHz deltaHz : Int) : Int :=
  max minRitOffsetHz (min maxRitOffsetHz (saturateI32 (currentOffsetHz + deltaHz)))

/-- Whether the offset was applied. -/
def setRitOffsetHz (cat : CatRadio) (targetOffsetHz : Int) (enableRit : Bool) :
    Except RadioError Bool := do
  if enableRit then
    match cat.setMainRitEnabled with
    | .ok () => pure ()
    | .error error => if isUnsupportedCapability error then pure () else .error error
  cat.ritXitOffset (asI16 targetOffsetHz)
  match cat.setMainRitOffset (asI16 targetOffsetHz) with
  | .ok () => .ok true
  | .error error => if isUnsupportedCapability error then .ok false else .error error

/-! ### The task -/

/-- A connection with its keying task, the commands in that task's channel and the tracked offset.
`base` texts had been taken when it was made. -/
structure CatConnection where
  base : Nat
  task : CwTask
  channel : List CwTaskCommand := []
  flrig : Bool
  lastRitOffsetHz : Int

/-- Where the task is: waiting to connect again, connecting, in the loop of a connection, at the
send of a command to the keying task, at the send of its shutdown, at its join, or past the end. -/
inductive RadioPhase where
  | waiting
  | connecting
  | connected (connection : CatConnection)
  | forwarding (connection : CatConnection) (command : CwTaskCommand)
  | closing (connection : CatConnection) (reconnect : Bool)
  | joining (connection : CatConnection) (reconnect : Bool)
  | returned

/-- The task, what it has published, and what became of the texts it took: those it answered
itself are `rejected`, the others went to the keying task of an ended or the present connection. -/
structure ManagedRadio where
  config : ManagedConfig
  phase : RadioPhase := .connecting
  currentStatus : RadioStatus := { online := false }
  statusUpdates : List RadioStatus := []
  current : Option RadioState := none
  updates : List RadioState := []
  taken : Nat := 0
  rejected : List (Nat × String) := []
  ended : List CatConnection := []

/-- A connection as it is made. -/
structure CatConnected where
  state : CatState
  keyer : Option String
  voicePlayback : Bool

inductive RadioMove where
  | shutdown
  | deadline
  | connect (result : Except String CatConnected)
  | update (update : CatUpdate)
  | command (command : Option RadioCommand) (cat : CatRadio) (bands : List Band)
  | forward
  | receive
  | keyer (move : CwMove)
  | join

/-- The keying task takes commands here. -/
def CwPhase.receives : CwPhase → Bool
  | .receiving | .voicePlayback _ | .busyWait _ | .idleWait _ | .radioCatWait _ => true
  | .sending _ | .exited => false

def CwPhase.over : CwPhase → Bool
  | .exited => true
  | _ => false

/-- The capacity of the channel of a keying task. -/
def cwChannelCapacity : Nat := 32

namespace CatConnection

variable (connection : CatConnection)

/-- The keying task takes the next command of its channel. -/
def receive [Platform] : CatConnection :=
  match connection.channel with
  | [] => connection
  | command :: channel =>
      if connection.task.phase.receives then
        { connection with
          task := connection.task.step (.command (some command)), channel := channel }
      else connection

/-- What the keying task does by itself; its commands come from the channel. -/
def keyer [Platform] (move : CwMove) : CatConnection :=
  match move with
  | .command _ => connection
  | move => { connection with task := connection.task.step move }

end CatConnection

namespace ManagedRadio

variable (radio : ManagedRadio)

def setRadioStatus (online : Bool) : ManagedRadio :=
  if radio.currentStatus.online = online then radio
  else
    { radio with
      currentStatus := { online := online }
      statusUpdates := radio.statusUpdates ++ [{ online := online }] }

def publish (state : RadioState) : ManagedRadio :=
  { radio with current := some state, updates := radio.updates ++ [state] }

def publishCatSnapshot [Platform] (state : CatState) : ManagedRadio :=
  let radio := radio.setRadioStatus (state.connection = .ready)
  match loggerStateFromCatState state radio.current radio.config with
  | none => radio
  | some state => if radio.current = some state then radio else radio.publish state

def publishRequestedLoggerMode [Platform] (requestedMode : String) : ManagedRadio :=
  let requestedMode := Validation.normalizeLoggerMode requestedMode
  match radio.current with
  | none => radio
  | some state =>
      if state.mode = requestedMode then radio
      else radio.publish { state with mode := requestedMode }

def failUnavailableRadioCommand (command : RadioCommand) (reason : String) : ManagedRadio :=
  match command with
  | .sendText _ _ =>
      { radio with taken := radio.taken + 1, rejected := radio.rejected ++ [(radio.taken, reason)] }
  | _ => radio

/-- The candidates are tried until the radio takes one; else the last error remains. -/
def setMode [Platform] (cat : CatRadio) (mode : String) (lastError : Option RadioError) :
    List Mode → Except RadioError Unit × ManagedRadio
  | [] => (lastError.elim (.ok ()) .error, radio)
  | radioMode :: radioModes =>
      match cat.setMainMode radioMode with
      | .ok () => (.ok (), radio.publishRequestedLoggerMode mode)
      | .error error => setMode cat mode (some error) radioModes

def changeRit (cat : CatRadio) (deltaHz : Int) (connection : CatConnection) :
    Except RadioError CatConnection :=
  let currentOffsetHz := connection.lastRitOffsetHz
  let nextOffsetHz := nextRitOffsetHz currentOffsetHz deltaHz
  if nextOffsetHz = currentOffsetHz then .ok connection
  else do
    let applied ← setRitOffsetHz cat nextOffsetHz true
    if applied then .ok { connection with lastRitOffsetHz := nextOffsetHz } else .ok connection

def clearRit (cat : CatRadio) (connection : CatConnection) : Except RadioError CatConnection := do
  let applied ← setRitOffsetHz cat 0 false
  if applied then .ok { connection with lastRitOffsetHz := 0 } else .ok connection

/-- The frequency at which a mode is asked for. -/
def requestFrequencyHz (cat : CatRadio) : Nat :=
  ((radio.current.map RadioState.frequencyHz).or cat.latestState.frequencyHz).getD 14000000

/-- A command that fails leaves the connection's record as it was. -/
def applyCommand [Platform] (cat : CatRadio) (bands : List Band) (command : RadioCommand)
    (connection : CatConnection) : Except RadioError CatConnection × ManagedRadio :=
  match command with
  | .setFrequency frequencyHz => ((cat.setMainFrequency frequencyHz).map fun _ => connection, radio)
  | .setMode mode =>
      let radioModes :=
        modeCandidatesForRequest mode (radio.requestFrequencyHz cat) bands radio.config
      let set := radio.setMode cat mode none radioModes
      (set.1.map fun _ => connection, set.2)
  | .ritClear => (clearRit cat connection, radio)
  | .ritIncrement hz => (changeRit cat hz connection, radio)
  | .ritDecrement hz => (changeRit cat (saturateI32 (-hz)) connection, radio)
  | .sendText _ _ | .stopKeying | .setWpm _ => (.ok connection, radio)

/-- The connection is lost: the loggers are told, and its tasks are shut down. -/
def lose (connection : CatConnection) : ManagedRadio :=
  { radio.setRadioStatus false with phase := .closing connection true }

def connect [Platform] (connected : CatConnected) : ManagedRadio :=
  let radio := radio.publishCatSnapshot connected.state
  { radio with
    phase := .connected {
      base := radio.taken
      task := { keyer := connected.keyer, voicePlayback := connected.voicePlayback }
      flrig := radio.config.flrigEnabled
      lastRitOffsetHz := (radio.current.map RadioState.ritOffsetHz).getD 0 } }

def handleUpdate [Platform] (connection : CatConnection) (update : CatUpdate) : ManagedRadio :=
  match update with
  | .update state =>
      let radio := radio.publishCatSnapshot state
      let connection := { connection with
        lastRitOffsetHz := state.ritOffsetHz.getD connection.lastRitOffsetHz }
      if state.connection = .error then { radio with phase := .closing connection true }
      else { radio with phase := .connected connection }
  | .lagged latest => { radio.publishCatSnapshot latest with phase := .connected connection }
  | .closed => radio.lose connection

/-- What comes of a command that the radio was given. -/
def finishCommand (connection : CatConnection) (result : Except RadioError CatConnection) :
    ManagedRadio :=
  match result with
  | .ok connection => { radio with phase := .connected connection }
  | .error error =>
      if isUnsupportedCapability error then { radio with phase := .connected connection }
      else if commandErrorRequiresReconnect error then radio.lose connection
      else { radio with phase := .connected connection }

def handleCommand [Platform] (connection : CatConnection) (cat : CatRadio) (bands : List Band)
    (command : RadioCommand) : ManagedRadio :=
  match command with
  | .sendText text waitForCompletion =>
      { radio with
        phase := .forwarding connection (.sendText text waitForCompletion)
        taken := radio.taken + 1 }
  | .stopKeying => { radio with phase := .forwarding connection .stop }
  | .setWpm wpm => { radio with phase := .forwarding connection (.setWpm wpm) }
  | command =>
      let applied := radio.applyCommand cat bands command connection
      applied.2.finishCommand connection applied.1

/-- The send of a command to the keying task: it fails when that task is gone, and waits while the
channel is full. -/
def forward (connection : CatConnection) (command : CwTaskCommand) : ManagedRadio :=
  if connection.task.phase.over then
    match command with
    | .sendText _ _ =>
        { radio with
          phase := .connected connection
          rejected := radio.rejected ++ [(radio.taken - 1, "cw task unavailable")] }
    | _ => { radio with phase := .connected connection }
  else if connection.channel.length < cwChannelCapacity then
    { radio with
      phase := .connected { connection with channel := connection.channel ++ [command] } }
  else radio

/-- The first half of `shutdown_cw_task`. -/
def close (connection : CatConnection) (reconnect : Bool) : ManagedRadio :=
  if connection.task.phase.over then { radio with phase := .joining connection reconnect }
  else if connection.channel.length < cwChannelCapacity then
    { radio with
      phase := .joining { connection with channel := connection.channel ++ [.shutdown] } reconnect }
  else radio

/-- The join of the keying task, after which the rest of the connection is shut down. -/
def join (connection : CatConnection) (reconnect : Bool) : ManagedRadio :=
  if connection.task.phase.over then
    { radio with
      phase := if reconnect then .waiting else .returned
      ended := radio.ended ++ [connection] }
  else radio

/-- What the keying task does, in the phases in which there is one. -/
def withConnection (f : CatConnection → CatConnection) : ManagedRadio :=
  match radio.phase with
  | .connected connection => { radio with phase := .connected (f connection) }
  | .forwarding connection command => { radio with phase := .forwarding (f connection) command }
  | .closing connection reconnect => { radio with phase := .closing (f connection) reconnect }
  | .joining connection reconnect => { radio with phase := .joining (f connection) reconnect }
  | .waiting | .connecting | .returned => radio

def step [Platform] (move : RadioMove) : ManagedRadio :=
  match move with
  | .receive => radio.withConnection fun connection => connection.receive
  | .keyer move => radio.withConnection fun connection => connection.keyer move
  | .shutdown =>
      match radio.phase with
      | .waiting | .connecting => { radio with phase := .returned }
      | .connected connection => { radio with phase := .closing connection false }
      | _ => radio
  | .deadline =>
      match radio.phase with
      | .waiting => { radio with phase := .connecting }
      | _ => radio
  | .connect result =>
      match radio.phase, result with
      | .connecting, .ok connected => radio.connect connected
      | .connecting, .error _ => { radio.setRadioStatus false with phase := .waiting }
      | _, _ => radio
  | .update update =>
      match radio.phase with
      | .connected connection => radio.handleUpdate connection update
      | _ => radio
  | .command command cat bands =>
      match radio.phase, command with
      | .waiting, none | .connecting, none => { radio with phase := .returned }
      | .waiting, some command | .connecting, some command =>
          radio.failUnavailableRadioCommand command "radio disconnected"
      | .connected connection, none => { radio with phase := .closing connection false }
      | .connected connection, some command => radio.handleCommand connection cat bands command
      | _, _ => radio
  | .forward =>
      match radio.phase with
      | .forwarding connection command => radio.forward connection command
      | .closing connection reconnect => radio.close connection reconnect
      | _ => radio
  | .join =>
      match radio.phase with
      | .joining connection reconnect => radio.join connection reconnect
      | _ => radio

/-- `run_managed_radio` over the moves it makes. -/
def run [Platform] (moves : List RadioMove) : ManagedRadio :=
  Runs.run (fun radio move => radio.step move) radio moves

end ManagedRadio

end Log73.RadioIo
