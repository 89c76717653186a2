import Log73.Library.Runs
import Log73.Validation.Exchange

/-!
The keying task of a radio (`radio_manager/cw_task.rs`). A step is what one await of the task
comes back with: a command, an answer of the keyer, or the end of a wait. What a move says that
the task is not waiting for changes nothing; in particular a command stays in its channel until
the task receives.
-/

namespace Log73.RadioIo

/-- The radio's modes, `radio_cat_rs::Mode`. -/
inductive Mode where
  | lsb | usb | cw | cwReverse | fm | wfm | am | rtty | rttyReverse | psk | pskReverse
  | dataLsb | dataUsb | dataFm | dataAm | digitalVoice
  deriving DecidableEq

def normalizeMode : Mode → String
  | .lsb | .usb => "SSB"
  | .cw => "CW"
  | .cwReverse => "CW-R"
  | .fm | .wfm => "FM"
  | .am => "AM"
  | .rtty | .rttyReverse => "RTTY"
  | .psk | .pskReverse | .dataLsb | .dataUsb | .dataFm | .dataAm | .digitalVoice => "DATA"

def modeIsPhone [Platform] (mode : String) : Bool :=
  let normalized := Validation.normalizeLoggerMode mode
  normalized = "SSB" || normalized = "FM" || normalized = "AM"

inductive CwTaskCommand where
  | sendText (text : String) (waitForCompletion : Bool)
  | stop
  | setWpm (wpm : UInt8)
  | shutdown
  deriving DecidableEq

/-- A text with the number of its completion channel. -/
structure PendingCwSend where
  completed : Nat
  text : String
  waitForCompletion : Bool
  deriving DecidableEq

inductive CwSendCompletion where
  | pollStatus (waitForBusy : Bool)
  | radioCatUpdates

/-- What the radio's update channel brings about its keyer. -/
inductive KeyerUpdate where
  | update (keyerSending : Bool) (sending : Option Bool)
  | lagged (sending : Option Bool)
  | closed

inductive KeyerKind where
  | cw
  | voice
  deriving DecidableEq

/-- What the task does for others to see, in the order it does it. -/
inductive CwEvent where
  | accepted (send : PendingCwSend)
  | handed (keyer : KeyerKind) (send : PendingCwSend)
  | completed (send : Nat) (result : Except String Unit)
  | stopped
  | shutDown
  | cleared
  | wpm (wpm : UInt8)

/-- Where the task is: at the head of its loop, before the send of a text, in one of the loops
that wait for the end of a send, or past the end. -/
inductive CwPhase where
  | receiving
  | sending (send : PendingCwSend)
  | voicePlayback (send : PendingCwSend)
  | busyWait (send : PendingCwSend)
  | idleWait (send : PendingCwSend)
  | radioCatWait (send : PendingCwSend)
  | exited

structure WaitContext where
  stopReason : String
  shutdownReason : String

inductive WaitCommandEffect where
  | continue
  | setWpm (wpm : UInt8)
  | interrupt (reason : String)

/-- The task with the keyer it is configured with, if any, and whether it has a thread for voice
playback. `received` counts the texts it has taken from its channel. -/
structure CwTask where
  keyer : Option String
  voicePlayback : Bool
  phase : CwPhase := .receiving
  pending : List PendingCwSend := []
  received : Nat := 0
  log : List CwEvent := []

/-- What an await of the task comes back with. A command is absent once every sender is gone;
`answer` is what the radio, the voice keyer and the keyer say to a text that is sent. -/
inductive CwMove where
  | command (command : Option CwTaskCommand)
  | answer (mode : Option Mode) (play : Except String Unit)
      (queued : Except String CwSendCompletion)
  | playbackDone (result : Option (Except String Unit))
  | deadline
  | status (answer : Except String (Option Bool))
  | update (update : KeyerUpdate)

namespace CwTask

def record (event : CwEvent) (task : CwTask) : CwTask :=
  { task with log := task.log ++ [event] }

/-- The text that a `SendText` brings, taken from the channel. -/
def incoming (text : String) (waitForCompletion : Bool) (task : CwTask) : PendingCwSend :=
  { completed := task.received, text := text, waitForCompletion := waitForCompletion }

def accept (send : PendingCwSend) (task : CwTask) : CwTask :=
  { task.record (.accepted send) with received := task.received + 1 }

def failPendingCwSends (reason : String) (task : CwTask) : CwTask :=
  { task with
    pending := []
    log := task.log ++ task.pending.map fun send => .completed send.completed (.error reason) }

/-- `CwController::stop` -/
def stop (task : CwTask) : CwTask := task.record .cleared

/-- `CwController::set_wpm`, whose errors are logged only. -/
def setWpm (wpm : UInt8) (task : CwTask) : CwTask := task.record (.wpm wpm)

/-- The head of the loop of `run_cw_task`. -/
def nextSend (task : CwTask) : CwTask :=
  match task.pending with
  | send :: pending => { task with phase := .sending send, pending := pending }
  | [] => { task with phase := .receiving }

def isShutdown : Except String Unit → Bool
  | .error reason => reason = "cw shutdown" || reason = "keying shutdown"
  | .ok () => false

/-- The end of the loop of `run_cw_task`. -/
def finish (send : PendingCwSend) (result : Except String Unit) (task : CwTask) : CwTask :=
  let task := task.record (.completed send.completed result)
  if isShutdown result then { task with phase := .exited } else task.nextSend

def handleWaitCommand (command : Option CwTaskCommand) (context : WaitContext) (task : CwTask) :
    CwTask × WaitCommandEffect :=
  match command with
  | some .stop =>
      ((task.failPendingCwSends context.stopReason).record .stopped,
        .interrupt context.stopReason)
  | some (.setWpm wpm) => (task, .setWpm wpm)
  | some .shutdown | none =>
      ((task.failPendingCwSends context.shutdownReason).record .shutDown,
        .interrupt context.shutdownReason)
  | some (.sendText text waitForCompletion) =>
      let send := task.incoming text waitForCompletion
      let task := task.accept send
      ({ task with pending := task.pending ++ [send] }, .continue)

def applyWaitCommand (command : Option CwTaskCommand) (context : WaitContext) (task : CwTask) :
    CwTask × Except String Unit :=
  match task.handleWaitCommand command context with
  | (task, .continue) => (task, .ok ())
  | (task, .setWpm wpm) => (task.setWpm wpm, .ok ())
  | (task, .interrupt reason) => (task.stop, .error reason)

/-- A command that a waiting loop receives ends the send or lets the loop go on. -/
def waitCommand (send : PendingCwSend) (command : Option CwTaskCommand) (context : WaitContext)
    (task : CwTask) : CwTask :=
  match task.applyWaitCommand command context with
  | (task, .ok ()) => task
  | (task, .error reason) => task.finish send (.error reason)

def cwContext : WaitContext where
  stopReason := "cw stopped"
  shutdownReason := "cw shutdown"

def voiceContext : WaitContext where
  stopReason := "keying stopped"
  shutdownReason := "keying shutdown"

def keyerStatus (answer : Except String (Option Bool)) (task : CwTask) : Except String Bool :=
  match task.keyer with
  | none => .error "cw keyer unavailable"
  | some name =>
      match answer with
      | .error error => .error error
      | .ok (some busy) => .ok busy
      | .ok none => .error (name ++ " keyer does not report status")

def waitUntilVoicePlaybackDoneOrStopped (send : PendingCwSend) (move : CwMove) (task : CwTask) :
    CwTask :=
  match move with
  | .playbackDone (some result) => task.finish send result
  | .playbackDone none => task.finish send (.error "voice keyer thread unavailable")
  | .command command => task.waitCommand send command voiceContext
  | _ => task

def waitUntilBusyOrStopped (send : PendingCwSend) (move : CwMove) (task : CwTask) : CwTask :=
  match move with
  | .command command => task.waitCommand send command cwContext
  | .deadline => task.finish send (.error "cw keyer did not become busy")
  | .status answer =>
      match task.keyerStatus answer with
      | .ok true => { task with phase := .idleWait send }
      | .ok false => task
      | .error error => task.finish send (.error error)
  | _ => task

def waitUntilIdleOrStopped (send : PendingCwSend) (move : CwMove) (task : CwTask) : CwTask :=
  match move with
  | .command command => task.waitCommand send command cwContext
  | .status answer =>
      match task.keyerStatus answer with
      | .ok false => task.finish send (.ok ())
      | .ok true => task
      | .error error => task.finish send (.error error)
  | _ => task

def waitUntilRadioCatCwCompleteOrStopped (send : PendingCwSend) (move : CwMove) (task : CwTask) :
    CwTask :=
  match move with
  | .command command => task.waitCommand send command cwContext
  | .update (.update true (some false)) | .update (.lagged (some false)) =>
      task.finish send (.ok ())
  | .update .closed => task.finish send (.error "radio-cat cw completion updates unavailable")
  | _ => task

def sendVoiceFile (send : PendingCwSend) (play : Except String Unit) (task : CwTask) : CwTask :=
  if task.voicePlayback then
    let task := task.record (.handed .voice send)
    match play with
    | .error error => task.finish send (.error error)
    | .ok () => { task with phase := .voicePlayback send }
  else
    task.finish send (.error "voice keyer thread unavailable")

def sendText [Platform] (send : PendingCwSend) (mode : Option Mode) (play : Except String Unit)
    (queued : Except String CwSendCompletion) (task : CwTask) : CwTask :=
  if (trim send.text).isEmpty then
    task.finish send (.ok ())
  else if (mode.map normalizeMode).any modeIsPhone then
    task.sendVoiceFile send play
  else
    match task.keyer with
    | none => task.finish send (.error "cw keyer unavailable")
    | some _ =>
        let task := task.record (.handed .cw send)
        match queued with
        | .error error => task.finish send (.error error)
        | .ok completion =>
            if !send.waitForCompletion then
              task.finish send (.ok ())
            else
              match completion with
              | .pollStatus true => { task with phase := .busyWait send }
              | .pollStatus false => { task with phase := .idleWait send }
              | .radioCatUpdates => { task with phase := .radioCatWait send }

/-- A command that the loop of `run_cw_task` receives, with nothing pending. -/
def receive (command : Option CwTaskCommand) (task : CwTask) : CwTask :=
  match command with
  | some (.sendText text waitForCompletion) =>
      let send := task.incoming text waitForCompletion
      { task.accept send with phase := .sending send }
  | some .stop => task.stop.record .stopped
  | some (.setWpm wpm) => task.setWpm wpm
  | some .shutdown | none =>
      { (task.failPendingCwSends "cw shutdown").record .shutDown with phase := .exited }

def step [Platform] (task : CwTask) (move : CwMove) : CwTask :=
  match task.phase with
  | .receiving =>
      match move with
      | .command command => task.receive command
      | _ => task
  | .sending send =>
      match move with
      | .answer mode play queued => task.sendText send mode play queued
      | _ => task
  | .voicePlayback send => task.waitUntilVoicePlaybackDoneOrStopped send move
  | .busyWait send => task.waitUntilBusyOrStopped send move
  | .idleWait send => task.waitUntilIdleOrStopped send move
  | .radioCatWait send => task.waitUntilRadioCatCwCompleteOrStopped send move
  | .exited => task

/-- `run_cw_task` over the moves it makes. -/
def run [Platform] (task : CwTask) (moves : List CwMove) : CwTask := Runs.run step task moves

end CwTask

end Log73.RadioIo
