import Log73.RadioIo.CwTask

/-!
The thread that plays the voice messages of a radio (`VoicePlaybackThread` of `voice_keyer.rs`)
beside the keying task, its only client, and the data PTT that the task holds while a message is
played (`radio_manager/voice.rs`). Playbacks are numbered as the task asks for them.
-/

namespace Log73.RadioIo

inductive VoiceCommand where
  | play (play : Nat) (relativePath : String)
  | stop
  | shutdown
  deriving DecidableEq

inductive VoicePhase where
  | receiving
  | playing (play : Nat) (duration : Nat)
  | ended
  deriving DecidableEq

/-- The thread with the commands in its channel and the completions it has sent. -/
structure VoiceThread where
  radioId : Int
  phase : VoicePhase := .receiving
  commands : List VoiceCommand := []
  completed : List (Nat × Except String Nat) := []

namespace VoiceThread

variable (thread : VoiceThread)

def complete (play : Nat) (result : Except String Nat) : VoiceThread :=
  { thread with completed := thread.completed ++ [(play, result)] }

/-- A command in the loop of `run_voice_playback_thread`. The file is opened on the way; its
duration comes back, or what went wrong. -/
def handle (command : VoiceCommand) (opened : Except String Nat) : VoiceThread :=
  match command with
  | .play play _ =>
      match opened with
      | .ok duration => { thread with phase := .playing play duration }
      | .error error => thread.complete play (.error error)
  | .stop => thread
  | .shutdown => { thread with phase := .ended }

/-- A command in the loop of `wait_for_voice_playback`. -/
def handleWhilePlaying (current : Nat) (command : VoiceCommand) : VoiceThread :=
  match command with
  | .stop => { thread.complete current (.error "keying stopped") with phase := .receiving }
  | .shutdown => { thread.complete current (.error "keying shutdown") with phase := .ended }
  | .play play _ =>
      thread.complete play
        (.error ("voice keyer thread for radio " ++ toString thread.radioId ++ " is busy"))

/-- The thread takes the next command from its channel. -/
def receive (opened : Except String Nat) : VoiceThread :=
  match thread.commands with
  | [] => thread
  | command :: commands =>
      match thread.phase with
      | .receiving => { thread with commands := commands }.handle command opened
      | .playing current _ =>
          { thread with commands := commands }.handleWhilePlaying current command
      | .ended => thread

/-- The playback comes to its end. -/
def timeout : VoiceThread :=
  match thread.phase with
  | .playing current duration =>
      { thread.complete current (.ok duration) with phase := .receiving }
  | _ => thread

/-- A command for the thread gets nowhere once it has ended. -/
def send (command : VoiceCommand) : VoiceThread :=
  if thread.phase = .ended then thread
  else { thread with commands := thread.commands ++ [command] }

def result (play : Nat) : Option (Except String Nat) :=
  (thread.completed.find? fun completion => completion.1 = play).map Prod.snd

end VoiceThread

def CwPhase.isVoice : CwPhase → Bool
  | .voicePlayback _ => true
  | _ => false

/-- The keying task with its thread; `plays` counts the playbacks it asked for. `dataPtt` is what
the radio took of the task's wishes, and `guard` whether the task has to release it; a release
that fails is tried once more later on, and given up when that fails too. -/
structure VoiceKeying where
  task : CwTask
  thread : VoiceThread
  plays : Nat := 0
  pttSupported : Bool
  dataPtt : Bool := false
  guard : Bool := false
  failedReleases : Nat := 0
  abandonedReleases : Nat := 0

/-- A move of the task comes with whether the radio takes the PTT command it makes, if any. -/
inductive VoiceMove where
  | task (move : CwMove) (takesPtt : Bool)
  | receive (opened : Except String Nat)
  | timeout
  | release (takesPtt : Bool)

namespace VoiceKeying

variable (keying : VoiceKeying)

/-- What the task hears: of its playback the thread tells it. -/
def heard (move : CwMove) : Option CwMove :=
  match move with
  | .answer mode _ queued =>
      some (.answer mode (if keying.thread.phase = .ended then
        .error "voice keyer thread unavailable" else .ok ()) queued)
  | .playbackDone _ =>
      match keying.thread.result (keying.plays - 1) with
      | some result => some (.playbackDone (some (result.map fun _ => ())))
      | none => if keying.thread.phase = .ended then some (.playbackDone none) else none
  | move => some move

/-- What an event of the task means for the thread. -/
def tell (event : CwEvent) : VoiceKeying :=
  match event with
  | .handed .voice send =>
      { keying with
        thread := keying.thread.send (.play keying.plays (trim send.text))
        plays := keying.plays + 1 }
  | .cleared => { keying with thread := keying.thread.send .stop }
  | _ => keying

/-- `VoiceDataPttGuard`: acquired before a playback and released after it. -/
def movePtt (before after takesPtt : Bool) : VoiceKeying :=
  if !before && after then
    let active := keying.pttSupported && takesPtt
    { keying with dataPtt := keying.dataPtt || active, guard := active }
  else if before && !after && keying.guard then
    if takesPtt then { keying with dataPtt := false, guard := false }
    else { keying with failedReleases := keying.failedReleases + 1, guard := false }
  else keying

/-- A step of the task: what it says reaches the thread, which is shut down after the last. -/
def stepTask [Platform] (move : CwMove) (takesPtt : Bool) : VoiceKeying :=
  let next := keying.task.step move
  let told := (next.log.drop keying.task.log.length).foldl tell { keying with task := next }
  let told := told.movePtt keying.task.phase.isVoice next.phase.isVoice takesPtt
  match keying.task.phase, next.phase with
  | .exited, _ => keying
  | _, .exited => { told with thread := told.thread.send .shutdown }
  | _, _ => told

def step [Platform] (move : VoiceMove) : VoiceKeying :=
  match move with
  | .task move takesPtt => (keying.heard move).elim keying fun move => keying.stepTask move takesPtt
  | .receive opened => { keying with thread := keying.thread.receive opened }
  | .timeout => { keying with thread := keying.thread.timeout }
  | .release takesPtt =>
      if keying.failedReleases = 0 then keying
      else
        let keying := { keying with failedReleases := keying.failedReleases - 1 }
        if takesPtt then { keying with dataPtt := false }
        else { keying with abandonedReleases := keying.abandonedReleases + 1 }

def run [Platform] (moves : List VoiceMove) : VoiceKeying :=
  Runs.run (fun keying move => keying.step move) keying moves

end VoiceKeying

end Log73.RadioIo
