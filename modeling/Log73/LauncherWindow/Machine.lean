import Log73.Library.Runs
import Log73.LauncherWindow.Update

/-!
The launcher with the processes it spawns and the tasks it gives out. A move is what the user
presses, a process that exits, or what the next call of a task comes back with.
-/

namespace Log73.LauncherWindow

/-- Where a stop (`attempt_stop`) is: before the signal, while the exit is polled for, or before
the kill. -/
inductive StopPhase where
  | asking
  | polling (gracefulNote : String)
  | killing (gracefulNote : String)

structure StopAttempt where
  child : Nat
  token : Nat
  phase : StopPhase := .asking

/-- What the next call of a stop comes back with. -/
inductive StopAnswer where
  | signalled (result : Except String Unit)
  | polled (result : Except String Unit) (late : Bool)
  | killed (result : Except String Unit)

/-- The launcher and what it has under way: the processes alive, the tasks that wait for an exit,
stop a process or download a file, and the windows it closed. A process is lost when waiting for
it failed, and unstoppable when it could not be checked or killed. -/
structure Machine where
  launcher : Launcher
  spawned : Nat := 0
  alive : List Nat := []
  waits : List (Nat × Nat) := []
  stops : List StopAttempt := []
  downloads : List DownloadKind := []
  closed : List Nat := []
  lost : List Nat := []
  unstoppable : List Nat := []
  ended : Bool := false

def Message.isReport : Message → Bool
  | .downloadFinished _ | .backendExited _ | .stopAttemptFinished _ => true
  | _ => false

inductive Move where
  | press (message : Message) (found : Found)
  | exit (child : Nat)
  | waited (index : Nat) (result : ExitResult) (found : Found)
  | stop (index : Nat) (answer : StopAnswer) (found : Found)
  | downloaded (index : Nat) (result : Except String String) (found : Found)
  | drop (waitFails : Bool)

namespace Machine

variable (machine : Machine)

/-- A task is given out; a process that is to be waited for has just been spawned. -/
def absorb (task : Task) : Machine :=
  match task with
  | .waitForExit child token =>
      { machine with
        spawned := machine.spawned + 1
        alive := machine.alive ++ [child]
        waits := machine.waits ++ [(child, token)] }
  | .attemptStop child token =>
      { machine with stops := machine.stops ++ [{ child := child, token := token }] }
  | .download _ kind => { machine with downloads := machine.downloads ++ [kind] }
  | .close window => { machine with closed := machine.closed ++ [window] }
  | .none | .openAction _ _ => machine

/-- The launcher handles a message; a process it spawns is a new one. -/
def deliver (message : Message) (found : Found) : Machine :=
  let (launcher, task) := machine.launcher.update
    { found with spawned := found.spawned.map fun _ => machine.spawned } message
  { machine with launcher := launcher }.absorb task

def exit (child : Nat) : Machine := { machine with alive := machine.alive.filter (· ≠ child) }

/-- `wait_for_exit` comes back with the exit, or with why it could not wait. -/
def waited (index : Nat) (result : ExitResult) (found : Found) : Machine :=
  match machine.waits[index]? with
  | none => machine
  | some (child, token) =>
      let left := { machine with waits := machine.waits.eraseIdx index }
      match result with
      | .error error =>
          { left with lost := left.lost ++ [child] }.deliver
            (.backendExited { token := token, result := .error error }) found
      | result =>
          if child ∈ machine.alive then machine
          else left.deliver (.backendExited { token := token, result := result }) found

def finishStop (index : Nat) (attempt : StopAttempt) (note : String) (found : Found) : Machine :=
  { machine with stops := machine.stops.eraseIdx index }.deliver
    (.stopAttemptFinished { token := attempt.token, note := note }) found

def moveStop (index : Nat) (attempt : StopAttempt) (phase : StopPhase) : Machine :=
  { machine with stops := machine.stops.set index { attempt with phase := phase } }

def giveUp (child : Nat) : Machine := { machine with unstoppable := machine.unstoppable ++ [child] }

/-- The next step of `attempt_stop`. -/
def stop (index : Nat) (answer : StopAnswer) (found : Found) : Machine :=
  match machine.stops[index]? with
  | none => machine
  | some attempt =>
      match attempt.phase, answer with
      | .asking, .signalled (.ok ()) =>
          machine.moveStop index attempt (.polling "Sent graceful stop signal")
      | .asking, .signalled (.error error) =>
          machine.moveStop index attempt
            (.polling ("Graceful stop unavailable (" ++ error ++ ")"))
      | .polling _, .polled (.error error) _ =>
          (machine.giveUp attempt.child).finishStop index attempt
            ("Failed while checking backend status during stop: " ++ error) found
      | .polling gracefulNote, .polled (.ok ()) late =>
          if attempt.child ∈ machine.alive then
            if late then machine.moveStop index attempt (.killing gracefulNote) else machine
          else machine.finishStop index attempt (gracefulNote ++ "; backend stopped.") found
      | .killing gracefulNote, .killed (.ok ()) =>
          (machine.exit attempt.child).finishStop index attempt
            (gracefulNote ++ "; backend did not stop in time, sent force stop signal.") found
      | .killing gracefulNote, .killed (.error error) =>
          (machine.giveUp attempt.child).finishStop index attempt
            (gracefulNote ++ "; backend did not stop in time and force stop failed: " ++ error)
            found
      | _, _ => machine

def downloaded (index : Nat) (result : Except String String) (found : Found) : Machine :=
  match machine.downloads[index]? with
  | none => machine
  | some kind =>
      { machine with downloads := machine.downloads.eraseIdx index }.deliver
        (.downloadFinished { kind := kind, result := result }) found

/-- The launcher is dropped: it kills its child and waits for it. -/
def drop (waitFails : Bool) : Machine :=
  match machine.launcher.child with
  | none => { machine with ended := true }
  | some child =>
      if waitFails then { machine with ended := true, lost := machine.lost ++ [child] }
      else { machine.exit child with ended := true }

def step (move : Move) : Machine :=
  match move with
  | .exit child => machine.exit child
  | .press message found =>
      if machine.ended || message.isReport then machine else machine.deliver message found
  | .waited index result found =>
      if machine.ended then machine else machine.waited index result found
  | .stop index answer found => if machine.ended then machine else machine.stop index answer found
  | .downloaded index result found =>
      if machine.ended then machine else machine.downloaded index result found
  | .drop waitFails => if machine.ended then machine else machine.drop waitFails

def run (moves : List Move) : Machine := Runs.run step machine moves

end Machine

end Log73.LauncherWindow
