import Log73.Library.Runs
import Log73.Library.TreeMap

/-!
The managed radios of `radio_manager/lifecycle.rs`: calls of `acquire` and `release` in
steps between which they hold no lock. A call that is over is dropped from the state.
-/

namespace Log73.RadioIo

open Std (ExtTreeMap)

/-- A notification is told by its number. -/
inductive ManagedRadioSlot where
  | active (task refcount : Nat)
  | shuttingDown (done : Nat)
  deriving DecidableEq

/-- Where a call of `acquire` is: at the head of its loop, past a slot that shuts down, waiting
for the notification, with its configuration at the worker, or with it validated. -/
inductive AcquirePhase where
  | entered
  | found (done : Nat)
  | waiting (done : Nat)
  | validating
  | validated
  deriving DecidableEq

structure AcquireCall where
  radioId : Int
  phase : AcquirePhase
  deriving DecidableEq

/-- Where the call of `release` is that shuts a radio down. -/
inductive ReleasePhase where
  | stopping (task : Nat)
  | stopped
  | notified
  deriving DecidableEq

structure ReleaseCall where
  radioId : Int
  done : Nat
  phase : ReleasePhase
  deriving DecidableEq

/-- The slots under the lock, the calls on their way, the handles that were given out and not
released, and the radio of each task that runs. -/
structure RadioManager where
  radios : ExtTreeMap Int ManagedRadioSlot := ∅
  acquires : ExtTreeMap Nat AcquireCall := ∅
  releases : ExtTreeMap Nat ReleaseCall := ∅
  handles : List Int := []
  tasks : ExtTreeMap Nat Int := ∅
  nextId : Nat := 0

inductive RadioAction where
  | acquire (radioId : Int)
  | lookUp (call : Nat)
  | awaitShutdown (call : Nat)
  | validate (call : Nat) (available : Bool)
  | install (call : Nat)
  | release (radioId : Int)
  | endTask (task : Nat)
  | joinTask (call : Nat)
  | notify (call : Nat)
  | removeSlot (call : Nat)

namespace RadioManager

variable (manager : RadioManager)

def putAcquire (call : Nat) (radioId : Int) (phase : AcquirePhase) : RadioManager :=
  { manager with acquires := manager.acquires.insert call { radioId := radioId, phase := phase } }

/-- A call of `acquire` begins. -/
def acquire (radioId : Int) : RadioManager :=
  { manager.putAcquire manager.nextId radioId .entered with nextId := manager.nextId + 1 }

/-- The call takes a reference to an active radio, and returns. -/
def takeReference (call : Nat) (radioId : Int) (task refcount : Nat) : RadioManager :=
  { manager with
    radios := manager.radios.insert radioId (.active task (refcount + 1))
    acquires := manager.acquires.erase call
    handles := radioId :: manager.handles }

/-- The first look at the slot, under the lock. -/
def lookUp (call : Nat) : RadioManager :=
  match manager.acquires[call]? with
  | some { radioId, phase := .entered } =>
      match manager.radios[radioId]? with
      | some (.active task refcount) => manager.takeReference call radioId task refcount
      | some (.shuttingDown done) => manager.putAcquire call radioId (.found done)
      | none => manager.putAcquire call radioId .validating
  | _ => manager

/-- The call starts to wait; a notification that was given before does not wake it. -/
def awaitShutdown (call : Nat) : RadioManager :=
  match manager.acquires[call]? with
  | some { radioId, phase := .found done } => manager.putAcquire call radioId (.waiting done)
  | _ => manager

/-- The configuration comes back from the worker, or the call fails. -/
def validate (call : Nat) (available : Bool) : RadioManager :=
  match manager.acquires[call]? with
  | some { radioId, phase := .validating } =>
      if available then manager.putAcquire call radioId .validated
      else { manager with acquires := manager.acquires.erase call }
  | _ => manager

/-- The second look at the slot; when there is none a task is started. -/
def install (call : Nat) : RadioManager :=
  match manager.acquires[call]? with
  | some { radioId, phase := .validated } =>
      match manager.radios[radioId]? with
      | some (.active task refcount) => manager.takeReference call radioId task refcount
      | some (.shuttingDown done) => manager.putAcquire call radioId (.found done)
      | none =>
          { manager with
            radios := manager.radios.insert radioId (.active manager.nextId 1)
            acquires := manager.acquires.erase call
            handles := radioId :: manager.handles
            tasks := manager.tasks.insert manager.nextId radioId
            nextId := manager.nextId + 1 }
  | _ => manager

/-- A handle is given back. The last reference leaves a slot that shuts down. -/
def release (radioId : Int) : RadioManager :=
  if radioId ∈ manager.handles then
    let manager : RadioManager := { manager with handles := manager.handles.erase radioId }
    match manager.radios[radioId]? with
    | some (.active task refcount) =>
        if refcount - 1 = 0 then
          { manager with
            radios := manager.radios.insert radioId (.shuttingDown manager.nextId)
            releases := manager.releases.insert (manager.nextId + 1)
              { radioId := radioId, done := manager.nextId, phase := .stopping task }
            nextId := manager.nextId + 2 }
        else { manager with radios := manager.radios.insert radioId (.active task (refcount - 1)) }
    | _ => manager
  else manager

/-- A task comes to its end, when it is told to or before. -/
def endTask (task : Nat) : RadioManager := { manager with tasks := manager.tasks.erase task }

def putRelease (call : Nat) (release : ReleaseCall) : RadioManager :=
  { manager with releases := manager.releases.insert call release }

/-- `release` goes on once the task has ended. -/
def joinTask (call : Nat) : RadioManager :=
  match manager.releases[call]? with
  | some { radioId, done, phase := .stopping task } =>
      if manager.tasks.contains task then manager
      else manager.putRelease call { radioId := radioId, done := done, phase := .stopped }
  | _ => manager

/-- `notify_waiters`: only the calls that wait now are woken. -/
def notify (call : Nat) : RadioManager :=
  match manager.releases[call]? with
  | some { radioId, done, phase := .stopped } =>
      { manager.putRelease call { radioId := radioId, done := done, phase := .notified } with
        acquires := manager.acquires.map fun _ acquire =>
          if acquire.phase = .waiting done then { acquire with phase := .entered } else acquire }
  | _ => manager

/-- The slot is removed under the lock. -/
def removeSlot (call : Nat) : RadioManager :=
  match manager.releases[call]? with
  | some { radioId, phase := .notified, .. } =>
      let manager : RadioManager := { manager with releases := manager.releases.erase call }
      match manager.radios[radioId]? with
      | some (.shuttingDown _) => { manager with radios := manager.radios.erase radioId }
      | _ => manager
  | _ => manager

def step (action : RadioAction) : RadioManager :=
  match action with
  | .acquire radioId => manager.acquire radioId
  | .lookUp call => manager.lookUp call
  | .awaitShutdown call => manager.awaitShutdown call
  | .validate call available => manager.validate call available
  | .install call => manager.install call
  | .release radioId => manager.release radioId
  | .endTask task => manager.endTask task
  | .joinTask call => manager.joinTask call
  | .notify call => manager.notify call
  | .removeSlot call => manager.removeSlot call

def run (actions : List RadioAction) : RadioManager := Runs.run step manager actions

end RadioManager

end Log73.RadioIo
