import Log73.Text
import Log73.Library.Runs

/-!
Texts to a DX cluster (`DxClusterManager` of `dxcluster.rs`): calls of `send_text` and of
`apply_config`, each with its awaits in between, and the listener tasks they start, abort and leave
behind. A task has the receiver of one channel, and a command holds the sender of its answer.
-/

namespace Log73.DxCluster

structure DxClusterConfig where
  enabled : Bool
  host : String
  port : Nat
  callsign : String

def listenerReconnecting : String := "DX Cluster listener is currently reconnecting"

def listenerNotRunning : String := "DX Cluster listener is not running"

def listenerStopped : String := "DX Cluster listener stopped before sending text"

inductive DxClusterConnectionState where
  | stopped
  | connecting
  | connected
  | reconnecting
  deriving DecidableEq

inductive DxClusterTaskOutcome where
  | reconnect
  | channelClosed
  deriving DecidableEq

/-- Where `run_dxcluster_task` waits; `again` is its `connected_once`. -/
inductive TaskPhase where
  | unspawned
  | spawned
  | opening (again : Bool)
  | connecting
  | connected
  | listening
  | joining (outcome : DxClusterTaskOutcome)
  | scheduling
  | waiting
  | stopping
  | ended
  deriving DecidableEq

/-- A task with the commands in its channel, by the calls that sent them; `accepted` are those
that came into the channel, and `sent` those whose text the listener took. -/
structure ListenerTask where
  config : DxClusterConfig
  phase : TaskPhase := .unspawned
  aborted : Bool := false
  queue : List Nat := []
  accepted : List Nat := []
  sent : List Nat := []

/-- The oneshot channel of an answer. -/
inductive Completion where
  | empty
  | value (result : Except String Unit)
  | dropped

/-- What the call finds when it is woken. -/
def Completion.outcome : Completion → Option (Except String Unit)
  | .empty => none
  | .value result => some result
  | .dropped => some (.error listenerStopped)

/-- Where a call of `send_text` is; from `sending` on it has a sender of the channel. -/
inductive SendPhase where
  | starting
  | choosing
  | sending (channel : Nat)
  | waiting (channel : Nat)
  | answered (result : Except String Unit)
  | abandoned

structure SendCall where
  text : String
  phase : SendPhase := .starting
  completed : Completion := .empty

inductive ApplyPhase where
  | stopping
  | clearing
  | aborting
  | opening
  | marking (task : Nat)
  | storing (task : Nat)
  | done

/-- A call of `apply_config`. -/
structure ApplyCall where
  config : DxClusterConfig
  phase : ApplyPhase := .stopping

/-- `tasks` has every task there was, by the number of its channel. -/
structure DxClusterManager where
  connectionState : DxClusterConnectionState := .stopped
  outbound : Option Nat := none
  task : Option Nat := none
  tasks : List ListenerTask := []
  calls : List SendCall := []
  applies : List ApplyCall := []

/-- What a task waits for. -/
inductive TaskEvent where
  | proceed
  | listen (result : Except String Unit)
  | lineClosed
  | tick (running : Bool)
  | command (result : Except String Unit)
  | deadline

inductive ClusterMove where
  | send (text : String)
  | call (index : Nat)
  | dropCall (index : Nat)
  | apply (config : DxClusterConfig)
  | applyStep (index : Nat)
  | dropApply (index : Nat)
  | task (index : Nat) (event : TaskEvent)
  | cancel (index : Nat)

/-- A listener is started for no other configuration. -/
def DxClusterConfig.usable (config : DxClusterConfig) : Bool :=
  !(trim config.host).isEmpty && config.port != 0 && !(trim config.callsign).isEmpty

def SendPhase.holds (channel : Nat) : SendPhase → Bool
  | .sending held | .waiting held => held = channel
  | _ => false

namespace DxClusterManager

variable (cluster : DxClusterManager)

def adjustTask (index : Nat) (change : ListenerTask → ListenerTask) : DxClusterManager :=
  { cluster with tasks := cluster.tasks.modify index change }

def adjustCall (index : Nat) (change : SendCall → SendCall) : DxClusterManager :=
  { cluster with calls := cluster.calls.modify index change }

def enter (index : Nat) (phase : TaskPhase) : DxClusterManager :=
  cluster.adjustTask index fun task => { task with phase := phase }

def answer (index : Nat) (result : Except String Unit) : DxClusterManager :=
  cluster.adjustCall index fun call => { call with phase := .answered result }

/-- The receiver of a channel goes, and the commands in it with the senders of their answers. -/
def endTask (index : Nat) : DxClusterManager :=
  match cluster.tasks[index]? with
  | none => cluster
  | some task =>
      { cluster with
        tasks := cluster.tasks.modify index fun task => { task with phase := .ended, queue := [] }
        calls := cluster.calls.mapIdx fun number call =>
          if number ∈ task.queue then { call with completed := .dropped } else call }

/-- A sender of the channel is left. -/
def isOpen (channel : Nat) : Bool :=
  cluster.outbound = some channel || cluster.calls.any fun call => call.phase.holds channel

/-! ### The manager -/

def sendStep (index : Nat) (call : SendCall) : DxClusterManager :=
  match call.phase with
  | .starting =>
      if cluster.connectionState = .connecting ∨ cluster.connectionState = .reconnecting then
        cluster.answer index (.error listenerReconnecting)
      else cluster.adjustCall index fun call => { call with phase := .choosing }
  | .choosing =>
      match cluster.outbound with
      | none => cluster.answer index (.error listenerNotRunning)
      | some channel => cluster.adjustCall index fun call => { call with phase := .sending channel }
  | .sending channel =>
      match cluster.tasks[channel]? with
      | none => cluster
      | some task =>
          if task.phase = .ended then cluster.answer index (.error listenerNotRunning)
          else if task.queue.length < 64 then
            (cluster.adjustTask channel fun task =>
              { task with queue := task.queue ++ [index], accepted := task.accepted ++ [index] }
              ).adjustCall index fun call => { call with phase := .waiting channel }
          else cluster
  | .waiting _ =>
      match call.completed.outcome with
      | none => cluster
      | some result => cluster.answer index result
  | .answered _ | .abandoned => cluster

def applyStep (index : Nat) (apply : ApplyCall) : DxClusterManager :=
  let next (phase : ApplyPhase) : List ApplyCall :=
    cluster.applies.modify index fun apply => { apply with phase := phase }
  match apply.phase with
  | .stopping => { cluster with connectionState := .stopped, applies := next .clearing }
  | .clearing => { cluster with outbound := none, applies := next .aborting }
  | .aborting =>
      let applies := next (if apply.config.enabled then .opening else .done)
      match cluster.task with
      | none => { cluster with applies := applies }
      | some task =>
          { cluster with task := none, applies := applies }.adjustTask task fun task =>
            { task with aborted := true }
  | .opening =>
      { cluster with
        outbound := some cluster.tasks.length
        tasks := cluster.tasks ++ [{ config := apply.config }]
        applies := next (.marking cluster.tasks.length) }
  | .marking task =>
      { cluster with connectionState := .connecting, applies := next (.storing task) }.enter task
        .spawned
  | .storing task => { cluster with task := some task, applies := next .done }
  | .done => cluster

/-- A call of `apply_config` that is given up; it may have a receiver that no task has got. -/
def dropApply (index : Nat) (apply : ApplyCall) : DxClusterManager :=
  let dropped : DxClusterManager := { cluster with
    applies := cluster.applies.modify index fun apply => { apply with phase := .done } }
  match apply.phase with
  | .marking task => dropped.endTask task
  | _ => dropped

/-! ### The listener task -/

/-- The next command of a channel is answered, and its text sent if the answer says so. -/
def complete (index : Nat) (task : ListenerTask) (number : Nat) (result : Except String Unit) :
    DxClusterManager :=
  let sent := match result with
    | .ok _ => task.sent ++ [number]
    | .error _ => task.sent
  (cluster.adjustTask index fun task => { task with queue := task.queue.tail, sent := sent }
    ).adjustCall number fun call => { call with completed := .value result }

/-- What is received from the channel: a command, or that no sender is left. -/
def receive (index : Nat) (task : ListenerTask) (result : Except String Unit) (closed : TaskPhase) :
    DxClusterManager :=
  match task.queue.head? with
  | some number => cluster.complete index task number result
  | none => if cluster.isOpen index then cluster else cluster.enter index closed

def taskStep (index : Nat) (task : ListenerTask) (event : TaskEvent) : DxClusterManager :=
  match task.phase, event with
  | .spawned, .proceed =>
      if task.config.usable then cluster.enter index (.opening false)
      else { cluster with connectionState := .stopped }.endTask index
  | .opening again, .proceed =>
      { cluster with connectionState := if again then .reconnecting else .connecting }.enter index
        .connecting
  | .connecting, .listen (.error _) => cluster.enter index .scheduling
  | .connecting, .listen (.ok _) => cluster.enter index .connected
  | .connected, .proceed => { cluster with connectionState := .connected }.enter index .listening
  | .listening, .lineClosed => cluster.enter index (.joining .reconnect)
  | .listening, .tick running =>
      if running then cluster else cluster.enter index (.joining .reconnect)
  | .listening, .command result => cluster.receive index task result (.joining .channelClosed)
  | .joining .reconnect, .proceed => cluster.enter index .scheduling
  | .joining .channelClosed, .proceed => cluster.enter index .stopping
  | .scheduling, .proceed =>
      { cluster with connectionState := .reconnecting }.enter index .waiting
  | .waiting, .deadline => cluster.enter index (.opening true)
  | .waiting, .command _ => cluster.receive index task (.error listenerReconnecting) .stopping
  | .stopping, .proceed => { cluster with connectionState := .stopped }.endTask index
  | _, _ => cluster

def step : ClusterMove → DxClusterManager
  | .send text => { cluster with calls := cluster.calls ++ [{ text := text }] }
  | .call index =>
      match cluster.calls[index]? with
      | some call => cluster.sendStep index call
      | none => cluster
  | .dropCall index =>
      match cluster.calls[index]? with
      | some { phase := .answered _, .. } | none => cluster
      | some _ => cluster.adjustCall index fun call => { call with phase := .abandoned }
  | .apply config => { cluster with applies := cluster.applies ++ [{ config := config }] }
  | .applyStep index =>
      match cluster.applies[index]? with
      | some apply => cluster.applyStep index apply
      | none => cluster
  | .dropApply index =>
      match cluster.applies[index]? with
      | some apply => cluster.dropApply index apply
      | none => cluster
  | .task index event =>
      match cluster.tasks[index]? with
      | some task => cluster.taskStep index task event
      | none => cluster
  | .cancel index =>
      match cluster.tasks[index]? with
      | some task => if task.aborted then cluster.endTask index else cluster
      | none => cluster

def run (moves : List ClusterMove) : DxClusterManager := Runs.run step cluster moves

end DxClusterManager

end Log73.DxCluster
