import Log73.Library.Runs
import Log73.Library.TreeMap
import Log73.Text

/-!
The listener managers of `wsjtx.rs` and `digital_io.rs`: the registrations and the target of a
radio under the lock, and the controllers, which go on after their slot was removed. Both
managers keep the same state; they differ in what their controllers do.
-/

namespace Log73.RadioIo

open Std (ExtTreeMap)

/-- The settings of a radio that decide when a listener runs. -/
structure RadioConfig where
  wsjtxEnabled : Bool
  fldigiDataEnabled : Bool
  fldigiRttyEnabled : Bool

structure LoggerRegistration where
  logId : Int
  refcount : Nat

structure ListenerTarget where
  loggerId : String
  logId : Int
  deriving DecidableEq

structure TargetState where
  radioId : Int
  loggerId : Option String
  logId : Option Int

structure ManagedListener where
  registrations : ExtTreeMap String LoggerRegistration
  target : Option ListenerTarget
  task : Nat

/-- A controller task: the target it watches, and what it runs. -/
structure Controller (ρ : Type) where
  radioId : Int
  config : RadioConfig
  mode : String
  target : Option ListenerTarget
  running : Option ρ

/-- A controller whose slot was removed, and whose end is awaited. -/
structure Closing where
  radioId : Int
  task : Nat
  deriving DecidableEq

/-- What the controllers of a manager run, and whether they look at it again when a radio
reports the mode it had. -/
structure ListenerRules (ρ : Type) where
  reconcile (available : Bool) (config : RadioConfig) (mode : String)
    (target : Option ListenerTarget) (running : Option ρ) : Option ρ
  skipsSameMode : Bool

structure ListenerManager (ρ : Type) where
  listeners : ExtTreeMap Int ManagedListener := ∅
  controllers : ExtTreeMap Nat (Controller ρ) := ∅
  closing : List Closing := []
  nextTask : Nat := 0

inductive ListenerAction where
  | acquire (radioId : Int) (loggerId : String) (logId : Int) (config : RadioConfig)
      (initialMode : String)
  | release (radioId : Int) (loggerId : String)
  | setTarget (radioId : Int) (loggerId : String) (enabled : Bool)
  | shutdownAll
  | radioUpdate (task : Nat) (mode : String) (available : Bool)
  | reconcile (task : Nat) (available : Bool)
  | endController (task : Nat)
  | finishShutdown (closing : Closing)

def targetState (radioId : Int) (target : Option ListenerTarget) : TargetState :=
  { radioId := radioId, loggerId := target.map (·.loggerId), logId := target.map (·.logId) }

def noTargetState (radioId : Int) : TargetState := targetState radioId none

/-- One more reference of a logger, for the log it is registered for. -/
def registerListener (registrations : ExtTreeMap String LoggerRegistration) (loggerId : String)
    (logId : Int) : Except String (ExtTreeMap String LoggerRegistration) :=
  match registrations[loggerId]? with
  | some registration =>
      if registration.logId ≠ logId then
        .error ("logger " ++ loggerId ++ " is already registered for log "
          ++ toString registration.logId)
      else
        .ok (registrations.insert loggerId
          { registration with refcount := registration.refcount + 1 })
  | none => .ok (registrations.insert loggerId { logId := logId, refcount := 1 })

/-- One reference less; the last one takes the registration with it. -/
def dropReference (registrations : ExtTreeMap String LoggerRegistration) (loggerId : String) :
    Bool × ExtTreeMap String LoggerRegistration :=
  match registrations[loggerId]? with
  | some registration =>
      if registration.refcount - 1 = 0 then (true, registrations.erase loggerId)
      else (false, registrations.insert loggerId
        { registration with refcount := registration.refcount - 1 })
  | none => (false, registrations)

def isTargetOf (loggerId : String) (target : Option ListenerTarget) : Bool :=
  target.any fun target => target.loggerId == loggerId

namespace ListenerManager

variable {ρ : Type} (manager : ListenerManager ρ)

def adjustController (task : Nat) (f : Controller ρ → Controller ρ) : ListenerManager ρ :=
  { manager with
    controllers := manager.controllers[task]?.elim manager.controllers fun controller =>
      manager.controllers.insert task (f controller) }

/-- `target_updates.send_replace`. -/
def sendTarget (task : Nat) (target : Option ListenerTarget) : ListenerManager ρ :=
  manager.adjustController task fun controller => { controller with target := target }

/-- A radio without a slot gets one, and a controller of its own. -/
def acquire (radioId : Int) (loggerId : String) (logId : Int) (config : RadioConfig)
    (initialMode : String) : Except String (TargetState × ListenerManager ρ) :=
  match manager.listeners[radioId]? with
  | some listener =>
      match registerListener listener.registrations loggerId logId with
      | .error message => .error message
      | .ok registrations =>
          .ok (targetState radioId listener.target,
            { manager with
              listeners := manager.listeners.insert radioId
                { listener with registrations := registrations } })
  | none =>
      .ok (noTargetState radioId,
        { manager with
          listeners := manager.listeners.insert radioId
            { registrations := (∅ : ExtTreeMap String LoggerRegistration).insert loggerId
                { logId := logId, refcount := 1 }
              target := none
              task := manager.nextTask }
          controllers := manager.controllers.insert manager.nextTask
            { radioId := radioId, config := config, mode := initialMode, target := none,
              running := none }
          nextTask := manager.nextTask + 1 })

/-- The part of `release` under the lock. A slot without registrations is removed; its
controller is told to shut down only after the lock was given up. -/
def release (radioId : Int) (loggerId : String) : ListenerManager ρ :=
  match manager.listeners[radioId]? with
  | none => manager
  | some listener =>
      let dropped := dropReference listener.registrations loggerId
      let targetChanged := dropped.1 && isTargetOf loggerId listener.target
      let target := if targetChanged then none else listener.target
      let manager := if targetChanged then manager.sendTarget listener.task none else manager
      if dropped.2.isEmpty then
        { manager with
          listeners := manager.listeners.erase radioId
          closing := { radioId := radioId, task := listener.task } :: manager.closing }
      else
        { manager with
          listeners := manager.listeners.insert radioId
            { listener with registrations := dropped.2, target := target } }

def setTarget (radioId : Int) (loggerId : String) (enabled : Bool) :
    Except String (TargetState × ListenerManager ρ) :=
  match manager.listeners[radioId]? with
  | none => .error ("radio " ++ toString radioId ++ " has no open logger")
  | some listener =>
      match listener.registrations[loggerId]? with
      | none =>
          .error ("logger " ++ loggerId ++ " is not registered for radio " ++ toString radioId)
      | some registration =>
          let target :=
            if enabled then some { loggerId := loggerId, logId := registration.logId }
            else if isTargetOf loggerId listener.target then none
            else listener.target
          if listener.target = target then .ok (targetState radioId target, manager)
          else
            .ok (targetState radioId target,
              { manager.sendTarget listener.task target with
                listeners := manager.listeners.insert radioId { listener with target := target } })

/-- Every slot is taken, and the controllers are shut down one after another. -/
def shutdownAll : ListenerManager ρ :=
  { manager with
    listeners := ∅
    closing := manager.listeners.toList.map (fun slot =>
      { radioId := slot.1, task := slot.2.task }) ++ manager.closing }

variable (rules : ListenerRules ρ)

/-- The controller looks at its target: at its start, when that changes, or for a command. -/
def reconcile (task : Nat) (available : Bool) : ListenerManager ρ :=
  manager.adjustController task fun controller =>
    { controller with
      running := rules.reconcile available controller.config controller.mode controller.target
        controller.running }

def radioUpdate (task : Nat) (mode : String) (available : Bool) : ListenerManager ρ :=
  manager.adjustController task fun controller =>
    if rules.skipsSameMode && mode == controller.mode then controller
    else
      { controller with
        mode := mode
        running := rules.reconcile available controller.config mode controller.target
          controller.running }

/-- The controller has stopped what it ran, and ends: told to, or without updates to wait for. -/
def endController (task : Nat) : ListenerManager ρ :=
  { manager with controllers := manager.controllers.erase task }

/-- `release` or `shutdown_all` goes on when the controller has ended. -/
def finishShutdown (closing : Closing) : ListenerManager ρ :=
  if manager.controllers.contains closing.task then manager
  else { manager with closing := manager.closing.erase closing }

/-- A call that fails changes nothing. -/
def step (action : ListenerAction) : ListenerManager ρ :=
  match action with
  | .acquire radioId loggerId logId config initialMode =>
      (manager.acquire radioId loggerId logId config initialMode).toOption.elim manager Prod.snd
  | .release radioId loggerId => manager.release radioId loggerId
  | .setTarget radioId loggerId enabled =>
      (manager.setTarget radioId loggerId enabled).toOption.elim manager Prod.snd
  | .shutdownAll => manager.shutdownAll
  | .radioUpdate task mode available => manager.radioUpdate rules task mode available
  | .reconcile task available => manager.reconcile rules task available
  | .endController task => manager.endController task
  | .finishShutdown closing => manager.finishShutdown closing

def run (actions : List ListenerAction) : ListenerManager ρ :=
  Runs.run (fun manager action => manager.step rules action) manager actions

end ListenerManager

namespace WsjtX

def listenerShouldRun (config : RadioConfig) (mode : String) (hasTarget : Bool) : Bool :=
  config.wsjtxEnabled && eqIgnoreAsciiCase mode "DATA" && hasTarget

/-- The listener that runs serves every target. -/
def reconcileListener (config : RadioConfig) (mode : String) (target : Option ListenerTarget) :
    Option Unit → Option Unit :=
  fun _ => if listenerShouldRun config mode target.isSome then some () else none

def rules : ListenerRules Unit where
  reconcile _ := reconcileListener
  skipsSameMode := true

end WsjtX

namespace DigitalIo

def digitalIoEnabledForMode (config : RadioConfig) (mode : String) : Bool :=
  if eqIgnoreAsciiCase mode "DATA" then config.fldigiDataEnabled
  else if eqIgnoreAsciiCase mode "RTTY" then config.fldigiRttyEnabled
  else false

/-- The interface may fail to start. -/
def startRunningForTarget (available : Bool) (target : ListenerTarget) : Option ListenerTarget :=
  if available then some target else none

/-- What runs belongs to one target. -/
def reconcile (available : Bool) (config : RadioConfig) (mode : String)
    (target running : Option ListenerTarget) : Option ListenerTarget :=
  match target.filter fun _ => digitalIoEnabledForMode config mode, running with
  | some target, some current =>
      if current ≠ target then startRunningForTarget available target else some current
  | some target, none => startRunningForTarget available target
  | none, _ => none

def rules : ListenerRules ListenerTarget where
  reconcile := reconcile
  skipsSameMode := false

end DigitalIo

end Log73.RadioIo
