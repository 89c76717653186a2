import Log73.Library.Runs
import Log73.Library.Slices
import Log73.Library.TreeMap

/-!
The registry of `websocket.rs`: who uses a radio and who changes it, and the socket sessions with
every exit of `handle_radio_socket`. What is done under the registry's lock is one step, and so is
each wait of a session. A commit that fails leaves its permit, which is dropped after that.
-/

namespace Log73.RadioIo

open Std (ExtTreeMap)

structure ConfiguredRadio (Settings : Type) where
  id : Int
  settings : Settings

structure RegisteredRadio (Settings : Type) where
  config : ConfiguredRadio Settings
  users : Nat
  mutationReserved : Bool

inductive RadioAcquireError where
  | notFound (radioId : Int)
  | mutationInProgress (radioId : Int)
  | unavailable (radioId : Int) (message : String)

def RadioAcquireError.display : RadioAcquireError → String
  | notFound radioId => "radio " ++ toString radioId ++ " not found"
  | mutationInProgress radioId => "radio " ++ toString radioId ++ " is being changed"
  | unavailable radioId message => "radio " ++ toString radioId ++ " is unavailable: " ++ message

inductive RadioMutationError where
  | notFound (radioId : Int)
  | inUse (radioId : Int)
  | mutationInProgress (radioId : Int)

def RadioMutationError.display : RadioMutationError → String
  | notFound radioId => "radio " ++ toString radioId ++ " not found"
  | inUse radioId => "radio " ++ toString radioId ++ " is in use"
  | mutationInProgress radioId => "radio " ++ toString radioId ++ " is already being changed"

abbrev RadioRegistry (Settings : Type) := ExtTreeMap Int (RegisteredRadio Settings)

namespace RadioRegistry

variable {Settings : Type} (registry : RadioRegistry Settings) (radioId : Int)

def unused (config : ConfiguredRadio Settings) : RegisteredRadio Settings :=
  { config := config, users := 0, mutationReserved := false }

def new (radios : List (ConfiguredRadio Settings)) : RadioRegistry Settings :=
  radios.foldl (fun registry config => registry.insert config.id (unused config)) ∅

def addRadio (config : ConfiguredRadio Settings) : Except String (RadioRegistry Settings) :=
  match registry[config.id]? with
  | none => .ok (registry.insert config.id (unused config))
  | some _ => .error ("radio " ++ toString config.id ++ " is already configured")

def beginMutation : Except RadioMutationError (RadioRegistry Settings) :=
  match registry[radioId]? with
  | none => .error (.notFound radioId)
  | some radio =>
      if 0 < radio.users then .error (.inUse radioId)
      else if radio.mutationReserved then .error (.mutationInProgress radioId)
      else .ok (registry.insert radioId { radio with mutationReserved := true })

/-- The part of `acquire` under the lock. -/
def beginUse : Except RadioAcquireError (ConfiguredRadio Settings × RadioRegistry Settings) :=
  match registry[radioId]? with
  | none => .error (.notFound radioId)
  | some radio =>
      if radio.mutationReserved then .error (.mutationInProgress radioId)
      else .ok (radio.config, registry.insert radioId { radio with users := radio.users + 1 })

def finishUse : RadioRegistry Settings :=
  match registry[radioId]? with
  | none => registry
  | some radio => registry.insert radioId { radio with users := radio.users - 1 }

def commitUpdate (config : ConfiguredRadio Settings) : Except String (RadioRegistry Settings) :=
  if config.id ≠ radioId then
    .error ("radio config id " ++ toString config.id ++ " does not match reserved radio " ++
      toString radioId)
  else
    match registry[radioId]? with
    | none => .error ("radio " ++ toString radioId ++ " not found")
    | some radio =>
        .ok (registry.insert radioId { radio with config := config, mutationReserved := false })

def commitDelete : Except String (RadioRegistry Settings) :=
  match registry[radioId]? with
  | none => .error ("radio " ++ toString radioId ++ " not found")
  | some _ => .ok (registry.erase radioId)

/-- The end of a permit that was not committed. -/
def dropPermit : RadioRegistry Settings :=
  match registry[radioId]? with
  | none => registry
  | some radio => registry.insert radioId { radio with mutationReserved := false }

end RadioRegistry

/-- What a session does next, `returned` when its task is over. -/
inductive SessionPhase where
  | acquiring
  | acquireFailed
  | acquireWsjtx
  | acquireDigitalIo
  | undoWsjtx
  | sendStatus
  | sendState
  | sendWsjtxTarget
  | sendDigitalIoTarget
  | serving
  | releaseWsjtx
  | releaseDigitalIo
  | releaseRadio
  | finishUse
  | returned
  deriving DecidableEq

/-- The two calls of `finish_use`: after an acquire that failed, and at the end of `release`. -/
def SessionPhase.finishesUse : SessionPhase → Bool
  | .acquireFailed | .finishUse => true
  | _ => false

/-- A session that was counted as a user, and how often it has called `finish_use`. -/
structure RadioSession (Settings : Type) where
  radioId : Int
  config : ConfiguredRadio Settings
  identified : Bool
  hasState : Bool
  phase : SessionPhase
  finishedUses : Nat := 0

namespace RadioSession

variable {Settings : Type} (session : RadioSession Settings)

/-- `release_socket_registration`. -/
def releaseRegistration : SessionPhase :=
  if session.identified then .releaseWsjtx else .releaseRadio

def sendTargets : SessionPhase := if session.identified then .sendWsjtxTarget else .serving

/-- What comes next when a wait succeeded or not: each exit of `handle_radio_socket` has the
releases it calls before it returns. -/
def next (succeeds : Bool) : SessionPhase :=
  match session.phase with
  | .acquiring =>
      if succeeds then if session.identified then .acquireWsjtx else .sendStatus
      else .acquireFailed
  | .acquireFailed => .returned
  | .acquireWsjtx => if succeeds then .acquireDigitalIo else .releaseRadio
  | .acquireDigitalIo => if succeeds then .sendStatus else .undoWsjtx
  | .undoWsjtx => .releaseRadio
  | .sendStatus =>
      if succeeds then if session.hasState then .sendState else session.sendTargets
      else session.releaseRegistration
  | .sendState => if succeeds then session.sendTargets else session.releaseRegistration
  | .sendWsjtxTarget => if succeeds then .sendDigitalIoTarget else session.releaseRegistration
  | .sendDigitalIoTarget => if succeeds then .serving else session.releaseRegistration
  | .serving => session.releaseRegistration
  | .releaseWsjtx => .releaseDigitalIo
  | .releaseDigitalIo => .releaseRadio
  | .releaseRadio => .finishUse
  | .finishUse => .returned
  | .returned => .returned

def proceed (succeeds : Bool) : RadioSession Settings :=
  { session with
    phase := session.next succeeds
    finishedUses := session.finishedUses + if session.phase.finishesUse then 1 else 0 }

/-- A session goes through waits with these outcomes. -/
def goesOn (session : RadioSession Settings) (outcomes : List Bool) : RadioSession Settings :=
  outcomes.foldl proceed session

end RadioSession

/-- The registry with the permits there are, by radio, and the sessions that were ever counted. -/
structure RadioSystem (Settings : Type) where
  registry : RadioRegistry Settings
  permits : List Int
  sessions : List (RadioSession Settings)

inductive RegistryAction (Settings : Type) where
  | addRadio (config : ConfiguredRadio Settings)
  | beginMutation (radioId : Int)
  | commitUpdate (permit : Nat) (config : ConfiguredRadio Settings)
  | commitDelete (permit : Nat)
  | dropPermit (permit : Nat)
  | connect (radioId : Int) (identified hasState : Bool)
  | proceed (session : Nat) (succeeds : Bool)

namespace RadioSystem

variable {Settings : Type} (system : RadioSystem Settings)

def new (radios : List (ConfiguredRadio Settings)) : RadioSystem Settings :=
  { registry := RadioRegistry.new radios, permits := [], sessions := [] }

def addRadio (config : ConfiguredRadio Settings) : RadioSystem Settings :=
  match system.registry.addRadio config with
  | .error _ => system
  | .ok registry => { system with registry := registry }

def beginMutation (radioId : Int) : RadioSystem Settings :=
  match system.registry.beginMutation radioId with
  | .error _ => system
  | .ok registry => { system with registry := registry, permits := radioId :: system.permits }

/-- A permit that was committed is no longer dropped. -/
def settle (permit : Nat) : Except String (RadioRegistry Settings) → RadioSystem Settings
  | .error _ => system
  | .ok registry => { system with registry := registry, permits := system.permits.eraseIdx permit }

def connect (radioId : Int) (identified hasState : Bool) : RadioSystem Settings :=
  match system.registry.beginUse radioId with
  | .error _ => system
  | .ok (config, registry) =>
      { system with
        registry := registry
        sessions :=
          { radioId := radioId, config := config, identified := identified, hasState := hasState,
            phase := .acquiring } :: system.sessions }

def proceed (index : Nat) (session : RadioSession Settings) (succeeds : Bool) :
    RadioSystem Settings :=
  { system with
    registry :=
      if session.phase.finishesUse then system.registry.finishUse session.radioId
      else system.registry
    sessions := system.sessions.set index (session.proceed succeeds) }

def step : RegistryAction Settings → RadioSystem Settings
  | .addRadio config => system.addRadio config
  | .beginMutation radioId => system.beginMutation radioId
  | .commitUpdate permit config =>
      system.permits[permit]?.elim system fun radioId =>
        system.settle permit (system.registry.commitUpdate radioId config)
  | .commitDelete permit =>
      system.permits[permit]?.elim system fun radioId =>
        system.settle permit (system.registry.commitDelete radioId)
  | .dropPermit permit =>
      system.permits[permit]?.elim system fun radioId =>
        system.settle permit (.ok (system.registry.dropPermit radioId))
  | .connect radioId identified hasState => system.connect radioId identified hasState
  | .proceed index succeeds =>
      system.sessions[index]?.elim system fun session => system.proceed index session succeeds

end RadioSystem

end Log73.RadioIo
