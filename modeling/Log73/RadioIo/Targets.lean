import Log73.RadioIo.ListenerManager

/-!
The targets of `wsjtx.rs` and `digital_io.rs` as their loggers hear of them: a call finds the new
target under the lock and broadcasts it after the lock was given up. The sockets subscribe before
they register their logger (`websocket.rs`), and a page shows what the last message says
(`radioSocketController.js`, `useRadioSocket.js`). The two managers differ in the page's handler.
-/

namespace Log73.RadioIo

open Std (ExtTreeMap)

/-- The logger of a socket; the id is not empty (`logger_identity`). -/
structure Logger where
  radioId : Int
  loggerId : String
  logId : Int
  named : loggerId ≠ ""

/-- A socket of a logger: how many broadcasts there were when it subscribed, and the state that its
page was told at first, if it is registered. -/
structure LoggerPage where
  logger : Logger
  subscribedAt : Nat
  initial : Option TargetState

structure TargetUpdate where
  isTarget : Bool
  reclaimTarget : Bool
  deriving DecidableEq

def wsjtxTargetUpdate (message : TargetState) (logger : Logger) (targetIntent : Bool) :
    TargetUpdate :=
  let targetLoggerId := message.loggerId.getD ""
  if targetLoggerId = "" then { isTarget := false, reclaimTarget := targetIntent }
  else
    { isTarget := targetLoggerId = logger.loggerId && message.logId.getD 0 = logger.logId
      reclaimTarget := false }

def digitalIoIsTarget (message : TargetState) (logger : Logger) : Bool :=
  message.loggerId.getD "" = logger.loggerId && message.logId.getD 0 = logger.logId

namespace ListenerManager

variable {ρ : Type} (manager : ListenerManager ρ) (radioId : Int)

def targetOf : Option ListenerTarget := manager.listeners[radioId]?.bind (·.target)

def registered (loggerId : String) : Option LoggerRegistration :=
  manager.listeners[radioId]?.bind (·.registrations[loggerId]?)

/-- What `release` broadcasts when it has given up the lock. -/
def releaseBroadcast (loggerId : String) : List TargetState :=
  match manager.listeners[radioId]? with
  | none => []
  | some listener =>
      if (dropReference listener.registrations loggerId).1 && isTargetOf loggerId
        listener.target then
        [noTargetState radioId]
      else []

end ListenerManager

/-- A manager with its sockets, the states found under the lock and not broadcast yet, and the
broadcasts there were. -/
structure TargetSystem (ρ : Type) where
  manager : ListenerManager ρ := {}
  pages : List LoggerPage := []
  pending : List TargetState := []
  sent : List TargetState := []

inductive TargetAction where
  | subscribe (logger : Logger)
  | acquire (page : Nat) (config : RadioConfig) (initialMode : String)
  | release (page : Nat)
  | setTarget (page : Nat) (enabled : Bool)
  | send (index : Nat)

namespace TargetSystem

variable {ρ : Type} (system : TargetSystem ρ)

/-- A socket whose logger is not registered ends. -/
def acquire (index : Nat) (page : LoggerPage) (config : RadioConfig) (initialMode : String) :
    TargetSystem ρ :=
  match page.initial with
  | some _ => system
  | none =>
      match system.manager.acquire page.logger.radioId page.logger.loggerId page.logger.logId config
          initialMode with
      | .error _ => { system with pages := system.pages.eraseIdx index }
      | .ok (state, manager) =>
          { system with
            manager := manager
            pages := system.pages.set index { page with initial := some state } }

def release (index : Nat) (page : LoggerPage) : TargetSystem ρ :=
  match page.initial with
  | none => system
  | some _ =>
      { system with
        manager := system.manager.release page.logger.radioId page.logger.loggerId
        pages := system.pages.eraseIdx index
        pending := system.pending ++
          system.manager.releaseBroadcast page.logger.radioId page.logger.loggerId }

def setTarget (page : LoggerPage) (enabled : Bool) : TargetSystem ρ :=
  match page.initial with
  | none => system
  | some _ =>
      match system.manager.setTarget page.logger.radioId page.logger.loggerId enabled with
      | .error _ => system
      | .ok (state, manager) =>
          { system with manager := manager, pending := system.pending ++ [state] }

def step : TargetAction → TargetSystem ρ
  | .subscribe logger =>
      { system with
        pages := system.pages ++
          [{ logger := logger, subscribedAt := system.sent.length, initial := none }] }
  | .acquire index config initialMode =>
      system.pages[index]?.elim system fun page => system.acquire index page config initialMode
  | .release index => system.pages[index]?.elim system fun page => system.release index page
  | .setTarget index enabled =>
      system.pages[index]?.elim system fun page => system.setTarget page enabled
  | .send index =>
      system.pending[index]?.elim system fun state =>
        { system with
          pending := system.pending.eraseIdx index
          sent := system.sent ++ [state] }

/-- What is broadcast was found before everything of its radio that is not broadcast yet. -/
def InOrder : TargetAction → Prop
  | .send index => ∀ state ∈ system.pending[index]?, ∀ earlier ∈ system.pending.take index,
      earlier.radioId ≠ state.radioId
  | _ => True

/-- The last target of the radio that was broadcast; none was there before. -/
def lastBroadcast (radioId : Int) : TargetState :=
  (system.sent.filter (·.radioId = radioId)).getLast?.getD (noTargetState radioId)

/-- The messages of a page that has processed all broadcasts. -/
def messages (page : LoggerPage) : List TargetState :=
  page.initial.toList ++
    (system.sent.drop page.subscribedAt).filter (·.radioId = page.logger.radioId)

/-- What a page shows that handles each message so. -/
def shows (isTarget : TargetState → Logger → Bool) (page : LoggerPage) : Bool :=
  (system.messages page).foldl (fun _ message => isTarget message page.logger) false

/-- The page shows itself as the target when it is. -/
def ShowsTarget (isTarget : TargetState → Logger → Bool) (page : LoggerPage) : Prop :=
  system.shows isTarget page = true ↔ system.manager.targetOf page.logger.radioId =
    some { loggerId := page.logger.loggerId, logId := page.logger.logId }

/-- No target of the radio is waiting to be broadcast. -/
def Settled (radioId : Int) : Prop := ∀ state ∈ system.pending, state.radioId ≠ radioId

/-- The target is the one that everybody registered sees. -/
structure TargetAgreement : Prop where
  registered : ∀ radioId target, system.manager.targetOf radioId = some target →
    ∃ registration, system.manager.registered radioId target.loggerId = some registration ∧
      registration.logId = target.logId
  one_log : ∀ page ∈ system.pages, ∀ other ∈ system.pages, page.initial.isSome →
    other.initial.isSome → page.logger.radioId = other.logger.radioId →
      page.logger.loggerId = other.logger.loggerId → page.logger.logId = other.logger.logId
  last_broadcast : ∀ radioId, system.Settled radioId →
    system.lastBroadcast radioId = targetState radioId (system.manager.targetOf radioId)
  shown : ∀ page ∈ system.pages, page.initial.isSome → system.Settled page.logger.radioId →
    (∀ targetIntent, system.ShowsTarget (fun message logger =>
      (wsjtxTargetUpdate message logger targetIntent).isTarget) page) ∧
    system.ShowsTarget digitalIoIsTarget page

end TargetSystem

end Log73.RadioIo
