import Mathlib.Init

/-!
The window of the radio client (`main.rs`): its state, the messages it handles and the tasks it
gives out. What a message finds outside (the disk, the log filter, the backend's reports) comes
with it; the fields of the configuration screen and the times of the events are left out.
-/

namespace Log73.ClientWindow

def eventLogCapacity : Nat := 1000

/-- What the window reads of the settings. -/
structure RadioClientSettings where
  isRadioConfigured : Bool
  debugLoggingEnabled : Bool
  deriving DecidableEq

inductive LifecycleState where
  | notConfigured
  | stopped
  | starting
  | runningLocal
  | stopping
  | error
  deriving DecidableEq

def LifecycleState.initial (settings : RadioClientSettings) : LifecycleState :=
  if settings.isRadioConfigured then .stopped else .notConfigured

inductive BackendStatus where
  | registering
  | registered (radioId : Int64)
  | unavailable (retryInSecs : Nat)
  | credentialsRejected
  | leaseReplaced
  deriving DecidableEq

def BackendStatus.label : BackendStatus → String
  | registering => "Backend: registering…"
  | registered radioId => "Backend: registered as radio " ++ toString radioId
  | unavailable retryInSecs =>
      "Backend: unavailable; retrying in " ++ toString retryInSecs ++ " seconds"
  | credentialsRejected => "Backend: credentials rejected; retrying in 30 seconds"
  | leaseReplaced => "Backend: lease replaced; registering again…"

/-- What the configuration screen makes of a message. -/
inductive Outcome where
  | none (testsConnection : Bool)
  | saved (settings : RadioClientSettings)
  | cancelled
  deriving DecidableEq

inductive Message (Host : Type) where
  | configurePressed
  | configure (outcome : Outcome)
  | startPressed
  | stopPressed
  | debugLoggingChanged (enabled : Bool) (saved reloaded : Except String Unit)
  | startFinished (result : Option (Except String (Host × List String)))
  | stopFinished (events : List String)
  | backendTick (drained : List BackendStatus)
  | windowCloseRequested (window : Nat)

inductive Task (Host : Type) where
  | none
  | configure
  | start
  | stop (host : Host)
  | close (window : Nat)
  deriving DecidableEq

structure RadioClient (Host : Type) where
  settings : RadioClientSettings
  configuring : Bool
  lifecycle : LifecycleState
  host : Option Host
  backendStatus : Option BackendStatus
  events : List String
  logLevelOverride : Option String
  pendingCloseWindow : Option Nat
  deriving DecidableEq

namespace RadioClient

variable {Host : Type}

def new (settings : RadioClientSettings) (logLevelOverride : Option String) : RadioClient Host where
  settings := settings
  configuring := false
  lifecycle := LifecycleState.initial settings
  host := none
  backendStatus := none
  events := ["log73-radio-client is ready."]
  logLevelOverride := logLevelOverride
  pendingCloseWindow := none

def pushEvent (state : RadioClient Host) (message : String) : RadioClient Host :=
  let events := state.events ++ [message]
  { state with events := if eventLogCapacity < events.length then events.tail else events }

def pushEvents (state : RadioClient Host) (messages : List String) : RadioClient Host :=
  messages.foldl pushEvent state

def closeIfRequested (state : RadioClient Host) : RadioClient Host × Task Host :=
  ({ state with pendingCloseWindow := none }, state.pendingCloseWindow.elim .none .close)

def configurePressed (state : RadioClient Host) : RadioClient Host :=
  if state.lifecycle = .runningLocal ∨ state.lifecycle = .starting ∨
    state.lifecycle = .stopping then
    state
  else { state with configuring := true }

def configure (state : RadioClient Host) (outcome : Outcome) : RadioClient Host × Task Host :=
  if state.configuring then
    match outcome with
    | .none testsConnection => (state, if testsConnection then .configure else .none)
    | .saved settings =>
        (pushEvent
          { state with
            settings := settings
            configuring := false
            lifecycle := LifecycleState.initial settings }
          "Saved log73-radio-client settings.", .none)
    | .cancelled => ({ state with configuring := false }, .none)
  else (state, .none)

def startPressed (state : RadioClient Host) : RadioClient Host × Task Host :=
  if state.lifecycle = .stopped ∨ state.lifecycle = .error then
    (pushEvent { state with lifecycle := .starting } "Starting local radio host…", .start)
  else (state, .none)

def stopPressed (state : RadioClient Host) : RadioClient Host × Task Host :=
  if state.lifecycle = .starting then
    (pushEvent { state with lifecycle := .stopping }
      "Startup will stop as soon as the local host is ready.", .none)
  else
    match state.host with
    | none => (state, .none)
    | some host =>
        (pushEvent { state with host := none, lifecycle := .stopping }
          "Stopping local radio host…", .stop host)

def debugLoggingChanged (state : RadioClient Host) (enabled : Bool)
    (saved reloaded : Except String Unit) : RadioClient Host :=
  match saved with
  | .error error => state.pushEvent ("Unable to save debug logging setting: " ++ error)
  | .ok () =>
      let state := { state with settings := { state.settings with debugLoggingEnabled := enabled } }
      match state.logLevelOverride with
      | some logLevel =>
          state.pushEvent ("Saved debug logging setting. Command-line log level '" ++ logLevel ++
            "' remains active.")
      | none =>
          match reloaded with
          | .error error => state.pushEvent ("Unable to update log level: " ++ error)
          | .ok () =>
              state.pushEvent
                (if enabled then "Debug logging enabled." else "Debug logging disabled.")

def startFinished (state : RadioClient Host) (result : Except String (Host × List String)) :
    RadioClient Host × Task Host :=
  match result with
  | .ok (host, events) =>
      let state := { state.pushEvents events with host := some host, backendStatus := none }
      if state.lifecycle = .stopping ∨ state.pendingCloseWindow.isSome then state.stopPressed
      else
        (pushEvent { state with lifecycle := .runningLocal } "Local radio host is running.", .none)
  | .error error =>
      closeIfRequested <| pushEvent { state with lifecycle := .error }
        ("Unable to start local radio host: " ++ error)

def stopFinished (state : RadioClient Host) (events : List String) : RadioClient Host × Task Host :=
  closeIfRequested <| pushEvent
    { state.pushEvents events with host := none, backendStatus := none, lifecycle := .stopped }
    "Local radio host stopped."

def backendEvent (state : RadioClient Host) (status : BackendStatus) : RadioClient Host :=
  let state := if state.backendStatus = some status then state else state.pushEvent status.label
  { state with backendStatus := some status }

def backendTick (state : RadioClient Host) (drained : List BackendStatus) : RadioClient Host :=
  if state.host.isSome then drained.foldl backendEvent state else state

def windowCloseRequested (state : RadioClient Host) (window : Nat) :
    RadioClient Host × Task Host :=
  let state := { state with pendingCloseWindow := some window }
  if state.host.isSome ∨ state.lifecycle = .starting then state.stopPressed
  else state.closeIfRequested

def update (state : RadioClient Host) : Message Host → RadioClient Host × Task Host
  | .configurePressed => (state.configurePressed, .none)
  | .configure outcome => state.configure outcome
  | .startPressed => state.startPressed
  | .stopPressed => state.stopPressed
  | .debugLoggingChanged enabled saved reloaded =>
      (state.debugLoggingChanged enabled saved reloaded, .none)
  | .startFinished none => (state, .none)
  | .startFinished (some result) => state.startFinished result
  | .stopFinished events => state.stopFinished events
  | .backendTick drained => (state.backendTick drained, .none)
  | .windowCloseRequested window => state.windowCloseRequested window

end RadioClient

end Log73.ClientWindow
