import Log73.Paths

/-!
The launcher (`launcher/src/main.rs`): its state, the messages it handles and the tasks it gives
out. What a message finds outside (the disk, the process that is spawned) comes with it, and what
it does there is kept in the order it is done. A child is the number of its process.
-/

namespace Log73.LauncherWindow

inductive Screen where
  | main
  | settings
  | updates
  deriving DecidableEq

inductive LogLevel where
  | trace | debug | info | warn | error
  deriving DecidableEq

def LogLevel.asArg : LogLevel → String
  | trace => "trace"
  | debug => "debug"
  | info => "info"
  | warn => "warn"
  | error => "error"

inductive BindMode where
  | localhostOnly
  | open
  deriving DecidableEq

def BindMode.bindIp : BindMode → String
  | localhostOnly => "127.0.0.1"
  | .open => "0.0.0.0"

inductive AppBrowser where
  | chrome
  | chromium
  | edge
  deriving DecidableEq

structure LauncherSettings where
  backendPath : String
  configDir : String
  dataDir : String
  appDir : String
  logLevel : LogLevel
  logFilePath : String
  bindMode : BindMode
  port : String
  appBrowser : AppBrowser
  deriving DecidableEq

inductive DownloadKind where
  | dxcc
  | superCheckPartial
  deriving DecidableEq

def DownloadKind.label : DownloadKind → String
  | dxcc => "DXCC/Country Database"
  | superCheckPartial => "Super Check Partial Database"

inductive OpenAction where
  | logFile
  | browser
  | browserAppMode
  deriving DecidableEq

inductive ExitResult where
  | success
  | failure (status : String)
  | error (error : String)
  deriving DecidableEq

structure ProcessExit where
  token : Nat
  result : ExitResult

structure StopOutcome where
  token : Nat
  note : String

structure DownloadOutcome where
  kind : DownloadKind
  result : Except String String

inductive Message where
  | openSettingsPressed
  | openUpdatesPressed
  | backToMainPressed
  | setDefaultsPressed
  | backendPathChanged (path : String)
  | configDirPathChanged (path : String)
  | dataDirPathChanged (path : String)
  | appDirPathChanged (path : String)
  | logLevelSelected (level : LogLevel)
  | logFilePathChanged (path : String)
  | bindModeSelected (bindMode : BindMode)
  | portChanged (port : String)
  | appBrowserSelected (browser : AppBrowser)
  | removeLogFilePressed
  | removeDatabasePressed
  | confirmRemoveDatabasePressed
  | cancelRemoveDatabasePressed
  | startPressed
  | stopPressed
  | openLogPressed
  | openInBrowserPressed
  | openInAppModePressed
  | openActionFinished (note : String)
  | downloadDxccPressed
  | downloadSuperCheckPartialPressed
  | downloadFinished (outcome : DownloadOutcome)
  | windowCloseRequested (window : Nat)
  | backendExited (event : ProcessExit)
  | stopAttemptFinished (outcome : StopOutcome)

inductive Task where
  | none
  | waitForExit (child token : Nat)
  | attemptStop (child token : Nat)
  | openAction (settings : LauncherSettings) (action : OpenAction)
  | download (settings : LauncherSettings) (kind : DownloadKind)
  | close (window : Nat)
  deriving DecidableEq

/-- What the launcher does to the machine while it handles a message. -/
inductive Effect where
  | saved (settings : LauncherSettings)
  | removed (path : String)
  | spawned (child : Nat) (program : String) (arguments : List String)
  deriving DecidableEq

/-- What a message finds of the machine, if it looks. -/
structure Found where
  defaults : LauncherSettings
  saved : Except String Unit
  configDirCreated : Except String Unit
  dataDirCreated : Except String Unit
  backendIsFile : Bool
  spawned : Except String Nat
  fileExists : Bool
  removed : Except String Unit

structure Launcher where
  screen : Screen := .main
  settings : LauncherSettings
  settingsDirty : Bool := false
  status : String := "Backend is stopped."
  child : Option Nat := none
  activeToken : Option Nat := none
  nextToken : Nat := 1
  stopInProgress : Bool := false
  downloadInProgress : Option DownloadKind := none
  confirmRemoveDatabase : Bool := false
  pendingCloseWindow : Option Nat := none
  effects : List Effect := []

def parsePort (portText : String) : Except String Nat :=
  let trimmed := trim portText
  if trimmed = "" then .error "Port is required."
  else
    match parseU16 trimmed with
    | none => .error "Port must be a number between 1 and 65535."
    | some port => if port = 0 then .error "Port must be between 1 and 65535." else .ok port

def databasePath (dataDir : String) : String := joinPath dataDir "log73.db"

/-- `u64::saturating_add` of one -/
def saturatingSucc (token : Nat) : Nat := min (token + 1) (2 ^ 64 - 1)

namespace Launcher

variable (state : Launcher) (found : Found)

def perform (effect : Effect) : Launcher := { state with effects := state.effects ++ [effect] }

def say (status : String) : Launcher := { state with status := status }

def edit (settings : LauncherSettings) : Launcher :=
  { state with settings := settings, settingsDirty := true }

def persistSettingsIfDirty : Launcher :=
  if state.settingsDirty then
    match found.saved with
    | .ok () => { state.perform (.saved state.settings) with settingsDirty := false }
    | .error _ => state
  else state

def canRemoveFiles : Bool := state.child.isNone && !state.stopInProgress

/-- `remove_file`, with what it says of its outcome. -/
def removeFile (path label : String) : Launcher × Except String String :=
  if found.fileExists then
    (state.perform (.removed path),
      match found.removed with
      | .ok () => .ok ("Removed " ++ label ++ ": " ++ path)
      | .error error => .error (path ++ ": " ++ error))
  else (state, .ok (label ++ " is already absent: " ++ path))

def removeLogFile : Launcher × Except String String :=
  if trim state.settings.logFilePath = "" then (state, .error "log file path is empty")
  else state.removeFile found (trim state.settings.logFilePath) "log file"

def removeDatabase : Launcher × Except String String :=
  if trim state.settings.dataDir = "" then (state, .error "data directory is empty")
  else state.removeFile found (databasePath (trim state.settings.dataDir)) "database"

def backendArguments (settings : LauncherSettings) (port : Nat) : List String :=
  ["--bind", settings.bindMode.bindIp ++ ":" ++ toString port,
    "--config-dir", trim settings.configDir, "--data-dir", trim settings.dataDir,
    "--app-dir", trim settings.appDir, "--log-level", settings.logLevel.asArg] ++
    if trim settings.logFilePath = "" then [] else ["--log-file", trim settings.logFilePath]

/-- What keeps the backend from being started with the settings. -/
def startChecks (settings : LauncherSettings) : Except String Nat := do
  if trim settings.backendPath = "" then throw "Backend path is required."
  let port ← parsePort settings.port
  if trim settings.configDir = "" then throw "Config directory is required."
  if trim settings.dataDir = "" then throw "Data directory is required."
  if trim settings.appDir = "" then throw "App directory is required."
  match found.configDirCreated with
  | .error error => throw ("Failed to create config directory: " ++ error)
  | .ok () => pure ()
  match found.dataDirCreated with
  | .error error => throw ("Failed to create data directory: " ++ error)
  | .ok () => pure ()
  unless found.backendIsFile do
    throw ("Backend executable not found: " ++ trim settings.backendPath)
  return port

def startBackend : Launcher × Task :=
  if state.child.isSome || state.stopInProgress then (state, .none)
  else
    let state := state.persistSettingsIfDirty found
    match startChecks found state.settings with
    | .error error => (state.say error, .none)
    | .ok port =>
        match found.spawned with
        | .error error => (state.say ("Failed to start backend: " ++ error), .none)
        | .ok child =>
            let token := state.nextToken
            ({ state.perform (.spawned child (trim state.settings.backendPath)
                (backendArguments state.settings port)) with
              nextToken := saturatingSucc state.nextToken
              activeToken := some token
              child := some child
              stopInProgress := false
              status := "Backend is running on " ++ state.settings.bindMode.bindIp ++ ":" ++
                toString port ++ "." }, .waitForExit child token)

def stopBackend : Launcher × Task :=
  if state.stopInProgress then (state, .none)
  else
    match state.child, state.activeToken with
    | some child, some token =>
        ({ state with stopInProgress := true, status := "Stopping backend..." },
          .attemptStop child token)
    | _, _ => (state, .none)

def startDownload (kind : DownloadKind) : Launcher × Task :=
  if state.downloadInProgress.isSome then (state.say "Download in progress; please wait.", .none)
  else
    let state := state.persistSettingsIfDirty found
    if trim state.settings.dataDir = "" then (state.say "Data directory is required.", .none)
    else
      ({ state with
        downloadInProgress := some kind
        status := "Downloading " ++ kind.label ++ "..." }, .download state.settings kind)

def downloadFinished (outcome : DownloadOutcome) : Launcher :=
  if state.downloadInProgress ≠ some outcome.kind then state
  else
    { state with
      downloadInProgress := none
      status :=
        match outcome.result with
        | .ok path => "Downloaded " ++ outcome.kind.label ++ " to " ++ path ++ "."
        | .error error => "Failed to download " ++ outcome.kind.label ++ ": " ++ error }

/-- The window that is asked to close does so, or once the backend has stopped. -/
def closeOrStop (window : Nat) : Launcher × Task :=
  if state.child.isSome || state.stopInProgress then
    if state.child.isSome && !state.stopInProgress then
      (state.say "Stopping backend before exit...").stopBackend
    else (state, .none)
  else (state, .close window)

def windowCloseRequested (window : Nat) : Launcher × Task :=
  if state.downloadInProgress.isSome then
    (state.say "Download in progress; please wait before closing.", .none)
  else
    closeOrStop { state.persistSettingsIfDirty found with pendingCloseWindow := some window } window

def exitStatus : ExitResult → String
  | .success => "Backend exited normally."
  | .failure status =>
      "Backend exited with status " ++ status ++ ". See the log files for details."
  | .error error => "Failed to read backend exit status: " ++ error

def handleBackendExit (event : ProcessExit) : Launcher × Task :=
  if state.activeToken ≠ some event.token then (state, .none)
  else
    let state :=
      { state with
        child := none
        activeToken := none
        stopInProgress := false
        status := exitStatus event.result }
    match state.pendingCloseWindow with
    | some window => ({ state with pendingCloseWindow := none }, .close window)
    | none => (state, .none)

def handleStopOutcome (outcome : StopOutcome) : Launcher :=
  if state.activeToken ≠ some outcome.token then state else state.say outcome.note

/-- The status after a removal. -/
def removal (label : String) (result : Launcher × Except String String) : Launcher :=
  match result with
  | (state, .ok note) => state.say note
  | (state, .error error) => state.say ("Failed to remove " ++ label ++ ": " ++ error)

def removeLogFilePressed : Launcher :=
  if !state.canRemoveFiles then state.say "Stop the backend before removing files."
  else removal "log file" (state.removeLogFile found)

def removeDatabasePressed : Launcher :=
  if !state.canRemoveFiles then state.say "Stop the backend before removing files."
  else { state with confirmRemoveDatabase := true }

def confirmRemoveDatabasePressed : Launcher :=
  let state := { state with confirmRemoveDatabase := false }
  if !state.canRemoveFiles then state.say "Stop the backend before removing files."
  else removal "database" (state.removeDatabase found)

def backToMainPressed : Launcher :=
  if state.downloadInProgress.isSome then state.say "Download in progress; please wait."
  else { state.persistSettingsIfDirty found with screen := .main }

def update (message : Message) : Launcher × Task :=
  match message with
  | .openSettingsPressed => ({ state with screen := .settings }, .none)
  | .openUpdatesPressed => ({ state with screen := .updates }, .none)
  | .backToMainPressed => (state.backToMainPressed found, .none)
  | .setDefaultsPressed =>
      ((state.edit found.defaults).say "Settings reset to defaults.", .none)
  | .backendPathChanged path => (state.edit { state.settings with backendPath := path }, .none)
  | .configDirPathChanged path => (state.edit { state.settings with configDir := path }, .none)
  | .dataDirPathChanged path => (state.edit { state.settings with dataDir := path }, .none)
  | .appDirPathChanged path => (state.edit { state.settings with appDir := path }, .none)
  | .logLevelSelected level => (state.edit { state.settings with logLevel := level }, .none)
  | .logFilePathChanged path => (state.edit { state.settings with logFilePath := path }, .none)
  | .bindModeSelected bindMode => (state.edit { state.settings with bindMode := bindMode }, .none)
  | .portChanged port => (state.edit { state.settings with port := port }, .none)
  | .appBrowserSelected browser =>
      (state.edit { state.settings with appBrowser := browser }, .none)
  | .removeLogFilePressed => (state.removeLogFilePressed found, .none)
  | .removeDatabasePressed => (state.removeDatabasePressed, .none)
  | .confirmRemoveDatabasePressed => (state.confirmRemoveDatabasePressed found, .none)
  | .cancelRemoveDatabasePressed =>
      ({ state.say "Database removal cancelled." with confirmRemoveDatabase := false }, .none)
  | .startPressed => state.startBackend found
  | .stopPressed => state.stopBackend
  | .openLogPressed => (state, .openAction state.settings .logFile)
  | .openInBrowserPressed => (state, .openAction state.settings .browser)
  | .openInAppModePressed => (state, .openAction state.settings .browserAppMode)
  | .openActionFinished note => (state.say note, .none)
  | .downloadDxccPressed => state.startDownload found .dxcc
  | .downloadSuperCheckPartialPressed => state.startDownload found .superCheckPartial
  | .downloadFinished outcome => (state.downloadFinished outcome, .none)
  | .windowCloseRequested window => state.windowCloseRequested found window
  | .backendExited event => state.handleBackendExit event
  | .stopAttemptFinished outcome => (state.handleStopOutcome outcome, .none)

end Launcher

end Log73.LauncherWindow
