import Log73.Json
import Log73.Library.Durable

/-!
The settings file of the radio client (`settings.rs`): it is written under a name of its own,
flushed and renamed. Saves and loads take one step in the file system after another, any number
of them at once, and any step may fail; a crash ends all that are under way.
-/

namespace Log73.ClientSettings

open Durable (Disk)

def settingsSchemaVersion : Nat := 1

/-- `Value::as_u64`. -/
def asU64 : Value → Option Int
  | .number value => value.asU64
  | _ => none

/-- The settings, and what `serde_json` does with them and with their text. -/
structure SettingsFormat (S : Type) where
  schemaVersion : S → Nat
  toVecPretty : S → Except String ByteArray
  fromStr : String → Except String Value
  fromValue : Value → Except String S

namespace SettingsFormat

variable {S : Type} (format : SettingsFormat S)

/-- The bytes of a settings file. -/
def contents (settings : S) : Except String ByteArray :=
  (format.toVecPretty settings).map fun serialized => serialized.push 10

def unsupportedSchemaVersion (schemaVersion : Int) : String :=
  s!"unsupported log73-radio-client settings schema version {schemaVersion}; "
    ++ s!"this version supports schema version {settingsSchemaVersion}"

def loadFromStr (text : String) : Except String S :=
  match format.fromStr text with
  | .error error => .error s!"invalid log73-radio-client settings JSON: {error}"
  | .ok value =>
      match (value.asObject.bind (List.lookup "schema_version")).bind asU64 with
      | none => .error "log73-radio-client settings are missing schema_version"
      | some schemaVersion =>
          if schemaVersion ≠ settingsSchemaVersion then
            .error (unsupportedSchemaVersion schemaVersion)
          else (format.fromValue value).mapError fun error =>
            s!"invalid log73-radio-client settings: {error}"

/-- `load_or_create` for a file that is there. -/
def loadContents (path : String) (contents : ByteArray) : Except String S :=
  match String.fromUTF8? contents with
  | none =>
      .error (s!"failed to read log73-radio-client settings at {path}: "
        ++ "stream did not contain valid UTF-8")
  | some text => format.loadFromStr text

end SettingsFormat

inductive SavePhase where
  | preparing
  | creating
  | writing (file : Nat)
  | flushing (file : Nat)
  | replacing
  | removing (error : String)
  | returned (result : Except String Unit)
  | lost

/-- The file that a save still has to fill. -/
def SavePhase.file : SavePhase → Option Nat
  | .writing file | .flushing file => some file
  | _ => none

/-- What a crash makes of a save. -/
def SavePhase.crash : SavePhase → SavePhase
  | .returned result => .returned result
  | _ => .lost

/-- A call of `save_atomic`; `uuid` is what `Uuid::new_v4` gives it. -/
structure Save (S : Type) where
  settings : S
  uuid : String
  phase : SavePhase := .preparing

/-- A save of these settings has returned, or the system has crashed. -/
inductive StoreEvent (S : Type) where
  | saved (index : Nat) (settings : S)
  | crashed (back : Nat)

/-- The directory of a settings file, with the calls that are made for it. -/
structure SettingsStore (S : Type) where
  parent : String
  fileName : String
  disk : Disk String ByteArray
  saves : List (Save S) := []
  loaded : List (Except String S) := []
  events : List (StoreEvent S) := []

inductive StoreMove (S : Type) where
  | save (settings : S) (uuid : String)
  | load (default : S) (uuid : String)
  | advance (index : Nat) (fault : Option (String × ByteArray))
  | crash (names : String → Nat) (contents : Nat → ByteArray)

def temporaryName (fileName uuid : String) : String := "." ++ fileName ++ "." ++ uuid ++ ".tmp"

namespace SettingsStore

variable {S : Type} (format : SettingsFormat S) (store : SettingsStore S)

def path : String := s!"{store.parent}/{store.fileName}"

def temporary (save : Save S) : String := temporaryName store.fileName save.uuid

def settle (index : Nat) (phase : SavePhase) : SettingsStore S :=
  { store with saves := store.saves.modify index fun save => { save with phase := phase } }

/-- The next step of a save, which fails with an error or not; a file that cannot be written may
have got any of its bytes. -/
def advance (index : Nat) (save : Save S) (fault : Option (String × ByteArray)) :
    SettingsStore S :=
  let error := fault.map Prod.fst
  match save.phase with
  | .preparing =>
      match error with
      | some error => store.settle index <| .returned <| .error
          s!"failed to create log73-radio-client config directory {store.parent}: {error}"
      | none => store.settle index .creating
  | .creating =>
      let taken := (store.disk.current (store.temporary save)).map fun _ =>
          "File exists (os error 17)"
      match taken.or error with
      | some error =>
          store.settle index (.removing s!"failed to create temporary settings file: {error}")
      | none =>
          { store with disk := store.disk.create (store.temporary save) ByteArray.empty }.settle
            index (.writing store.disk.files.length)
  | .writing file =>
      match format.contents save.settings, fault with
      | .error error, _ => store.settle index
          (.removing s!"failed to serialize log73-radio-client settings: {error}")
      | .ok _, some (error, written) =>
          { store with disk := store.disk.write file written }.settle index
            (.removing s!"failed to write log73-radio-client settings: {error}")
      | .ok contents, none =>
          { store with disk := store.disk.write file contents }.settle index (.flushing file)
  | .flushing file =>
      match error with
      | some error => store.settle index
          (.removing s!"failed to flush log73-radio-client settings: {error}")
      | none => { store with disk := store.disk.flush file }.settle index .replacing
  | .replacing =>
      let missing := match store.disk.current (store.temporary save) with
        | none => some "No such file or directory (os error 2)"
        | some _ => none
      match missing.or error with
      | some error => store.settle index
          (.removing s!"failed to replace log73-radio-client settings: {error}")
      | none =>
          { store with
            disk := store.disk.rename (store.temporary save) store.fileName
            events := store.events ++ [StoreEvent.saved index save.settings] }.settle index
              (.returned (.ok ()))
  | .removing cause =>
      let disk := if error.isSome then store.disk else store.disk.remove (store.temporary save)
      { store with disk := disk }.settle index (.returned (.error cause))
  | .returned _ | .lost => store

/-- `load_or_create`; a file that is not there is made, by a save of the settings that are given. -/
def load (default : S) (uuid : String) : SettingsStore S :=
  match store.disk.read store.fileName with
  | some contents =>
      { store with loaded := store.loaded ++ [format.loadContents store.path contents] }
  | none => { store with saves := store.saves ++ [{ settings := default, uuid := uuid }] }

def step : StoreMove S → SettingsStore S
  | .save settings uuid =>
      { store with saves := store.saves ++ [{ settings := settings, uuid := uuid }] }
  | .load default uuid => store.load format default uuid
  | .advance index fault =>
      match store.saves[index]? with
      | some save => store.advance format index save fault
      | none => store
  | .crash names contents =>
      { store with
        disk := store.disk.crash names contents
        saves := store.saves.map fun save => { save with phase := save.phase.crash }
        events := store.events ++ [.crashed (names store.fileName)] }

end SettingsStore

end Log73.ClientSettings
