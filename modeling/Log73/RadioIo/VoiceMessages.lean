import Log73.FileSystem
import Log73.Library.Checks
import Log73.RadioIo.Messages

/-!
The voice messages of a radio (`voice_messages.rs`): the entries of a configuration, the paths
that may stand in it, and its validation against the `voicekeyer` directory.
-/

namespace Log73.RadioIo

open Checks

structure VoiceLabel where
  key : String
  label : String
  deriving DecidableEq

structure VoiceLabels where
  run : List VoiceLabel
  searchAndPounce : List VoiceLabel
  deriving DecidableEq

structure VoiceMessageEntry where
  mode : String
  key : String
  label : String
  filePath : Option String
  action : Option String
  deriving DecidableEq

structure VoiceMessage where
  key : String
  label : String
  target : String

structure VoiceMessages where
  run : List VoiceMessage
  searchAndPounce : List VoiceMessage

/-- `str::replace`; the number counts the characters of a match that are still to be passed. -/
def replaceChars (pattern new : List Char) : Nat → List Char → List Char
  | _, [] => []
  | passed + 1, _ :: cs => replaceChars pattern new passed cs
  | 0, c :: cs =>
      if pattern.isPrefixOf (c :: cs) then new ++ replaceChars pattern new (pattern.length - 1) cs
      else c :: replaceChars pattern new 0 cs

def replaceText (pattern new s : String) : String :=
  String.ofList (replaceChars pattern.toList new.toList 0 s.toList)

section Paths

/-- `Path::extension`: what follows the last dot of the last name, unless that starts the name. -/
def fileExtension (path : String) : Option String :=
  match (pathComponents path).getLast? with
  | some (.normal name) =>
      match name.toList.reverse.dropWhile (· ≠ '.') with
      | [] | [_] => none
      | _ :: _ :: _ =>
          some (String.ofList (name.toList.reverse.takeWhile (· ≠ '.')).reverse)
  | _ => none

/-- The loop over the components of a path: whether one of them is a name. -/
def checkComponents : Bool → List PathComponent → Except String Bool
  | hasNormalComponent, [] => .ok hasNormalComponent
  | _, .normal _ :: components => checkComponents true components
  | _, .parentDir :: _ => .error "voice message file path cannot contain '..'"
  | _, .curDir :: _ => .error "voice message file path cannot contain '.'"
  | _, .rootDir :: _ => .error "voice message file path must be relative to voicekeyer/"

def validateVoiceFilePath (path : String) : Except String Unit := do
  let trimmed := trim path
  failIf (trimmed = "") "voice message file path is required"
  failIf (isAbsolute trimmed = true) "voice message file path must be relative to voicekeyer/"
  let hasNormalComponent ← checkComponents false (pathComponents trimmed)
  failIf (hasNormalComponent = false) "voice message file path is required"
  let isWav := ((fileExtension trimmed).map fun extension => eqIgnoreAsciiCase extension "wav").getD
    false
  failIf (isWav = false) "voice message file must be a .wav file"

def voicekeyerFilePath (voicekeyerDir relativePath : String) : Except String String := do
  validateVoiceFilePath relativePath
  return joinPath voicekeyerDir (trim relativePath)

variable [OsTexts]

def existingVoicekeyerFilePath (fs : FileSystem) (voicekeyerDir relativePath : String) :
    Except String (List OsName) := do
  let path ← voicekeyerFilePath voicekeyerDir relativePath
  failIf (fs.isFile path = false)
    ("voice file not found under voicekeyer/: " ++ trim relativePath)
  let canonicalRoot ← okOr (fs.canonicalize voicekeyerDir)
      ("failed to resolve voicekeyer/ directory '"
    ++ voicekeyerDir ++ "': " ++ OsTexts.failure voicekeyerDir)
  let canonicalPath ← okOr (fs.canonicalize path) ("failed to resolve voice message file '" ++
    trim relativePath ++ "': " ++ OsTexts.failure path)
  failIf (canonicalRoot.isPrefixOf canonicalPath = false)
    "voice message file path must stay within voicekeyer/"
  return canonicalPath

end Paths

section Templates

def isFieldPlaceholder (name : List Char) : Bool :=
  !name.isEmpty && name.all fun c => isAsciiUppercase c || isAsciiDigit c || c = '_'

/-- The scan for a placeholder, with the name read so far, backwards, inside a brace. -/
def hasTemplate : Option (List Char) → List Char → Bool
  | none, [] => false
  | some name, [] => isFieldPlaceholder name.reverse
  | none, c :: cs => hasTemplate (if c = '\x7b' then some [] else none) cs
  | some name, c :: cs =>
      if c = '\x7d' then isFieldPlaceholder name.reverse || hasTemplate none cs
      else hasTemplate (some (c :: name)) cs

def filePathHasTemplate (path : String) : Bool := hasTemplate none path.toList

/-- The scan that puts an example in the place of each placeholder that is closed. -/
def renderTemplate : Option (List Char) → List Char → List Char
  | none, [] => []
  | some name, [] => '\x7b' :: name.reverse
  | none, c :: cs =>
      if c = '\x7b' then renderTemplate (some []) cs else c :: renderTemplate none cs
  | some name, c :: cs =>
      if c = '\x7d' then
        (if isFieldPlaceholder name.reverse then ['X'] else '\x7b' :: (name.reverse ++ ['\x7d'])) ++
          renderTemplate none cs
      else renderTemplate (some (c :: name)) cs

def templatePathExample (template : String) : String :=
  String.ofList (renderTemplate none template.toList)

def validateVoiceFilePathTemplate (template : String) : Except String Unit :=
  validateVoiceFilePath (templatePathExample template)

end Templates

section Entries

variable [Platform]

def voiceMessageFromEntry (entry : ParsedMessageEntry) : VoiceMessage :=
  { key := entry.key, label := entry.label, target := entry.target }

def parseMessages (config : String) : VoiceMessages :=
  let messages (mode : String) :=
    ((parseMessageEntries config).filter (·.mode = mode)).map voiceMessageFromEntry
  { run := messages runMessageMode, searchAndPounce := messages searchAndPounceMessageMode }

def filePathFromTarget (target : String) : Option String :=
  if trim target = "" ∨ (actionFromTemplate (trim target)).isSome then none else some (trim target)

def entriesForMode (mode : String) (messages : List VoiceMessage) : List VoiceMessageEntry :=
  messages.map fun message =>
    let action := actionFromTemplate message.target
    { mode
      key := message.key
      label := message.label
      filePath := if action.isSome then none else filePathFromTarget message.target
      action }

def entries (config : String) : List VoiceMessageEntry :=
  entriesForMode runMessageMode (parseMessages config).run ++
    entriesForMode searchAndPounceMessageMode (parseMessages config).searchAndPounce

def labelsFor (messages : List VoiceMessage) : List VoiceLabel :=
  messages.map fun message => { key := message.key, label := message.label }

def labels (config : String) : VoiceLabels :=
  { run := labelsFor (parseMessages config).run
    searchAndPounce := labelsFor (parseMessages config).searchAndPounce }

def modeLabel (mode : String) : String := if mode = "run" then "Run" else "S&P"

/-- The loop of `validate` over the entries. -/
def validateEntries (index : Nat) : List VoiceMessageEntry → Except String Unit
  | [] => .ok ()
  | entry :: entries => do
      match entry.filePath.map validateVoiceFilePath with
      | some (.error error) => throw ("line " ++ (index + 1).repr ++ ": " ++ error)
      | _ => validateEntries (index + 1) entries

def validate (config : String) : Except String VoiceLabels := do
  match validateMessageConfig config "File" with
  | .error error => throw (replaceText "messages must" "Voice messages must" error)
  | .ok () =>
      validateEntries 0 (entries config)
      return labels config

variable [OsTexts]

def validateFile (fs : FileSystem) (voicekeyerDir filePath : String) : Except String Unit :=
  if filePathHasTemplate filePath then validateVoiceFilePathTemplate filePath
  else (existingVoicekeyerFilePath fs voicekeyerDir filePath).map fun _ => ()

/-- The loop of `validate_with_voicekeyer_dir` over the entries. -/
def validateFiles (fs : FileSystem) (voicekeyerDir : String) :
    List VoiceMessageEntry → Except String Unit
  | [] => .ok ()
  | entry :: entries => do
      match entry.filePath.map (validateFile fs voicekeyerDir) with
      | some (.error error) => throw (modeLabel entry.mode ++ " " ++ entry.key ++ " " ++ error)
      | _ => validateFiles fs voicekeyerDir entries

def validateWithVoicekeyerDir (fs : FileSystem) (config voicekeyerDir : String) :
    Except String VoiceLabels := do
  let labels ← validate config
  validateFiles fs voicekeyerDir (entries config)
  return labels

end Entries

end Log73.RadioIo
