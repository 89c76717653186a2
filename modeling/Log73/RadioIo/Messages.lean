import Log73.Text

/-!
The message configurations of `messages.rs` and `message_mode.rs`: lines of a key, a label
and a target under section headers, and the actions that a target may name.
-/

namespace Log73.RadioIo

def runMessageMode : String := "run"
def searchAndPounceMessageMode : String := "s&p"

structure ParsedMessageEntry where
  mode : String
  key : String
  label : String
  target : String
  deriving DecidableEq

/-- `str::lines`: a last line without a newline counts unless it is empty, and keeps a
carriage return at its end. -/
def lines (s : String) : List String :=
  let parts := (splitOnChar '\n' s.toList).map String.ofList
  let terminated := parts.dropLast.map fun line => (stripSuffix "\r" line).getD line
  match parts.getLast? with
  | some last => if last = "" then terminated else terminated ++ [last]
  | none => terminated

section Parser

variable [Platform]

def parseMessageModeSectionHeader (line : String) : Option String :=
  let upper := toUppercase (trim line)
  if contains upper "RUN MESSAGES" then some runMessageMode
  else if contains upper "S&P MESSAGES" || contains upper "SP MESSAGES"
      || contains upper "SEARCH AND POUNCE MESSAGES" then some searchAndPounceMessageMode
  else none

/-- `splitn(2, char::is_whitespace)`: the first part and what follows one white space. -/
def splitFirstWhitespace (s : String) : String × Option String :=
  match s.toList.dropWhile fun c => !isWhitespace c with
  | [] => (s, none)
  | _ :: rest =>
      (String.ofList (s.toList.takeWhile fun c => !isWhitespace c), some (String.ofList rest))

def parseMessageLine (line : String) (currentMode : Option String) : Option ParsedMessageEntry :=
  (splitOnce ',' line).bind fun (keyAndLabel, target) =>
    let parts := splitFirstWhitespace keyAndLabel
    let key := trim parts.1
    let label := trim (parts.2.getD "")
    let normalizedKey := toUppercase key
    if !startsWith normalizedKey "F" then none
    else some { mode := currentMode.getD "", key := normalizedKey, label, target := trim target }

/-- The body of the loop: the section after the line, and the entry that the line adds. -/
def parseLine (currentMode : Option String) (rawLine : String) :
    Option String × Option ParsedMessageEntry :=
  let line := trim rawLine
  if line = "" then (currentMode, none)
  else
    match parseMessageModeSectionHeader line with
    | some mode => (some mode, none)
    | none =>
        if startsWith line "#" || currentMode.isNone then (currentMode, none)
        else (currentMode, parseMessageLine line currentMode)

def parseLines (currentMode : Option String) : List String → List ParsedMessageEntry
  | [] => []
  | rawLine :: lines =>
      (parseLine currentMode rawLine).2.toList ++ parseLines (parseLine currentMode rawLine).1 lines

def parseMessageEntries (config : String) : List ParsedMessageEntry :=
  parseLines none (lines config)

def functionKeys : List String :=
  ["F1", "F2", "F3", "F4", "F5", "F6", "F7", "F8", "F9", "F10", "F11", "F12"]

def isValidFunctionKey (key : String) : Bool := functionKeys.contains (toUppercase (trim key))

/-- The section in force and the keys that each section has so far. -/
structure ValidatedSections where
  currentMode : Option String
  runKeys : List String
  searchAndPounceKeys : List String

namespace ValidatedSections

def empty : ValidatedSections := { currentMode := none, runKeys := [], searchAndPounceKeys := [] }

def keys (sections : ValidatedSections) (mode : String) : List String :=
  if mode = runMessageMode then sections.runKeys else sections.searchAndPounceKeys

def insertKey (sections : ValidatedSections) (mode key : String) : ValidatedSections :=
  if mode = runMessageMode then { sections with runKeys := key :: sections.runKeys }
  else { sections with searchAndPounceKeys := key :: sections.searchAndPounceKeys }

end ValidatedSections

/-- A line that is neither blank nor a header nor a comment. -/
def validateMessageLine (targetLabel : String) (sections : ValidatedSections) (lineNumber : Nat)
    (line : String) : Except String ValidatedSections :=
  match sections.currentMode with
  | none => .error ("line " ++ toString lineNumber ++ ": message is outside a mode section")
  | some mode =>
      match parseMessageLine line (some mode) with
      | none =>
          .error ("line " ++ toString lineNumber ++ ": expected 'F# Label," ++ targetLabel ++ "'")
      | some entry =>
          if !isValidFunctionKey entry.key then
            .error ("line " ++ toString lineNumber ++ ": message key must be F1 through F12")
          else if (sections.keys mode).contains entry.key then
            .error ("line " ++ toString lineNumber ++ ": duplicate " ++ entry.key ++ " message in "
              ++ mode ++ " section")
          else .ok (sections.insertKey mode entry.key)

def validateLine (targetLabel : String) (sections : ValidatedSections) (lineNumber : Nat)
    (rawLine : String) : Except String ValidatedSections :=
  let line := trim rawLine
  if line = "" then .ok sections
  else
    match parseMessageModeSectionHeader line with
    | some mode => .ok { sections with currentMode := some mode }
    | none =>
        if startsWith line "#" then .ok sections
        else validateMessageLine targetLabel sections lineNumber line

def validateLines (targetLabel : String) (sections : ValidatedSections) (index : Nat) :
    List String → Except String ValidatedSections
  | [] => .ok sections
  | rawLine :: lines => do
      let sections ← validateLine targetLabel sections (index + 1) rawLine
      validateLines targetLabel sections (index + 1) lines

def validateMessageConfig (config targetLabel : String) : Except String Unit :=
  match validateLines targetLabel .empty 0 (lines config) with
  | .error error => .error error
  | .ok sections =>
      if sections.runKeys.isEmpty then .error "messages must include at least one Run message"
      else if sections.searchAndPounceKeys.isEmpty then
        .error "messages must include at least one S&P message"
      else .ok ()

end Parser

def actionFromTemplate (template : String) : Option String :=
  ((stripPrefix "\x7b" (trim template)).bind (stripSuffix "\x7d")).bind fun inner =>
    (splitOnce ':' (trim inner)).bind fun (name, value) =>
      let value := trim value
      if eqIgnoreAsciiCase (trim name) "action" && value != ""
          && !value.toList.any (fun c => c = '\x7b' || c = '\x7d') then some value
      else none

end Log73.RadioIo
