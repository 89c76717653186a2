import Log73.Frontend.Callsign
import Log73.Library.Backtrack
import Log73.RadioIo.Messages

/-!
The message configurations of the frontend (`messages.js`, `messageModes.js`), the mirror of
`messages.rs`. Its entries are the same records.
-/

namespace Log73.Frontend

open RadioIo (ParsedMessageEntry runMessageMode searchAndPounceMessageMode)

/-- `split(/\r?\n/)`. -/
def splitLines : List Char → List (List Char)
  | [] => [[]]
  | '\n' :: cs => [] :: splitLines cs
  | '\r' :: '\n' :: cs => [] :: splitLines cs
  | c :: cs =>
      match splitLines cs with
      | [] => [[c]]
      | part :: parts => (c :: part) :: parts

section Parser

variable [Platform]

def parseMessageModeSectionHeader (line : String) : Option String :=
  let upper := toUpperCase (trim line)
  if contains upper "RUN MESSAGES" then some runMessageMode
  else if contains upper "S&P MESSAGES" || contains upper "SP MESSAGES"
      || contains upper "SEARCH AND POUNCE MESSAGES" then some searchAndPounceMessageMode
  else none

/-- A line that is neither blank nor a header nor a comment, in a section. -/
def parseMessageLine (line : List Char) (currentMode : String) : Option ParsedMessageEntry :=
  match indexOf ',' line with
  | none => none
  | some commaIndex =>
      if commaIndex ≤ 0 then none
      else
        let keyAndLabel := trimChars (line.take commaIndex)
        let target := trimChars (line.drop (commaIndex + 1))
        let separatorIndex := keyAndLabel.findIdx? isWhitespace
        let key := toUpperCase (String.ofList (separatorIndex.elim keyAndLabel keyAndLabel.take))
        if !startsWith key "F" then none
        else
          some
            { mode := currentMode
              key
              label := separatorIndex.elim "" fun index =>
                String.ofList (trimChars (keyAndLabel.drop index))
              target := String.ofList target }

/-- The body of the loop: the section after the line, and the entry that the line adds. -/
def parseLine (currentMode : Option String) (rawLine : List Char) :
    Option String × Option ParsedMessageEntry :=
  let line := trimChars rawLine
  if line = [] then (currentMode, none)
  else
    match parseMessageModeSectionHeader (String.ofList line) with
    | some sectionMode => (some sectionMode, none)
    | none =>
        match currentMode with
        | none => (none, none)
        | some mode =>
            if startsWith (String.ofList line) "#" then (some mode, none)
            else (some mode, parseMessageLine line mode)

def parseLines (currentMode : Option String) : List (List Char) → List ParsedMessageEntry
  | [] => []
  | rawLine :: lines =>
      (parseLine currentMode rawLine).2.toList ++ parseLines (parseLine currentMode rawLine).1 lines

def parseMessageEntries (config : String) : List ParsedMessageEntry :=
  parseLines none (splitLines config.toList)

end Parser

section Actions

/-- Letters under the `i` flag: those of ASCII match in both cases. -/
def sameLetter (c d : Char) : Bool := c.toUpper = d.toUpper

def isNoBrace (c : Char) : Bool := c != '\x7b' && c != '\x7d'

/-- The groups of `/^\{\s*action\s*:\s*([^{}]+?)\s*\}$/i`, the one that is found first. -/
def actionGroups (text : List Char) : List (List Char) :=
  let beforeGroup := (Backtrack.one (· = '\x7b') text).flatMap fun rest =>
    (Backtrack.star isWhitespace rest).flatMap fun rest =>
      (Backtrack.word sameLetter "action".toList rest).flatMap fun rest =>
        (Backtrack.star isWhitespace rest).flatMap fun rest =>
          (Backtrack.one (· = ':') rest).flatMap (Backtrack.star isWhitespace)
  let groups := beforeGroup.flatMap (Backtrack.lazyGroup isNoBrace)
  let closed (rest : List Char) : Bool :=
    ((Backtrack.star isWhitespace rest).flatMap (Backtrack.one (· = '\x7d'))).any (·.isEmpty)
  (groups.filter fun found => closed found.2).map Prod.fst

def actionFromTemplate (template : String) : Option String :=
  ((actionGroups (trimChars template.toList)).head?.map fun found =>
    String.ofList (trimChars found)).filter (· ≠ "")

end Actions

end Log73.Frontend
