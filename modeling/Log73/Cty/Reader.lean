import Log73.Callsign
import Log73.Cabrillo.Render

/-!
The reader of a CTY file (`dxcc.rs`): the records of the file row by row, an entity from the
first nine fields of a row and its rules from the tokens of the tenth. What a text denotes as a
double is supplied, so that `F` holds whatever `f64` does.
-/

namespace Log73.Cty

/-- Why a text is no unsigned number. -/
inductive IntError where
  | empty
  | invalidDigit
  | posOverflow

def IntError.text : IntError → String
  | .empty => "cannot parse integer from empty string"
  | .invalidDigit => "invalid digit found in string"
  | .posOverflow => "number too large to fit in target type"

/-- The digits of a number one after another, until one is wrong or the sum is too large. -/
def readDigits (high : Nat) : Nat → List Char → Except IntError Nat
  | value, [] => .ok value
  | value, c :: cs =>
      if isAsciiDigit c then
        if 10 * value + (c.toNat - 48) ≤ high then readDigits high (10 * value + (c.toNat - 48)) cs
        else .error .posOverflow
      else .error .invalidDigit

/-- `str::parse` for an unsigned type with the given bound, with its error. -/
def readUnsigned (high : Nat) (value : String) : Except IntError Nat :=
  match value.toList with
  | [] => .error .empty
  | ['+'] => .error .invalidDigit
  | '+' :: cs => readDigits high 0 cs
  | cs => readDigits high 0 cs

def parseUnsignedField (high : Nat) (value label : String) : Except String Nat :=
  (readUnsigned high (trim value)).mapError fun error => s!"invalid {label}: {error.text}"

def parseU8Field (value label : String) : Except String Nat := parseUnsignedField 255 value label

def parseU16Field (value label : String) : Except String Nat :=
  parseUnsignedField 65535 value label

section Fields

variable {F : Type} (parseF64 : String → Option F)

def parseF64Field (value label : String) : Except String F :=
  match parseF64 (trim value) with
  | some double => .ok double
  | none =>
      let reason :=
        if (trim value).isEmpty then "cannot parse float from empty string"
        else "invalid float literal"
      .error s!"invalid {label}: {reason}"

end Fields

structure Entity (F : Type) where
  countryName : String
  adif : Nat
  cqZone : Nat
  ituZone : Nat
  continent : String
  latitude : F
  longitude : F
  utcOffset : F
  primaryPrefix : String
  waedcCqList : Bool

structure Rule (F : Type) where
  pattern : String
  exact : Bool
  entityIndex : Nat
  cqZone : Option Nat := none
  ituZone : Option Nat := none
  continent : Option String := none
  latitude : Option F := none
  longitude : Option F := none
  utcOffset : Option F := none

structure Database (F : Type) where
  entities : List (Entity F) := []
  rules : List (Rule F) := []

/-- The parts of a token that override what its entity says, in the order they are tried. -/
inductive Modifier where
  | cqZone
  | ituZone
  | continent
  | utcOffset
  | position
  deriving DecidableEq

namespace Modifier

def opening : Modifier → Char
  | cqZone => '('
  | ituZone => '['
  | continent => '{'
  | utcOffset => '~'
  | position => '<'

def closing : Modifier → Char
  | cqZone => ')'
  | ituZone => ']'
  | continent => '}'
  | utcOffset => '~'
  | position => '>'

/-- The modifier a character opens. -/
def ofOpening (c : Char) : Option Modifier :=
  [cqZone, ituZone, continent, utcOffset, position].find? (·.opening = c)

variable {F : Type} (parseF64 : String → Option F)

/-- What the text between the characters of a modifier sets. -/
def apply (value : String) (rule : Rule F) : Modifier → Except String (Rule F)
  | cqZone => do
      let zone ← parseU8Field value "override CQ zone"
      return { rule with cqZone := some zone }
  | ituZone => do
      let zone ← parseU8Field value "override ITU zone"
      return { rule with ituZone := some zone }
  | continent => .ok { rule with continent := some (trim value) }
  | utcOffset => do
      let offset ← parseF64Field parseF64 value "override UTC offset"
      return { rule with utcOffset := some offset }
  | position =>
      match splitOnce '/' value with
      | none => .error s!"invalid latitude/longitude override: <{value}>"
      | some (latitude, longitude) => do
          let latitude ← parseF64Field parseF64 latitude "override latitude"
          let longitude ← parseF64Field parseF64 longitude "override longitude"
          return { rule with latitude := some latitude, longitude := some longitude }

end Modifier

section Reading

variable {F : Type} (parseF64 : String → Option F)

/-- The modifiers of a token one after another: each is opened by its own character and lasts
up to the next character that closes it. -/
def parseModifiers (token : String) : List Char → Rule F → Except String (Rule F)
  | [], rule => .ok rule
  | c :: input, rule =>
      match Modifier.ofOpening c with
      | none => .error s!"invalid CTY modifier sequence: {token}"
      | some modifier =>
          match _hend : input.dropWhile (· ≠ modifier.closing) with
          | [] => .error s!"unterminated CTY modifier: {String.ofList (c :: input)}"
          | _ :: rest => do
              let value := String.ofList (input.takeWhile (· ≠ modifier.closing))
              let rule ← modifier.apply parseF64 value rule
              parseModifiers token rest rule
termination_by input => input.length
decreasing_by
  have := List.length_dropWhile_le (· ≠ modifier.closing) input
  simp_all
  omega

/-- Whether a token is meant as a whole, and what follows the mark that says so. -/
def unmark : List Char → Bool × List Char
  | '=' :: rest => (true, rest)
  | rest => (false, rest)

def isPlain (c : Char) : Bool := (Modifier.ofOpening c).isNone

variable [Platform]

def parseRule (token : String) (entityIndex : Nat) : Except String (Rule F) := do
  let (exact, rest) := unmark (trimChars token.toList)
  let pattern := toUppercase (trim (String.ofList (rest.takeWhile isPlain)))
  let rule ← parseModifiers parseF64 token (rest.dropWhile isPlain) { pattern, exact, entityIndex }
  if rule.pattern.isEmpty then .error s!"invalid CTY alias token: {token}" else return rule

/-- A field of a record, which `row` names from one on. -/
def recordField (record : List String) (index row : Nat) : Except String String :=
  match record[index]? with
  | some field => .ok (trim field)
  | none => .error s!"invalid CTY CSV row {row}: missing field {index}"

def parseEntity (record : List String) (row : Nat) : Except String (Entity F) := do
  let rawPrimaryPrefix ← recordField record 0 row
  let countryName ← recordField record 1 row
  let adif ← parseU16Field (← recordField record 2 row) "ADIF DXCC number"
  let continent ← recordField record 3 row
  let cqZone ← parseU8Field (← recordField record 4 row) "CQ zone"
  let ituZone ← parseU8Field (← recordField record 5 row) "ITU zone"
  let latitude ← parseF64Field parseF64 (← recordField record 6 row) "latitude"
  let longitude ← parseF64Field parseF64 (← recordField record 7 row) "longitude"
  let utcOffset ← parseF64Field parseF64 (← recordField record 8 row) "UTC offset"
  return {
    primaryPrefix := String.ofList (rawPrimaryPrefix.toList.dropWhile (· = '*'))
    waedcCqList := startsWith rawPrimaryPrefix "*"
    countryName, adif, continent, cqZone, ituZone, latitude, longitude, utcOffset }

def trimEndMatches (c : Char) (s : String) : String := String.ofList (s.toList.rdropWhile (· = c))

/-- The tokens of a tenth field. -/
def aliasTokens (aliases : String) : List String :=
  ((Cabrillo.splitWhitespace aliases).map fun token =>
    trim (trimEndMatches ';' (trim token))).filter
    fun token => !token.isEmpty

/-- The rules a row adds, the one of the primary prefix first. -/
def rowRules (record : List String) (row entityIndex : Nat) (primaryPrefix : String) :
    Except String (List (Rule F)) := do
  let first ← parseRule parseF64 primaryPrefix entityIndex
  let aliases ← recordField record 9 row
  let rules ← (aliasTokens aliases).mapM fun token => parseRule parseF64 token entityIndex
  return first :: rules

def isBlank (record : List String) : Bool := record.all fun field => (trim field).isEmpty

/-- One record of the file, or what the reader of its columns says of it. -/
def readRecord (database : Database F) (row : Nat) (record : Except String (List String)) :
    Except String (Database F) := do
  let record ← record.mapError fun error => s!"invalid CTY CSV row {row}: {error}"
  if isBlank record then return database
  else if record.length ≠ 10 then
    .error s!"invalid CTY CSV row {row}: expected 10 fields, found {record.length}"
  else
    let entity ← parseEntity parseF64 record row
    let rules ← rowRules parseF64 record row database.entities.length entity.primaryPrefix
    return { entities := database.entities ++ [entity], rules := database.rules ++ rules }

/-- The records of a file, of which the first is row one. -/
def fromRecords (records : List (Except String (List String))) : Except String (Database F) :=
  (records.zipIdx 1).foldlM (fun database entry => readRecord parseF64 database entry.2 entry.1) {}

end Reading

end Log73.Cty
