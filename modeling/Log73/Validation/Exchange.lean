import Log73.Callsign
import Log73.Contact
import Log73.ContestRules

/-!
Validation of exchange fields and of callsigns (`validation.rs`). Regular expressions
are compiled by an engine the model does not compute.
-/

namespace Log73

/-- `Regex::new` with the error it reports, and the texts a pattern matches. -/
class RegexEngine where
  compile : String → Except String (String → Bool)

/-- An engine for which every pattern matches every text. -/
@[reducible] def matchAll : RegexEngine where
  compile _ := .ok fun _ => true

namespace Validation

def maxCallsignLen : Nat := 12

section Text

variable [Platform]

def jsonTrimmedString : Option Value → Option String
  | some (.string s) => some (trim s)
  | some (.number n) => some n.toText
  | some (.bool b) => some (toString b)
  | _ => none

def normalizeLoggerMode (mode : String) : String := toUppercase (trim mode)

def modeIsCw (mode : String) : Bool :=
  normalizeLoggerMode mode = "CW" || normalizeLoggerMode mode = "CW-R"

def adifModeForLoggerMode (mode : String) : String :=
  let normalized := normalizeLoggerMode mode
  if normalized = "CW-R" then "CW"
  else if normalized = "DATA" then "RTTY"
  else normalized

end Text

def validateRequiredText (label value : String) (maxLength : Nat) : Except String Unit :=
  let value := trim value
  if value.isEmpty then .error (label ++ " is required")
  else if maxLength < value.length then
    .error (label ++ " must be at most " ++ toString maxLength ++ " characters")
  else if value.toList.any isControl then
    .error (label ++ " cannot contain control characters")
  else .ok ()

section Callsigns

variable [Platform]

def structureMessage (label : String) (allowQuery : Bool) : Callsign.StructureError → String
  | .invalidCharacter =>
      label ++ " can only contain "
        ++ if allowQuery then "A-Z, 0-9, '/', and '?'" else "A-Z, 0-9, and '/'"
  | .tooManySlashes => label ++ " can contain at most one slash"
  | .edgeSlash => label ++ " slash must be in the middle, not at the ends"

/-- The digit rule judges the resolved base; a base with wildcards escapes it in a query. -/
def validateBase (label : String) (base : List Char) (allowQuery : Bool) : Except String Unit :=
  let wildcardQuery := allowQuery && base.contains '?'
  if !wildcardQuery && !Callsign.isCallsignLike base then
    .error (label ++ " must have a digit in the 2nd or 3rd character")
  else .ok ()

def validateCallsign (label value : String) (allowQuery : Bool) : Except String Unit := do
  validateRequiredText label value maxCallsignLen
  let normalized := Callsign.normalize value
  (Callsign.checkStructure normalized allowQuery).mapError (structureMessage label allowQuery)
  validateBase label ((Callsign.parseBase normalized.toList).getD []) allowQuery

end Callsigns

section Fields

variable [Platform]

structure ParsedFieldType where
  kind : String
  maxLength : Nat

/-- `as_spec` of a field input, the text that `parse_field_type` reads back. -/
def kindName : FieldInputKind → String
  | .string => "STRING"
  | .rst => "RST"
  | .numeric => "NUMERIC"
  | .serial => "SERIAL"

def asSpec (input : FieldInput) : String :=
  match input.maxLength with
  | some maxLength => kindName input.kind ++ ":" ++ toString maxLength
  | none => kindName input.kind

def parseFieldType (fieldType radioMode : String) : ParsedFieldType :=
  let parts := (splitOnChar ':' fieldType.toList).map String.ofList
  let kind := toUppercase (trim (parts.head?.getD "STRING"))
  let rawLength := (parts[1]?).getD "8"
  let maxLength :=
    if kind = "RST" then if modeIsCw radioMode then 3 else 2
    else ((parseUsize rawLength).filter fun length => 0 < length).getD 8
  { kind, maxLength }

def isValidRst (value : String) (expectedLength : Nat) : Bool :=
  value.utf8ByteSize = expectedLength && 2 ≤ value.utf8ByteSize && value.utf8ByteSize ≤ 3
    &&
      match value.toList with
      | [] => false
      | c :: cs => '1' ≤ c && c ≤ '5' && cs.all fun digit => '1' ≤ digit && digit ≤ '9'

/-- The test that belongs to the kind of a field. -/
def validateKind (label : String) (parsed : ParsedFieldType) (normalizedValue radioMode : String) :
    Except String Unit :=
  if parsed.kind = "RST" then
    let expectedLength := if modeIsCw radioMode then 3 else 2
    if !isValidRst normalizedValue expectedLength then
      .error (label ++ " must be a valid " ++ toString expectedLength ++ "-digit RST")
    else .ok ()
  else if (parsed.kind = "NUMERIC" ∨ parsed.kind = "SERIAL")
      ∧ normalizedValue.toList.all isAsciiDigit = false then
    .error (label ++ " must be numeric")
  else .ok ()

variable [RegexEngine]

def matchesRegex (label : String) (pattern : Option String) (normalizedValue : String) :
    Except String Bool :=
  match pattern with
  | none => .ok true
  | some pattern =>
      match RegexEngine.compile pattern with
      | .error error => .error ("invalid regex for " ++ label ++ ": " ++ error)
      | .ok regex => .ok (regex normalizedValue)

/-- A set of values and a pattern must both agree, unless one of them is said to be enough. -/
def validationMatches (validValues : List String) (pattern : Option String)
    (validValuesOrRegex : Bool) (normalizedValue : String) (matchesRegex : Bool) : Bool :=
  let matchesValidValue :=
    validValues.isEmpty || validValues.any (eqIgnoreAsciiCase · normalizedValue)
  if validValues.isEmpty || pattern.isNone then matchesValidValue && matchesRegex
  else if validValuesOrRegex then matchesValidValue || matchesRegex
  else matchesValidValue && matchesRegex

def validateTypedField (label fieldType value : String) (validValues : List String)
    (pattern : Option String) (validValuesOrRegex : Bool) (radioMode : String) :
    Except String Unit :=
  let normalizedValue := toUppercase (trim value)
  let parsed := parseFieldType fieldType radioMode
  if normalizedValue.isEmpty then .error (label ++ " is required")
  else if parsed.maxLength < normalizedValue.length then
    .error (label ++ " must be at most " ++ toString parsed.maxLength ++ " characters")
  else do
    validateKind label parsed normalizedValue radioMode
    let matchesRegex ← matchesRegex label pattern normalizedValue
    if validationMatches validValues pattern validValuesOrRegex normalizedValue matchesRegex then
      .ok ()
    else .error (label ++ " must be one of: " ++ joinWith ", " validValues)

end Fields

section Conditions

variable [Platform]

/-- ADIF first, then metadata. -/
def conditionValue (contact : Contact) (field : String) : String :=
  ((jsonTrimmedString (contactAdifValue contact field)).or
    (jsonTrimmedString (contactMetaValue contact field))).getD ""

def contactMatchesCondition (contact : Contact) (condition : ScoringCondition) : Bool :=
  let value := toUppercase (conditionValue contact condition.field)
  if value.isEmpty then false
  else if !condition.values.isEmpty && !condition.values.any (eqIgnoreAsciiCase · value) then false
  else if condition.excludeValues.any (eqIgnoreAsciiCase · value) then false
  else
    let matchesField := condition.matchesField.all fun otherField =>
      let otherValue := conditionValue contact otherField
      !otherValue.isEmpty && eqIgnoreAsciiCase value otherValue
    let notMatchesField := condition.notMatchesField.all fun otherField =>
      let otherValue := conditionValue contact otherField
      !otherValue.isEmpty && !eqIgnoreAsciiCase value otherValue
    matchesField && notMatchesField

def exchangeFieldApplies (field : ExchangeField) (contact : Contact) : Bool :=
  field.onlyWhen.all (contactMatchesCondition contact)

variable [RegexEngine]

def validateExchangeField (field : ExchangeField) (contact : Contact) (radioMode : String) :
    Except String Unit :=
  let value := (jsonTrimmedString (contactAdifValue contact field.adif)).getD ""
  if !exchangeFieldApplies field contact then
    if value.isEmpty then .ok () else .error (field.label ++ " must be blank")
  else if value.isEmpty then .error (field.label ++ " is required")
  else
    validateTypedField field.label (asSpec field.input) value field.validation.values
      field.validation.pattern (field.validation.matchMode = .any) radioMode

end Conditions

end Validation

end Log73
