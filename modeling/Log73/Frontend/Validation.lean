import Log73.Frontend.Dupes
import Log73.Validation.Exchange

/-!
Conditions and field validation of the frontend (`conditions.js`, `validation.js`), the
mirror of `validation.rs`. The fields that are validated are exchange fields, which have
no widget and no line limit.
-/

namespace Log73.Frontend

open SortedAssoc

section Conditions

variable [Platform] [Browser]

/-- Strings, numbers and booleans count; every other value counts as absent. -/
def scalarString (value : Value) : Option String :=
  (jsonString (some value)).map fun text => toUpperCase (trim text)

def normalizeConditionValue (value : String) : String := toUpperCase (trim value)

/-- The first entry whose name is the one asked for, in uppercase. -/
def rawAdifValue (source : Map) (normalizedField : String) : Option Value :=
  (source.find? fun entry => toUpperCase entry.1 = normalizedField).map Prod.snd

/-- ADIF first, then metadata under the very name. -/
def lookupConditionValue (field : String) (fields metadata : Map) : String :=
  let normalizedField := normalizeConditionValue field
  if normalizedField = "" then ""
  else
    (((rawAdifValue fields normalizedField).bind scalarString).or
      ((get? metadata field).bind scalarString)).getD ""

def conditionApplies (condition : ScoringCondition) (fields metadata : Map) : Bool :=
  let value := lookupConditionValue condition.field fields metadata
  if value = "" then false
  else if !condition.values.isEmpty
      && !condition.values.any fun candidate => normalizeConditionValue candidate = value then
    false
  else if condition.excludeValues.any fun candidate =>
    normalizeConditionValue candidate = value then
    false
  else
    let matchesField := condition.matchesField.all fun otherField =>
      let other := lookupConditionValue otherField fields metadata
      other != "" && other = value
    let notMatchesField := condition.notMatchesField.all fun otherField =>
      let other := lookupConditionValue otherField fields metadata
      other != "" && other != value
    matchesField && notMatchesField

end Conditions

section Callsigns

variable [Platform]

def maxCallsignLength : Nat := 12

def checkCallsignStructure (normalized : String) (allowQuery : Bool) :
    Option Callsign.StructureError :=
  let slashCount := (normalized.toList.filter (· = '/')).length
  if !normalized.toList.all fun c =>
      isCallsignCharacter c || c = '/' || (allowQuery && c = '?') then some .invalidCharacter
  else if 1 < slashCount then some .tooManySlashes
  else if startsWith normalized "/" || endsWith normalized "/" then some .edgeSlash
  else none

/-- The structure is checked as for a query, so that `?` has a message of its own. -/
def validateCallsign (value : String) (allowQuery : Bool) : Except String Unit :=
  let normalizedValue := normalizeCallsign value
  if normalizedValue = "" then .error "Callsign is required."
  else if maxCallsignLength < normalizedValue.length then
    .error ("Callsign must be at most " ++ toString maxCallsignLength ++ " characters.")
  else
    let structureError := checkCallsignStructure normalizedValue true
    match structureError with
    | some .invalidCharacter => .error "Callsign can only contain A-Z, 0-9, '/', and '?'."
    | _ =>
        if !allowQuery && normalizedValue.toList.contains '?' then
          .error "Callsign cannot contain '?' when logging."
        else
          match structureError with
          | some .tooManySlashes => .error "Callsign can contain at most one slash."
          | some .edgeSlash => .error "Callsign slash must be in the middle, not at the ends."
          | _ =>
              let base := (parseBase normalizedValue.toList).getD []
              let wildcardQuery := allowQuery && base.contains '?'
              if !wildcardQuery && !isCallsignLike base then
                .error "Callsign must have a digit in the 2nd or 3rd character."
              else .ok ()

end Callsigns

section Fields

variable [Platform]

def modeIsCw (mode : String) : Bool :=
  let normalized := normalizeLoggerMode (some mode)
  normalized = "CW" || normalized = "CW-R"

def adifModeForLoggerMode (mode : String) : String :=
  let normalizedMode := normalizeLoggerMode (some mode)
  if modeIsCw normalizedMode then "CW"
  else if normalizedMode = "DATA" then "RTTY"
  else normalizedMode

/-- How the kind of a field is written in the settings. -/
def kindText : FieldInputKind → String
  | .string => "string"
  | .rst => "rst"
  | .numeric => "numeric"
  | .serial => "serial"

/-- `/^([1-5][1-9]{1,2})$/`. -/
def matchesRst (value : String) : Bool :=
  match value.toList with
  | [] => false
  | c :: cs =>
      '1' ≤ c && c ≤ '5' && (cs.length = 1 || cs.length = 2)
        && cs.all fun digit => '1' ≤ digit && digit ≤ '9'

/-- `/^\\d+$/`. -/
def matchesDigits (value : String) : Bool :=
  !value.toList.isEmpty && value.toList.all isAsciiDigit

def validateKind (field : ExchangeField) (normalizedValue radioMode : String) :
    Except String Unit :=
  let kind := toUpperCase (kindText field.input.kind)
  if kind = "RST" then
    let expectedLength := if modeIsCw radioMode then 3 else 2
    if !matchesRst normalizedValue || length normalizedValue != expectedLength then
      .error (field.label ++ " must be a valid " ++ toString expectedLength ++ "-digit RST.")
    else .ok ()
  else if (kind = "NUMERIC" ∨ kind = "SERIAL") ∧ matchesDigits normalizedValue = false then
    .error (field.label ++ " must be numeric.")
  else .ok ()

variable [RegexEngine]

/-- The pattern is tried on the value as it was typed, trimmed. An empty one is no pattern. -/
def matchesRegex (field : ExchangeField) (trimmedValue : String) : Except String Bool :=
  match field.validation.pattern with
  | none => .ok true
  | some pattern =>
      if pattern = "" then .ok true
      else
        match RegexEngine.compile pattern with
        | .error _ => .error (field.label ++ " has an invalid validation pattern.")
        | .ok regex => .ok (regex trimmedValue)

/-- A set of values and a pattern must both agree, unless one of them is said to be enough. -/
def validationMatches (field : ExchangeField) (normalizedValue : String) (matchesRegex : Bool) :
    Bool :=
  let hasValidValues := !field.validation.values.isEmpty
  let hasPattern := field.validation.pattern.any (· ≠ "")
  let matchesValidValue := !hasValidValues
    || field.validation.values.any fun validValue => toUpperCase validValue = normalizedValue
  if hasValidValues && hasPattern && field.validation.matchMode = .any then
    matchesValidValue || matchesRegex
  else matchesValidValue && matchesRegex

def validateSingleValue (field : ExchangeField) (value radioMode : String) :
    Except String Unit := do
  let trimmedValue := trim value
  let normalizedValue := toUpperCase trimmedValue
  validateKind field normalizedValue radioMode
  let matchesRegex ← matchesRegex field trimmedValue
  if validationMatches field normalizedValue matchesRegex then .ok ()
  else if !field.validation.values.isEmpty then
    .error (field.label ++ " must be one of the configured values.")
  else .error (field.label ++ " is invalid.")

def validateConfiguredField (field : ExchangeField) (value radioMode : String) :
    Except String Unit :=
  let normalizedValue := trim value
  if normalizedValue = "" then
    if field.validation.required = false then .ok ()
    else .error (field.label ++ " is required.")
  else validateSingleValue field normalizedValue radioMode

variable [Browser]

def validateExchangeField (field : ExchangeField) (value radioMode : String)
    (conditionFields conditionMeta : Map) : Except String Unit :=
  match field.onlyWhen with
  | none => validateConfiguredField field value radioMode
  | some condition =>
      if !conditionApplies condition conditionFields conditionMeta then
        if trim value = "" then .ok () else .error (field.label ++ " must be blank.")
      else validateConfiguredField field value radioMode

/-- The text of a field that is submitted with a contact. -/
def submittedValue (value : String) : String := toUpperCase (trim value)

end Fields

end Log73.Frontend
