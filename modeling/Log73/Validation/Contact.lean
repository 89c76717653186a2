import Log73.BandMap.Spots
import Log73.Library.Checks
import Log73.Validation.Exchange

/-!
Validation of a contact against the contest of its log (`validation.rs`).
-/

namespace Log73

variable [Platform]

def bandByName (bands : List Band) (name : String) : Option Band :=
  bands.find? fun band => eqIgnoreAsciiCase band.name (trim name)

namespace Validation

open SortedAssoc

def maxContactFields : Nat := 100
def maxContactKeyLen : Nat := 64
def maxContactStringLen : Nat := 1024
def maxContactArrayItems : Nat := 100
def maxContactObjectFields : Nat := 100
def maxContactJsonDepth : Nat := 4
def minQsoEpoch : Int := 0
def maxQsoEpoch : Int := 4102444800
def maxRadioFrequencyHz : Nat := 500000000
def maxCwRequestIdLen : Nat := 64

/-- A test that reports an error when it fails. -/
def ensure (holds : Bool) (error : String) : Except String Unit :=
  if holds then .ok () else .error error

omit [Platform] in
@[simp] theorem ensure_eq_ok {holds : Bool} {error : String} {u : Unit} :
    ensure holds error = .ok u ↔ holds = true :=
  Checks.ite_eq_ok

section Shape

omit [Platform]

def validateContactKey (key : String) : Except String Unit := do
  ensure (!key.isEmpty) "field names cannot be empty"
  ensure (key.length ≤ maxContactKeyLen)
    ("field name " ++ key ++ " must be at most " ++ toString maxContactKeyLen ++ " characters")
  ensure (!key.toList.any isControl)
    ("field name " ++ key ++ " cannot contain control characters")

def depthError : String :=
  "nested JSON cannot be deeper than " ++ toString maxContactJsonDepth ++ " levels"

mutual

def validateJsonValueSize : Value → Nat → Except String Unit
  | value, depth =>
      if maxContactJsonDepth < depth then .error depthError
      else
        match value with
        | .string s =>
            ensure (s.length ≤ maxContactStringLen)
              ("string value must be at most " ++ toString maxContactStringLen ++ " characters")
        | .array values =>
            if maxContactArrayItems < values.length then
              .error ("array value cannot contain more than " ++ toString maxContactArrayItems
                ++ " items")
            else validateJsonValues values (depth + 1)
        | .object entries =>
            if maxContactObjectFields < entries.length then
              .error ("object value cannot contain more than " ++ toString maxContactObjectFields
                ++ " fields")
            else validateJsonEntries entries (depth + 1)
        | _ => .ok ()

def validateJsonValues : List Value → Nat → Except String Unit
  | [], _ => .ok ()
  | value :: values, depth => do
      validateJsonValueSize value depth
      validateJsonValues values depth

def validateJsonEntries : List (String × Value) → Nat → Except String Unit
  | [], _ => .ok ()
  | (key, value) :: entries, depth => do
      validateContactKey key
      validateJsonValueSize value depth
      validateJsonEntries entries depth

end

/-- A field of a contact that is split into metadata and ADIF fields. -/
def validateTopLevelField (key : String) (value : Value) : Except String Unit := do
  ensure (key = metaKey || key = adifKey)
    "contact must contain only meta and adif at the top level"
  ensure value.asObject.isSome (key ++ " must be an object")
  (validateJsonValueSize value 0).mapError fun error => key ++ ": " ++ error

def validateFlatField (key : String) (value : Value) : Except String Unit := do
  validateContactKey key
  (validateJsonValueSize value 0).mapError fun error => key ++ ": " ++ error

def validateContactShape (contact : Contact) : Except String Unit :=
  if (get? contact metaKey).isSome || (get? contact adifKey).isSome then do
    contact.forM fun entry => validateTopLevelField entry.1 entry.2
    ensure (get? contact adifKey).isSome "contact adif is required"
  else do
    ensure (contact.length ≤ maxContactFields)
      ("contact cannot contain more than " ++ toString maxContactFields ++ " fields")
    contact.forM fun entry => validateFlatField entry.1 entry.2

end Shape

section Fields

def jsonI64Value : Value → Option Int
  | .number n => n.asI64.or (n.asU64.filter (· ≤ i64Max))
  | .string s => parseI64 (trim s)
  | _ => none

def jsonI64 (value : Option Value) : Option Int := value.bind jsonI64Value

/-- Megahertz where the number is small enough; what is larger than 64 bits is no frequency. -/
def decimalFrequencyToHz (value : ℚ) : Option Nat :=
  if value ≤ 0 then none
  else
    let hz := Platform.floatFrequency value
    if u64Max + 1 < hz then none else some (min hz u64Max).toNat

/-- An integer that is no unsigned one is negative, also as a double. -/
def contactFrequencyHz : Option Value → Option Nat
  | some (.number (.int value)) => (Number.int value).asU64.map Int.toNat
  | some (.number (.float value)) => decimalFrequencyToHz value
  | some (.string s) =>
      let s := trim s
      if s.toList.contains '.' then (Platform.parseFloat s).bind decimalFrequencyToHz
      else parseUnsigned (2 ^ 64 - 1) s
  | _ => none

def validateRadioFrequencyHz (frequencyHz : Nat) : Except String Unit :=
  ensure (0 < frequencyHz && frequencyHz ≤ maxRadioFrequencyHz)
    ("frequency must be between 1 and " ++ toString maxRadioFrequencyHz ++ " Hz")

def required {α : Type} (value : Option α) (error : String) : Except String α :=
  match value with
  | some value => .ok value
  | none => .error error

omit [Platform] in
@[simp] theorem required_eq_ok {α : Type} {value : Option α} {error : String} {a : α} :
    required value error = .ok a ↔ value = some a := by
  cases value with
  | none => exact iff_of_false (fun h => by cases h) (fun h => by cases h)
  | some b => exact ⟨fun h => by cases h; rfl, fun h => by cases h; rfl⟩

variable (rules : ContestRules) (bands : List Band) (logId : Int) (contact : Contact)

/-- The text of an ADIF field that validation reads; one that is missing reads as empty. -/
def trimmedField (contact : Contact) (name : String) : String :=
  (jsonTrimmedString (contactAdifValue contact name)).getD ""

def validateIds : Except String Unit := do
  ensure ((contactId contact).all fun id => 0 < id) "contact id must be positive"
  ensure ((contactLogId contact).all fun contactLogId => contactLogId = logId)
    "contact log id does not match request log id"

def validateContestId : Except String Unit := do
  let contestId ← required (jsonTrimmedString (contactAdifValue contact "CONTEST_ID"))
    "contact contest id is required"
  ensure (eqIgnoreAsciiCase contestId rules.id) "contact contest id does not match log contest"

def validateQsoEpoch : Except String Unit := do
  let epoch ← required (jsonI64 (contactAdifValue contact "QSO_DATE_TIME_ON"))
    "QSO date/time is required"
  ensure (minQsoEpoch ≤ epoch && epoch ≤ maxQsoEpoch) "QSO date/time is out of range"

/-- A contact need not name its operator. -/
def validateOperator : Except String Unit :=
  if (trimmedField contact "OPERATOR").isEmpty then .ok ()
  else validateCallsign "operator callsign" (trimmedField contact "OPERATOR") false

def allowedBands : String := joinWith ", " rules.bands

def validateContactBandAndFrequency : Except String Unit := do
  let bandText := trimmedField contact "BAND"
  ensure (!bandText.isEmpty) "band is required"
  let contactBand ← required (bandByName bands bandText) "band is invalid"
  ensure (rules.bands.isEmpty || rules.bands.any (eqIgnoreAsciiCase · contactBand.name))
    ("band must be one of: " ++ allowedBands rules)
  let frequencyHz ← required (contactFrequencyHz (contactAdifValue contact "FREQ"))
    "frequency is required"
  validateRadioFrequencyHz frequencyHz
  let frequencyBand ← required (bandForFrequency bands frequencyHz)
    "frequency is outside supported amateur bands"
  ensure (eqIgnoreAsciiCase frequencyBand.name contactBand.name) "frequency does not match band"

def modeMatches (allowed mode : String) : Bool :=
  let name := toAsciiUppercase (trim allowed)
  if name = "PHONE" then ["SSB", "FM", "AM"].contains mode
  else if name = "DIGITAL" then !(["CW", "CW-R", "SSB", "FM", "AM"].contains mode)
  else eqIgnoreAsciiCase allowed mode

def validateContactMode : Except String String := do
  let mode := trimmedField contact "MODE"
  ensure (!mode.isEmpty) "mode is required"
  let mode := toUppercase mode
  ensure (rules.modes.isEmpty || rules.modes.any (modeMatches · mode))
    ("mode must be one of: " ++ joinWith ", " rules.modes)
  ensure (!rules.excludedModes.any (modeMatches · mode)) ("mode is not allowed: " ++ mode)
  return mode

/-- A metadata text that need not be there. -/
def validateOptionalMeta (label name : String) (maxLength : Nat) : Except String Unit :=
  match jsonTrimmedString (contactMetaValue contact name) with
  | some value => validateRequiredText label value maxLength
  | none => .ok ()

variable [RegexEngine]

def validateContact : Except String Unit := do
  validateContactShape contact
  validateIds logId contact
  validateContestId rules contact
  validateQsoEpoch contact
  validateCallsign "station callsign" (trimmedField contact "STATION_CALLSIGN") false
  validateOperator contact
  validateCallsign "callsign" (trimmedField contact "CALL") false
  validateContactBandAndFrequency rules bands contact
  let mode ← validateContactMode rules contact
  validateOptionalMeta contact "client id" "clientId" maxCwRequestIdLen
  validateOptionalMeta contact "session id" "sessionId" maxContactStringLen
  rules.exchange.forM fun field => validateExchangeField field contact mode

end Fields

end Validation

end Log73
