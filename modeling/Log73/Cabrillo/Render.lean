import Log73.Adif.Render
import Log73.Library.Words
import Log73.Validation.Contact

/-!
The Cabrillo text of a log (`cabrillo.rs`).
-/

namespace Log73.Cabrillo

open SortedAssoc

variable [Platform]

def startOfLogVersion : String := "3.0"
def createdByValue : String := "Log73"

def contactString : Option Value → Option String := Validation.jsonTrimmedString

def tokenString (value : Option Value) : Option String := (contactString value).map toUppercase

def contactI64 : Option Value → Option Int := Adif.contactI64

section Headers

omit [Platform] in
/-- `split_whitespace`. -/
def splitWhitespace (text : String) : List String :=
  (Words.words isWhitespace text.toList).map String.ofList

def normalizedTag (tag : String) : String := toUppercase (trim tag)

def isReservedTag (tag : String) : Bool :=
  ["CREATED-BY", "CALLSIGN", "CONTEST", "CLAIMED-SCORE", "OPERATORS"].contains (normalizedTag tag)

/-- A header without a value is not written. -/
def headerLine (tag value : String) : List String :=
  if (trim value).isEmpty then [] else [normalizedTag tag ++ ": " ++ trim value]

omit [Platform] in
/-- `replace("\r\n", "\n")`. -/
def replaceCrLf : List Char → List Char
  | '\r' :: '\n' :: cs => '\n' :: replaceCrLf cs
  | c :: cs => c :: replaceCrLf cs
  | [] => []

omit [Platform] in
/-- The lines of a value that are not blank. -/
def valueLines (value : String) : List String :=
  (((replaceCrLf value.toList).splitOn '\n').map fun line =>
    trim (String.ofList line)).filter fun line => !line.isEmpty

omit [Platform] in
def splitMultilineValue (value : String) (maxLines : Option Nat) : Except String (List String) :=
  let lines := valueLines value
  if maxLines.any fun maxLines => maxLines < lines.length then
    .error ("value exceeds maximum line count of " ++ toString (maxLines.getD 0))
  else if lines.isEmpty then .ok [trim value]
  else .ok lines

def headerValue (tag value : String) (maxLines : Option Nat) : Except String (List String) :=
  (splitMultilineValue value maxLines).map fun lines =>
    lines.flatMap (headerLine (normalizedTag tag))

def cabrilloContestId (rules : ContestRules) : String :=
  (splitWhitespace rules.id).head?.getD rules.id

def parameterValue (values : Map) (field : SetupField) : Option String :=
  let value := ((get? values field.key).bind fun value => contactString (some value)).or
    (field.default.bind fun value => contactString (some value))
  (value.map fun value => if field.preserveCase then value else toUppercase value).filter
    fun value => !(trim value).isEmpty

def fixedHeaderLines (field : CabrilloFixedHeader) : Except String (List String) :=
  if isReservedTag field.name then .ok [] else headerValue field.name field.value none

/-- The lines of a setup or an export field under the tag it is written with. -/
def fieldLines (values : Map) (tag : String) (field : SetupField) : Except String (List String) :=
  if isReservedTag tag then .ok []
  else
    match parameterValue values field with
    | some value => headerValue tag value field.maxLines
    | none => .ok []

def setupFieldLines (values : Map) (field : SetupField) : Except String (List String) :=
  match field.cabrilloHeader with
  | some header => fieldLines values header field
  | none => .ok []

/-- The operators in the order of a `BTreeSet`. -/
def operators (contacts : List Contact) : List String :=
  (insertAll [] ((contacts.filterMap fun contact =>
    tokenString (contactAdifValue contact "OPERATOR")).map fun operator => (operator, ()))).map
      Prod.fst

/-- One operator more on the current line, or on a new one when the line is full. -/
def appendOperator (state : List String × String) (operator : String) : List String × String :=
  let candidate := if state.2.isEmpty then operator else state.2 ++ " " ++ operator
  if 75 < candidate.length && !state.2.isEmpty then
    (state.1 ++ headerLine "OPERATORS" state.2, operator)
  else (state.1, candidate)

def operatorsLines (contacts : List Contact) (stationCallsign : String) : List String :=
  let operators := operators contacts
  let operators :=
    if operators.isEmpty then [toUppercase (trim stationCallsign)] else operators
  let state := operators.foldl appendOperator ([], "")
  if state.2.isEmpty then state.1 else state.1 ++ headerLine "OPERATORS" state.2

/-- Parameters that are missing read as an empty object. -/
def paramsObject (params : Value) (error : String) : Except String Map :=
  match params with
  | .object values => .ok values
  | .null => .ok []
  | _ => .error error

/-- The lines in front of the contacts. -/
def headerLines (rules : ContestRules) (cabrillo : CabrilloRules) (log : Log)
    (contacts : List Contact) (exportValues logValues : Map) (claimedScore : Int64) :
    Except String (List String) := do
  let fixed ← cabrillo.fixedHeaders.mapM fixedHeaderLines
  let setup ← rules.setupFields.mapM (setupFieldLines logValues)
  let exported ← cabrillo.exportFields.mapM fun field => fieldLines exportValues field.key field
  return ["START-OF-LOG: " ++ startOfLogVersion]
    ++ headerLine "CREATED-BY" createdByValue
    ++ headerLine "CALLSIGN" (trim log.stationCallsign)
    ++ headerLine "CONTEST" (cabrilloContestId rules)
    ++ headerLine "CLAIMED-SCORE" (toString claimedScore.toInt)
    ++ fixed.flatten ++ setup.flatten ++ exported.flatten
    ++ operatorsLines contacts log.stationCallsign

end Headers

section Qsos

variable (rules : ContestRules) (log : Log) (contact : Contact) (bands : List Band)

def cabrilloHeaderValue (logValues : Map) (name : String) : Option String :=
  rules.cabrillo.bind fun cabrillo =>
    ((cabrillo.fixedHeaders.find? fun field => normalizedTag field.name = name).map fun field =>
      toUppercase (trim field.value)).or
    (((rules.setupFields.find? fun field =>
        field.cabrilloHeader.any fun header => normalizedTag header = name).bind
      (parameterValue logValues)).map fun value => toUppercase (trim value))

def usesTransmitterId : Bool :=
  match rules.cabrillo, log.contestParams with
  | some _, .object logValues =>
      if cabrilloHeaderValue rules logValues "CATEGORY-OPERATOR" ≠ some "MULTI-OP" then false
      else
        let transmitter := cabrilloHeaderValue rules logValues "CATEGORY-TRANSMITTER"
        if transmitter = some "TWO" then true
        else if transmitter = some "ONE" then
          (rules.setupFields.find? fun field => field.cabrilloHeader.any fun header =>
            normalizedTag header = "CATEGORY-TRANSMITTER").any
              (·.multiSingleHasMultTransmitter)
        else false
  | _, _ => false

/-- The value of the contact, else the parameter of the log, else the default. -/
def exchangeToken (field : ExchangeField) : Except String String :=
  Validation.required
    ((tokenString (contactAdifValue contact field.adif)).or <|
      (field.source.bind fun sourceParam =>
        log.contestParams.asObject.bind fun params =>
          (get? params sourceParam).bind fun value => tokenString (some value)).or <|
      field.default.bind fun value => tokenString (some value))
    ("contact is missing " ++ field.label)

def qsoFrequencyToken : Except String String := do
  let frequencyHz ← Validation.required
    ((contactI64 (contactAdifValue contact "FREQ")).filter fun frequencyHz => 0 < frequencyHz)
    "contact is missing frequency for Cabrillo export"
  let bandName ← Validation.required (tokenString (contactAdifValue contact "BAND"))
    "contact is missing band for Cabrillo export"
  let band ← Validation.required (bandByName bands bandName)
    ("contact band " ++ bandName ++ " is not available in the configured IARU region")
  return if band.cabrillo = "khz" then toString (frequencyHz.tdiv 1000) else band.cabrillo

def cabrilloModeToken (mode : String) : String :=
  let mode := toUppercase (trim mode)
  if ["CW", "CW-R"].contains mode then "CW"
  else if ["SSB", "USB", "LSB", "FM", "FMN", "WFM", "AM", "PH"].contains mode then "PH"
  else if mode = "RTTY" then "RY"
  else "DG"

def qsoModeToken : Option String :=
  (tokenString (contactAdifValue contact "MODE")).map cabrilloModeToken

def stationToken : String :=
  ((contactString (contactAdifValue contact "STATION_CALLSIGN")).map toUppercase).getD
    (toUppercase (trim log.stationCallsign))

/-- The exchange fields of one direction that apply to the contact. -/
def appliedFields (direction : ExchangeDirection) : List ExchangeField :=
  rules.exchange.filter fun field =>
    field.direction = direction && Validation.exchangeFieldApplies field contact

/-- The columns of a QSO line. -/
structure QsoColumns where
  frequency : String
  mode : String
  date : String
  time : String
  stationCallsign : String
  sentFields : List String
  theirCallsign : String
  receivedFields : List String
  transmitterId : Option String

def QsoColumns.parts (columns : QsoColumns) : List String :=
  ["QSO:", columns.frequency, columns.mode, columns.date, columns.time, columns.stationCallsign]
    ++ columns.sentFields ++ [columns.theirCallsign] ++ columns.receivedFields
    ++ columns.transmitterId.toList

def qsoColumns : Except String QsoColumns := do
  let frequency ← qsoFrequencyToken contact bands
  let mode ← Validation.required (qsoModeToken contact) "contact is missing mode"
  let epoch ← Validation.required (contactI64 (contactAdifValue contact "QSO_DATE_TIME_ON"))
    "contact is missing QSO date/time"
  let (date, time) ← qsoDatetimeCabrillo epoch
  let theirCallsign ← Validation.required (tokenString (contactAdifValue contact "CALL"))
    "contact is missing callsign"
  let sentFields ← (appliedFields rules contact .sent).mapM (exchangeToken log contact)
  let receivedFields ← (appliedFields rules contact .received).mapM (exchangeToken log contact)
  return {
    frequency, mode, date, time
    stationCallsign := stationToken log contact
    sentFields, theirCallsign, receivedFields
    transmitterId :=
      if usesTransmitterId rules log then
        some (toString ((contactI64 (contactAdifValue contact "APP_LOG73_TX_ID")).getD 0))
      else none }

def renderQsoLine : Except String String :=
  (qsoColumns rules log contact bands).map fun columns => joinWith " " columns.parts

end Qsos

def renderLog (rules : ContestRules) (log : Log) (contacts : List Contact) (exportParams : Value)
    (claimedScore : Int64) (bands : List Band) : Except String String := do
  let cabrillo ← Validation.required rules.cabrillo
    ("contest " ++ rules.id ++ " does not define Cabrillo export")
  let exportValues ← paramsObject exportParams "export parameters must be an object"
  let logValues ← paramsObject log.contestParams "log contest parameters must be an object"
  let header ← headerLines rules cabrillo log contacts exportValues logValues claimedScore
  let qsos ← contacts.mapM fun contact => renderQsoLine rules log contact bands
  return joinWith "\r\n" (header ++ qsos ++ ["END-OF-LOG:"]) ++ "\r\n"

end Log73.Cabrillo
