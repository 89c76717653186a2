import Log73.Contact
import Log73.Db.Cache
import Log73.Library.Utf8
import Log73.QsoTime

/-!
The ADIF text of a log (`adif.rs`).
-/

namespace Log73

open SortedAssoc

def asBytes (s : String) : List UInt8 := Utf8.encode s.toList

/-- The bytes a `String` can hold at most; one that outgrows them aborts the program. -/
def isizeMax : Nat := 9223372036854775807

/-- The fields of a record, a map in the order of the names. -/
abbrev AdifFields := List (String × String)

namespace Adif

def adifVersion : String := "3.1.0"
def programId : String := "Log73"
def programVersion : String := "0.3.0-rc.3"

def preferredFieldOrder : List String :=
  ["QSO_DATE", "TIME_ON", "STATION_CALLSIGN", "OPERATOR", "CALL", "BAND", "FREQ", "MODE",
    "RST_SENT", "STX", "STX_STRING", "MY_STATE", "MY_CNTY", "MY_ARRL_SECT", "MY_GRIDSQUARE",
    "MY_CQ_ZONE", "RST_RCVD", "SRX", "SRX_STRING", "STATE", "CNTY", "ARRL_SECT", "GRIDSQUARE",
    "CQZ", "DXCC", "TX_PWR"]

def fieldNameChar (c : Char) : Char :=
  if isAsciiLowercase c then c.toUpper
  else if isAsciiUppercase c || isAsciiDigit c || c == '_' then c
  else '_'

def normalizeFieldName (name : String) : String :=
  String.ofList ((trimChars name.toList).map fieldNameChar)

section Values

variable [Platform]

def valueString : Value → Option String
  | .string s => some (trim s)
  | .number n => some n.toText
  | .bool b => some (toString b)
  | _ => none

def contactI64 : Option Value → Option Int
  | some (.number n) => n.asI64
  | some (.string s) => parseI64 (trim s)
  | _ => none

/-- Trailing zeros go, and the point if nothing is left behind it. -/
def dropTrailingZeros (cs : List Char) : List Char :=
  let cs := (cs.reverse.dropWhile (· == '0')).reverse
  if cs.getLast? == some '.' then cs.dropLast else cs

def formatFrequencyMhz (hz : Int) : String :=
  let mhz := hz.tdiv 1000000
  let fractional := (hz.tmod 1000000).natAbs
  if fractional = 0 then toString mhz
  else String.ofList
    (dropTrailingZeros (toString mhz ++ "." ++ zeroPadded 6 fractional).toList)

def frequencyValueString (value : Value) : Option String :=
  (contactI64 (some value)).map formatFrequencyMhz

def normalizeLoggerMode (mode : String) : String := toUppercase (trim mode)

def adifModeForLoggerMode (mode : String) : String :=
  match normalizeLoggerMode mode with
  | "CW-R" => "CW"
  | "DATA" => "RTTY"
  | normalized => normalized

def modeValueString (value : Value) : Option String :=
  (valueString value).map adifModeForLoggerMode

def shouldSkipField (name : String) : Bool :=
  startsWith name "_" || name ∈ ["ID", "LOG_ID", "JSON", "QSO_DATE_TIME_ON"]

def serializedValue (name : String) (value : Value) : Option String :=
  match name with
  | "FREQ" => frequencyValueString value
  | "MODE" => modeValueString value
  | _ => valueString value

/-- One stored field, written under its export name. -/
def writeField (hasEpoch : Bool) (fields : AdifFields) (entry : String × Value) : AdifFields :=
  if shouldSkipField entry.1 || (hasEpoch && entry.1 ∈ ["QSO_DATE", "TIME_ON"]) then fields
  else
    let normalized := normalizeFieldName entry.1
    if normalized = "" then fields
    else match serializedValue normalized entry.2 with
      | some serialized => if serialized = "" then fields else insert fields normalized serialized
      | none => fields

def contactFields (contact : Contact) (stationCallsign : String) : Except String AdifFields :=
  let stored := contactAdifValue contact "QSO_DATE_TIME_ON"
  match contactI64 stored with
  | none => .error (if stored.isSome then "contact has invalid QSO_DATE_TIME_ON"
      else "contact is missing QSO_DATE_TIME_ON")
  | some epoch => do
      let (date, time) ← qsoDatetimeAdif epoch
      let source := (contactAdif contact).getD contact
      let fields := source.foldl (writeField stored.isSome)
        (insert (insert [] "QSO_DATE" date) "TIME_ON" time)
      let callsign := toUppercase (trim stationCallsign)
      return if (get? fields "STATION_CALLSIGN").isSome || callsign = "" then fields
        else insert fields "STATION_CALLSIGN" callsign

end Values

/-- One preferred name is moved from the remaining fields to the ordered ones. -/
def moveField (fields : AdifFields × AdifFields) (key : String) : AdifFields × AdifFields :=
  match get? fields.2 key with
  | some value => (fields.1 ++ [(key, value)], erase fields.2 key)
  | none => fields

/-- The preferred names first, then what remains. -/
def orderedFields (fields : AdifFields) : AdifFields :=
  let moved := preferredFieldOrder.foldl moveField ([], fields)
  moved.1 ++ moved.2

def replaceCrLf : List Char → List Char
  | '\r' :: '\n' :: cs => '\n' :: replaceCrLf cs
  | c :: cs => c :: replaceCrLf cs
  | [] => []

/-- Line breaks become blanks. -/
def flattenLines (value : String) : String :=
  String.ofList ((replaceCrLf value.toList).map fun c => if c = '\r' ∨ c = '\n' then ' ' else c)

def serializeField (name value : String) : String :=
  "<" ++ normalizeFieldName name ++ ":" ++ (asBytes (flattenLines value)).length.repr ++ ">" ++
    flattenLines value

def serializeFields : AdifFields → String
  | [] => ""
  | (name, value) :: fields => serializeField name value ++ serializeFields fields

def header : String :=
  "Log73 ADIF Export\n" ++ serializeField "ADIF_VER" adifVersion ++
    serializeField "PROGRAMID" programId ++ serializeField "PROGRAMVERSION" programVersion ++
    "<EOH>\n"

/-- The loop over the contacts, behind what was written before. -/
def renderContacts [Platform] (log : Log) (output : String) : List Contact → Except String String
  | [] => .ok output
  | contact :: contacts => do
      let fields ← contactFields contact log.stationCallsign
      renderContacts log (output ++ serializeFields (orderedFields fields) ++ "<EOR>\n") contacts

def renderLog [Platform] (log : Log) (contacts : List Contact) : Except String String := do
  let output ← renderContacts log header contacts
  if (asBytes output).length ≤ isizeMax then return output else throw "capacity overflow"

end Adif

end Log73
