import Log73.Adif.Parse
import Log73.ContestRules
import Log73.Db.Frequency

/-!
The import of ADIF records as contacts of a log (`adif.rs`): the date and the frequency are
read, some fields must be there, and every exchange field comes from where its mapping says.
-/

namespace Log73

open SortedAssoc

namespace Adif

inductive ImportMapping where
  | adifField (field : String)
  | fixedConfig
  | fixedValue (value : String)

/-- A map in the order of the names of the exchange fields. -/
abbrev ImportMappings := List (String × ImportMapping)

structure ImportError where
  line : Nat
  error : String

structure ImportContact where
  line : Nat
  contact : Contact

def requiredField (record : AdifRecord) (name : String) : Except ImportError String :=
  match ((get? record.fields name).map trim).filter (· ≠ "") with
  | some value => .ok value
  | none => .error ⟨record.line, name ++ " is required"⟩

def importQsoEpoch (record : AdifRecord) : Except ImportError Int := do
  let date ← requiredField record "QSO_DATE"
  let time ← requiredField record "TIME_ON"
  match qsoEpoch date time with
  | some epoch => .ok epoch
  | none => .error ⟨record.line, "QSO_DATE/TIME_ON is invalid"⟩

section Import

variable [Platform]

def fixedConfigValue (log : Log) (field : ExchangeField) : Option String :=
  match field.source with
  | some sourceParam =>
      ((log.contestParams.asObject.bind (get? · sourceParam)).bind valueString).filter (· ≠ "")
  | none => field.default.bind valueString

/-- The value of an exchange field, which must not be empty. -/
def mappingValue (log : Log) (field : ExchangeField) (record : AdifRecord) :
    ImportMapping → Except ImportError String
  | .adifField source =>
      match (get? record.fields (normalizeFieldName source)).filter (trim · ≠ "") with
      | some value => .ok value
      | none => .error ⟨record.line,
          field.label ++ " source field " ++ normalizeFieldName source ++ " is missing"⟩
  | .fixedConfig =>
      match fixedConfigValue log field with
      | some value =>
          if value = "" then .error ⟨record.line, field.label ++ " value is required"⟩
          else .ok value
      | none => .error ⟨record.line, field.label ++ " does not have a configured fixed value"⟩
  | .fixedValue value =>
      if trim value = "" then .error ⟨record.line, field.label ++ " value is required"⟩
      else .ok (trim value)

def importExchange (log : Log) (record : AdifRecord) (mappings : ImportMappings) (adif : Map)
    (field : ExchangeField) : Except ImportError Map :=
  match mappings.find? fun entry => eqIgnoreAsciiCase entry.1 field.adif with
  | none => .error ⟨record.line, field.label ++ " mapping is required"⟩
  | some (_, mapping) => do
      let value ← mappingValue log field record mapping
      return insert adif field.adif (.string value)

/-- The fields of a record that are not the server's own. -/
def recordAdif (record : AdifRecord) : Map :=
  (record.fields.filter fun entry => entry.1 ∉ ["ID", "_ID", "_LOG_ID", "_STATUS"]).map
    fun entry => (entry.1, .string entry.2)

def importRecord (log : Log) (rules : ContestRules) (record : AdifRecord)
    (mappings : ImportMappings) : Except ImportError Contact := do
  let epoch ← importQsoEpoch record
  let adif := insert (insert (recordAdif record) "QSO_DATE_TIME_ON" (.ofInt epoch)) "CONTEST_ID"
    (.string log.contestId)
  let frequencyText ← requiredField record "FREQ"
  let frequency ← match importFrequencyHz frequencyText with
    | some frequency => .ok frequency
    | none => .error ⟨record.line, "FREQ is invalid"⟩
  let adif := insert adif "FREQ" (.ofInt frequency)
  let _ ← requiredField record "STATION_CALLSIGN"
  let _ ← requiredField record "CALL"
  let _ ← requiredField record "BAND"
  let _ ← requiredField record "MODE"
  let adif ← rules.exchange.foldlM (importExchange log record mappings) adif
  return buildContact [] adif

def importContacts (log : Log) (rules : ContestRules) (text : String) (mappings : ImportMappings) :
    Except ImportError (List ImportContact) :=
  match parseRecords text with
  | .error error => .error ⟨1, error⟩
  | .ok records =>
      if records.isEmpty then .error ⟨1, "ADIF file does not contain any QSO records"⟩
      else records.mapM fun record => do
        let contact ← importRecord log rules record mappings
        return ⟨record.line, contact⟩

end Import

end Adif

end Log73
