import Log73.Contact

/-!
Contact rows of `db/contacts.rs`: a contact is split into typed columns and a JSON
remainder, and a row is merged back into a contact. The text of a JSON column is
held as the value it was written from.
-/

namespace Log73

open SortedAssoc

def qsoColumns : List String :=
  ["LOG_ID", "QSO_DATE_TIME_ON", "STATION_CALLSIGN", "OPERATOR", "CONTEST_ID", "CALL", "BAND",
    "FREQ", "MODE", "RST_SENT", "RST_RCVD", "ARRL_SECT", "CNTY", "CQZ", "CONT", "DXCC",
    "APP_LOG73_DXCC_PFX", "GRIDSQUARE", "MY_CNTY", "MY_CONT", "MY_CQ_ZONE", "MY_DXCC",
    "APP_LOG73_MY_DXCC_PFX", "MY_GRIDSQUARE", "MY_STATE", "MY_ARRL_SECT", "SRX", "SRX_STRING",
    "STATE", "STX", "STX_STRING", "TX_PWR", "JSON", "WARNINGS_JSON"]

def integerColumns : List String :=
  ["LOG_ID", "QSO_DATE_TIME_ON", "FREQ", "RST_SENT", "RST_RCVD", "CQZ", "DXCC", "MY_DXCC",
    "MY_CQ_ZONE", "SRX", "STX", "TX_PWR"]

/-- The columns the schema declares `NOT NULL`. -/
def notNullColumns : List String :=
  ["LOG_ID", "QSO_DATE_TIME_ON", "STATION_CALLSIGN", "CONTEST_ID", "CALL", "BAND", "FREQ", "MODE",
    "WARNINGS_JSON"]

inductive SqlValue where
  | null
  | integer (value : Int64)
  | text (value : String)
  | json (value : Value)

namespace SqlValue

def isNull : SqlValue → Bool
  | null => true
  | _ => false

/-- A value that is a 64-bit integer wherever it comes from. -/
def ofInteger (value : Option Int) : SqlValue :=
  value.elim .null fun value => .integer (Int64.ofInt value)

/-- The ADIF value a column gives; a text column that holds JSON gives its text. -/
def toField [Platform] : SqlValue → Option Value
  | null => none
  | integer value => some (.ofI64 value)
  | text value => some (.string value)
  | json value => some (.string value.toText)

end SqlValue

/-- A row of `qsos`: its `ID` and the other columns. -/
structure QsoRow where
  id : Int64
  columns : List (String × SqlValue)

/-- `value as i64` for a double that is rounded already. -/
def saturatedHertz (value : Int) : Int := max i64Min (min i64Max value)

/-- The columns a row gives ADIF fields from. -/
def fieldColumns : List String :=
  qsoColumns.filter fun column => column != "JSON" && column != "LOG_ID"

/-- The keys that are not left to the JSON remainder. -/
def mappedJsonKeys : List String := "ID" :: fieldColumns

def extraJson (contact : Contact) : Map :=
  match contactAdif contact with
  | some adif => adif.filter fun entry => !mappedJsonKeys.contains entry.1
  | none => contact.filter fun entry =>
      !startsWith entry.1 "_" && !mappedJsonKeys.contains entry.1

def contactWarningsJson (contact : Contact) : List Value :=
  match (contactMeta contact).bind (get? · "warnings") with
  | some (.array warnings) => warnings
  | _ => []

section Columns

variable [Platform]

def frequencyHz : Option Value → Option Int
  | some (.number (.int value)) => some (saturatedHertz value)
  | some (.number (.float value)) => some (saturatedHertz (Platform.floatFrequency value))
  | some (.string s) =>
      if s.toList.contains '.' then (Platform.textFrequency s).map saturatedHertz else parseI64 s
  | _ => none

def columnValue (contact : Contact) (column : String) : SqlValue :=
  if column = "JSON" then .json (.object (extraJson contact))
  else if column = "WARNINGS_JSON" then .json (.array (contactWarningsJson contact))
  else if column = "LOG_ID" then .integer (Int64.ofInt ((contactLogId contact).getD 1))
  else if column = "QSO_DATE_TIME_ON" then
    .ofInteger (jsonI64 (contactAdifValue contact "QSO_DATE_TIME_ON"))
  else if column = "FREQ" then .ofInteger (frequencyHz (contactAdifValue contact "FREQ"))
  else if integerColumns.contains column then .ofInteger (jsonI64 (contactAdifValue contact column))
  else (jsonString (contactAdifValue contact column)).elim .null .text

def contactToSqlValues (contact : Contact) : List (String × SqlValue) :=
  qsoColumns.map fun column => (column, columnValue contact column)

end Columns

namespace QsoRow

variable (row : QsoRow)

def get (column : String) : SqlValue := (get? row.columns column).getD .null

def logId : Int64 :=
  match row.get "LOG_ID" with
  | .integer value => value
  | _ => 0

def extra : Map :=
  match row.get "JSON" with
  | .json (.object extra) => extra
  | _ => []

def warnings : List Value :=
  match row.get "WARNINGS_JSON" with
  | .json (.array warnings) => warnings
  | _ => []

def metaFields : Map :=
  insertAll [] ([("id", .ofI64 row.id), ("logId", .ofI64 row.logId),
    ("status", .string "Committed")] ++
    if row.warnings.isEmpty then [] else [("warnings", .array row.warnings)])

/-- The JSON remainder, under every column but the log. -/
def fields [Platform] : Map :=
  insertAll row.extra (fieldColumns.filterMap fun column =>
    (row.get column).toField.map (column, ·))

end QsoRow

variable [Platform]

def rowToContact (row : QsoRow) : Contact := buildContact row.metaFields row.fields

section RowToContact

variable (row : QsoRow)

theorem contactMetaValue_rowToContact (key : String) :
    contactMetaValue (rowToContact row) key = get? row.metaFields key := by
  rw [contactMetaValue, rowToContact, contactMeta_buildContact, Option.bind_some]

omit [Platform] in
theorem get?_metaFields {key : String} (hkey : key ≠ "warnings") : get? row.metaFields key =
    get? (insert (insert (insert [] "id" (.ofI64 row.id)) "logId" (.ofI64 row.logId)) "status"
      (.string "Committed")) key := by
  rw [QsoRow.metaFields, insertAll, List.foldl_append, ← insertAll,
    get?_insertAll_of_not_mem _ _ _ (by split <;> simp [hkey])]
  simp only [List.foldl_cons, List.foldl_nil]

@[simp] theorem contactId_rowToContact : contactId (rowToContact row) = some row.id.toInt := by
  have hid : get? row.metaFields "id" = some (.ofI64 row.id) := by
    simp [get?_metaFields row, get?_insert]
  rw [contactId, contactMetaValue_rowToContact, hid, Option.bind_some, jsonI64Value_ofI64]

theorem status_rowToContact :
    contactMetaValue (rowToContact row) "status" = some (.string "Committed") := by
  rw [contactMetaValue_rowToContact, get?_metaFields row (by decide), get?_insert_self]

/-- The database hands out contacts without scores. -/
theorem contactMetaValue_rowToContact_of_not_mem {key : String}
    (hkey : key ∉ ["id", "logId", "status", "warnings"]) :
    contactMetaValue (rowToContact row) key = none := by
  rw [contactMetaValue_rowToContact, QsoRow.metaFields, get?_insertAll_of_not_mem]
  · rfl
  · intro hmem
    refine hkey ?_
    split at hmem <;> simp_all

end RowToContact

/-- What a write sets on a contact before it is split into columns. -/
def preparedContact (logId : Int) (contestId : String) (contact : Contact) : Contact :=
  let contact := setContactMeta contact "logId" (.ofInt logId)
  if ((((contactAdifValue contact "CONTEST_ID").bind Value.asStr).map trim).all
      (·.isEmpty)) then
    setContactAdif contact "CONTEST_ID" (.string contestId)
  else contact

/-- The row a contact is stored as under an id, unless a column must not be null. -/
def storedRow (id : Int64) (contact : Contact) : Option QsoRow :=
  let row := { id := id, columns := contactToSqlValues contact }
  if notNullColumns.any fun column => (row.get column).isNull then none else some row

end Log73
