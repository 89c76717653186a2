import Mathlib.Data.String.Basic
import Log73.Db.Contacts

/-!
What a stored contact reads back as. Every field comes back as its column holds it, and
every field without a column as it was; besides, the column of the diagnostic warnings
comes back as a field nobody submitted.
-/

namespace Log73

open SortedAssoc

/-- Field names as the server keeps them, each once and in order. -/
structure CanonicalFields (adif : Map) : Prop where
  sorted : Sorted adif
  normal : ∀ key ∈ adif.map Prod.fst, normalizeAdifFieldName key = key

namespace CanonicalFields

variable {adif : Map}

theorem normalizeContactAdif_eq (h : CanonicalFields adif) : normalizeContactAdif adif = adif := by
  have hmap : adif.map (fun entry => (normalizeAdifFieldName entry.1, entry.2)) = adif := by
    refine (List.map_congr_left fun entry hmem => ?_).trans (List.map_id adif)
    exact Prod.ext (h.normal entry.1 (List.mem_map_of_mem hmem)) rfl
  rw [normalizeContactAdif, hmap]
  refine Sorted.ext (Sorted.insertAll List.Pairwise.nil adif) h.sorted fun key => ?_
  rw [get?_insertAll_of_nodup h.sorted.nodup, get?_nil, Option.or_none]

theorem filter (h : CanonicalFields adif) (p : String × Value → Bool) :
    CanonicalFields (adif.filter p) where
  sorted := h.sorted.filter p
  normal key hmem := h.normal key ((List.filter_sublist.map Prod.fst).mem hmem)

theorem insertAll (h : CanonicalFields adif) {entries : Map}
    (hentries : ∀ entry ∈ entries, normalizeAdifFieldName entry.1 = entry.1) :
    CanonicalFields (insertAll adif entries) where
  sorted := h.sorted.insertAll entries
  normal key hmem := by
    rw [← isSome_get?, get?_insertAll, Option.isSome_or, Bool.or_eq_true, isSome_get?,
      isSome_get?] at hmem
    cases hmem with
    | inl hmem =>
        obtain ⟨entry, hentry, heq⟩ := List.mem_map.mp hmem
        exact heq ▸ hentries entry (List.mem_reverse.mp hentry)
    | inr hmem => exact h.normal key hmem

theorem insert (h : CanonicalFields adif) (field : String) (value : Value) :
    CanonicalFields (insert adif (normalizeAdifFieldName field) value) := by
  have hentries : ∀ entry ∈ [(normalizeAdifFieldName field, value)],
      normalizeAdifFieldName entry.1 = entry.1 := by
    intro entry hmem
    rw [List.mem_singleton.mp hmem]
    exact normalizeAdifFieldName_idem field
  exact h.insertAll hentries

end CanonicalFields

/-- A contact with fields as the server keeps them. -/
def CanonicalContact (contact : Contact) : Prop :=
  ∃ adif, contactAdif contact = some adif ∧ CanonicalFields adif

theorem canonicalContact_buildContact (metaFields adif : Map) :
    CanonicalContact (buildContact metaFields adif) := by
  have hempty : CanonicalFields [] := ⟨List.Pairwise.nil, fun _ hmem => nomatch hmem⟩
  refine ⟨_, contactAdif_buildContact metaFields adif, hempty.insertAll fun entry hmem => ?_⟩
  obtain ⟨entry, -, rfl⟩ := List.mem_map.mp hmem
  exact normalizeAdifFieldName_idem entry.1

namespace CanonicalContact

variable {contact : Contact}

theorem setContactAdif (h : CanonicalContact contact) (field : String) (value : Value) :
    CanonicalContact (setContactAdif contact field value) := by
  obtain ⟨adif, hadif, hcanonical⟩ := h
  refine ⟨_, ?_, hcanonical.insert field value⟩
  rw [contactAdif_setContactAdif, hadif]
  rfl

theorem setContactMeta (h : CanonicalContact contact) (key : String) (value : Value) :
    CanonicalContact (setContactMeta contact key value) := by
  rwa [CanonicalContact, contactAdif_setContactMeta]

theorem preparedContact (h : CanonicalContact contact) (logId : Int) (contestId : String) :
    CanonicalContact (preparedContact logId contestId contact) := by
  rw [Log73.preparedContact]
  split
  · exact (h.setContactMeta _ _).setContactAdif _ _
  · exact h.setContactMeta _ _

end CanonicalContact

theorem contactAdifValue_preparedContact_of_ne (logId : Int) (contestId : String)
    (contact : Contact) {field : String} (h : normalizeAdifFieldName field ≠ "CONTEST_ID") :
    contactAdifValue (preparedContact logId contestId contact) field =
      contactAdifValue contact field := by
  have hname : normalizeAdifFieldName "CONTEST_ID" ≠ normalizeAdifFieldName field := by
    have hnormal : normalizeAdifFieldName "CONTEST_ID" = "CONTEST_ID" := by decide
    rw [hnormal]
    exact h.symm
  rw [preparedContact]
  split
  · rw [contactAdifValue_setContactAdif, if_neg hname, contactAdifValue_setContactMeta]
  · rw [contactAdifValue_setContactMeta]

theorem fieldColumns_normal : ∀ column ∈ fieldColumns, normalizeAdifFieldName column = column := by
  decide

theorem fieldColumns_nodup : fieldColumns.Nodup := by decide

theorem contactToSqlValues_get? [Platform] (contact : Contact) (column : String) :
    get? (contactToSqlValues contact) column =
      if column ∈ qsoColumns then some (columnValue contact column) else none := by
  rw [contactToSqlValues]
  generalize qsoColumns = columns
  induction columns with
  | nil => rfl
  | cons head columns ih =>
      rw [List.map_cons, get?_cons, ih]
      by_cases heq : head = column
      · simp [heq]
      · simp [heq, Ne.symm heq]

section ReadBack

variable [Platform] {id : Int64} {contact : Contact} {row : QsoRow}

theorem storedRow_eq (h : storedRow id contact = some row) :
    row = { id := id, columns := contactToSqlValues contact } := by
  rw [storedRow] at h
  split at h
  · cases h
  · exact (Option.some.inj h).symm

theorem get_storedRow (h : storedRow id contact = some row) {column : String}
    (hcolumn : column ∈ qsoColumns) : row.get column = columnValue contact column := by
  rw [storedRow_eq h, QsoRow.get, contactToSqlValues_get?, if_pos hcolumn, Option.getD_some]

theorem extra_storedRow (h : storedRow id contact = some row) : row.extra = extraJson contact := by
  rw [QsoRow.extra, get_storedRow h (by decide)]
  rfl

/-- The typed column of a field, or the field itself. -/
def canonicalField (contact : Contact) (field : String) : Option Value :=
  let key := normalizeAdifFieldName field
  if key ∈ fieldColumns then (columnValue contact key).toField else contactAdifValue contact field

theorem get?_fields (row : QsoRow) (key : String) : get? row.fields key =
    (if key ∈ fieldColumns then (row.get key).toField else none).or (get? row.extra key) := by
  have hentries : ∀ columns : List String, get? (columns.filterMap fun column =>
      (row.get column).toField.map (column, ·)) key =
        if key ∈ columns then (row.get key).toField else none := by
    intro columns
    induction columns with
    | nil => rfl
    | cons head columns ih =>
        rw [List.filterMap_cons]
        by_cases heq : head = key
        · subst heq
          cases hfield : (row.get head).toField with
          | none => simp [ih, hfield]
          | some value => simp [get?_cons]
        · cases hfield : (row.get head).toField with
          | none => simp [ih, Ne.symm heq]
          | some value => simp [get?_cons, heq, ih, Ne.symm heq]
  have hnodup : ((fieldColumns.filterMap fun column =>
      (row.get column).toField.map (column, ·)).map Prod.fst).Nodup := by
    refine fieldColumns_nodup.sublist ?_
    generalize fieldColumns = columns
    induction columns with
    | nil => exact .slnil
    | cons head columns ih =>
        rw [List.filterMap_cons]
        cases (row.get head).toField with
        | none => exact ih.cons _
        | some value => exact ih.cons_cons _
  rw [QsoRow.fields, get?_insertAll_of_nodup hnodup, hentries]

theorem canonicalFields_fields {row : QsoRow} (h : CanonicalFields row.extra) :
    CanonicalFields row.fields := by
  refine h.insertAll fun entry hmem => ?_
  obtain ⟨column, hcolumn, hfield⟩ := List.mem_filterMap.mp hmem
  obtain ⟨value, -, rfl⟩ := Option.map_eq_some_iff.mp hfield
  exact fieldColumns_normal column hcolumn

/-- A column that must not be null is not null in a row. -/
theorem columnValue_not_null (h : storedRow id contact = some row) {column : String}
    (hnull : column ∈ notNullColumns) (hcolumn : column ∈ qsoColumns) :
    (columnValue contact column).isNull = false := by
  have hrow := get_storedRow h hcolumn
  have heq := storedRow_eq h
  rw [storedRow] at h
  split at h
  · cases h
  · next hany =>
      rw [List.any_eq_true] at hany
      push Not at hany
      rw [← hrow, heq]
      exact Bool.eq_false_iff.mpr (hany column hnull)

/-- Every submitted field but `ID` comes back in its canonical form. -/
theorem contactAdifValue_readBack {adif : Map} (hadif : contactAdif contact = some adif)
    (hcanonical : CanonicalFields adif) (h : storedRow id contact = some row) {field : String}
    (hid : normalizeAdifFieldName field ≠ "ID") :
    contactAdifValue (rowToContact row) field = canonicalField contact field := by
  have hextra : row.extra = adif.filter fun entry => !mappedJsonKeys.contains entry.1 := by
    rw [extra_storedRow h, extraJson, hadif]
  have hfields : CanonicalFields row.fields :=
    canonicalFields_fields (hextra ▸ hcanonical.filter _)
  rw [contactAdifValue, rowToContact, contactAdif_buildContact, Option.bind_some,
    hfields.normalizeContactAdif_eq, get?_fields, hextra,
    get?_filter adif fun key => !mappedJsonKeys.contains key]
  simp only [canonicalField]
  by_cases hcolumn : normalizeAdifFieldName field ∈ fieldColumns
  · have hmapped : normalizeAdifFieldName field ∈ mappedJsonKeys :=
      List.mem_cons_of_mem _ hcolumn
    have hqso : normalizeAdifFieldName field ∈ qsoColumns := (List.mem_filter.mp hcolumn).1
    simp [hcolumn, hmapped, get_storedRow h hqso]
  · have hmapped : normalizeAdifFieldName field ∉ mappedJsonKeys := by
      rw [mappedJsonKeys, List.mem_cons, not_or]
      exact ⟨hid, hcolumn⟩
    simp [hcolumn, hmapped, contactAdifValue, hadif]

/-- A column holds what its field gives. -/
theorem columnValue_congr {other : Contact} {column : String} (hcolumn : column ∈ fieldColumns)
    (hwarnings : column ≠ "WARNINGS_JSON")
    (h : contactAdifValue contact column = contactAdifValue other column) :
    columnValue contact column = columnValue other column := by
  have hjson : column ≠ "JSON" := fun heq => absurd (heq ▸ hcolumn) (by decide)
  have hlog : column ≠ "LOG_ID" := fun heq => absurd (heq ▸ hcolumn) (by decide)
  rw [columnValue, columnValue, if_neg hjson, if_neg hwarnings, if_neg hlog, if_neg hjson,
    if_neg hwarnings, if_neg hlog]
  split_ifs with htime hfrequency
  · rw [htime] at h
    rw [h]
  · rw [hfrequency] at h
    rw [h]
  · rw [h]
  · rw [h]

/-- What the database gives back of a field with a value. -/
def keptForm (field : String) (value : Value) : Option Value :=
  canonicalField (buildContact [] [(field, value)]) field

omit [Platform] in
theorem contactAdifValue_single (field : String) (value : Value) :
    contactAdifValue (buildContact [] [(field, value)]) field = some value := by
  rw [contactAdifValue, contactAdif_buildContact, Option.bind_some, normalizeContactAdif,
    List.map_singleton, get?_insertAll, List.reverse_singleton, get?_cons, if_pos rfl,
    Option.some_or]

theorem canonicalField_eq_keptForm {field : String} {value : Value}
    (hwarnings : normalizeAdifFieldName field ≠ "WARNINGS_JSON")
    (h : contactAdifValue contact field = some value) :
    canonicalField contact field = keptForm field value := by
  have hsame : contactAdifValue contact field =
      contactAdifValue (buildContact [] [(field, value)]) field :=
    h.trans (contactAdifValue_single field value).symm
  have hnormal : ∀ contact : Contact, contactAdifValue contact (normalizeAdifFieldName field) =
      contactAdifValue contact field := fun contact => by
    rw [contactAdifValue, normalizeAdifFieldName_idem, contactAdifValue]
  rw [keptForm, canonicalField, canonicalField]
  split
  · next hcolumn =>
      rw [columnValue_congr hcolumn hwarnings ((hnormal _).trans (hsame.trans (hnormal _).symm))]
  · exact hsame

/-- A column takes back the value that it gave. -/
theorem toField_columnValue {other : Contact} {column : String} {kept : Value}
    (hcolumn : column ∈ fieldColumns) (hwarnings : column ≠ "WARNINGS_JSON")
    (hfield : (columnValue contact column).toField = some kept)
    (hother : contactAdifValue other column = some kept) :
    (columnValue other column).toField = some kept := by
  have hjson : column ≠ "JSON" := fun heq => absurd (heq ▸ hcolumn) (by decide)
  have hlog : column ≠ "LOG_ID" := fun heq => absurd (heq ▸ hcolumn) (by decide)
  have hinteger : ∀ {value : Option Int}, (SqlValue.ofInteger value).toField = some kept →
      ∃ n : Int64, kept = .ofI64 n := by
    intro value hvalue
    cases value with
    | none => cases hvalue
    | some value => exact ⟨Int64.ofInt value, (Option.some.inj hvalue).symm⟩
  rw [columnValue, if_neg hjson, if_neg hwarnings, if_neg hlog] at hfield ⊢
  split_ifs at hfield ⊢ with htime hfrequency
  · rw [htime] at hother
    obtain ⟨n, rfl⟩ := hinteger hfield
    rw [hother, jsonI64, Option.bind_some, jsonI64Value_ofI64]
    simp [SqlValue.ofInteger, SqlValue.toField]
  · rw [hfrequency] at hother
    obtain ⟨n, rfl⟩ := hinteger hfield
    have hlow := n.le_toInt
    have hhigh := n.toInt_lt
    have hkept : saturatedHertz n.toInt = n.toInt := by
      simp only [saturatedHertz, i64Min, i64Max]
      omega
    have hself : frequencyHz (some (.ofI64 n)) = some n.toInt := congrArg some hkept
    rw [hother, hself]
    simp [SqlValue.ofInteger, SqlValue.toField]
  · obtain ⟨n, rfl⟩ := hinteger hfield
    rw [hother, jsonI64, Option.bind_some, jsonI64Value_ofI64]
    simp [SqlValue.ofInteger, SqlValue.toField]
  · cases htext : jsonString (contactAdifValue contact column) with
    | none =>
        rw [htext] at hfield
        cases hfield
    | some text =>
        rw [htext] at hfield
        obtain rfl : Value.string text = kept := Option.some.inj hfield
        rw [hother]
        rfl

theorem keptForm_idem {field : String} {value kept : Value}
    (hwarnings : normalizeAdifFieldName field ≠ "WARNINGS_JSON")
    (h : keptForm field value = some kept) : keptForm field kept = some kept := by
  have hnormal : ∀ contact : Contact, contactAdifValue contact (normalizeAdifFieldName field) =
      contactAdifValue contact field := fun contact => by
    rw [contactAdifValue, normalizeAdifFieldName_idem, contactAdifValue]
  have hkept := contactAdifValue_single field kept
  rw [keptForm, canonicalField] at h ⊢
  split at h
  · next hcolumn =>
      rw [if_pos hcolumn]
      exact toField_columnValue hcolumn hwarnings h ((hnormal _).trans hkept)
  · next hcolumn =>
      rw [if_neg hcolumn]
      exact hkept

/-- The warnings column of a row that is in the table is a field of the contact read back. -/
theorem isSome_warningsField (h : storedRow id contact = some row) :
    (contactAdifValue (rowToContact row) "WARNINGS_JSON").isSome := by
  have hfield : (get? row.fields "WARNINGS_JSON").isSome := by
    rw [get?_fields, if_pos (by decide), get_storedRow h (by decide)]
    rfl
  rw [contactAdifValue, rowToContact, contactAdif_buildContact, Option.bind_some,
    normalizeContactAdif, get?_insertAll, get?_nil, Option.or_none, isSome_get?]
  obtain ⟨entry, hentry, heq⟩ := List.mem_map.mp ((isSome_get? _ _).mp hfield)
  rw [List.map_reverse, List.mem_reverse, List.map_map]
  refine List.mem_map.mpr ⟨entry, hentry, ?_⟩
  rw [Function.comp_apply, heq]

/-- Writing a contact under an id, as the worker does after it set the log. -/
def writtenRow (logId : Int64) (contestId : String) (id : Int64) (contact : Contact) :
    Option QsoRow :=
  storedRow id (preparedContact logId.toInt contestId contact)

/-- Reading back gives the canonical fields and nothing else, never the warnings column, and
writing what was read gives the same row. -/
structure RoundTrips (logId : Int64) (contestId : String) (contact : Contact) (row : QsoRow) :
    Prop where
  fields : ∀ field, normalizeAdifFieldName field ≠ "WARNINGS_JSON" →
    contactAdifValue (rowToContact row) field =
      canonicalField (preparedContact logId.toInt contestId contact) field
  warnings : contactAdifValue (rowToContact row) "WARNINGS_JSON" = none
  again : writtenRow logId contestId row.id (rowToContact row) = some row

/-- No contact that the database accepts round-trips: its warnings come back as a field. -/
theorem not_roundTrips (logId : Int64) (contestId : String) (id : Int64) (contact : Contact)
    (row : QsoRow) (h : writtenRow logId contestId id contact = some row) :
    ¬RoundTrips logId contestId contact row := by
  intro hround
  have hsome := isSome_warningsField h
  rw [hround.warnings] at hsome
  cases hsome

end ReadBack

end Log73

namespace Log73

attribute [local instance] asciiPlatform

/-- A contact with the fields the database asks for. -/
def plainContact : Contact :=
  buildContact []
    [("BAND", .string "20m"), ("CALL", .string "K1ABC"), ("FREQ", .ofInt 14074000),
      ("MODE", .string "CW"), ("QSO_DATE_TIME_ON", .ofInt 100),
        ("STATION_CALLSIGN", .string "N0CALL")]

theorem not_roundTrips_plainContact : ∃ row, writtenRow 1 "STATES" 1 plainContact = some row ∧
    ¬RoundTrips 1 "STATES" plainContact row := by
  have haccepted : (writtenRow 1 "STATES" 1 plainContact).isSome = true := by decide +kernel
  obtain ⟨row, hrow⟩ := Option.isSome_iff_exists.mp haccepted
  exact ⟨row, hrow, not_roundTrips 1 "STATES" 1 plainContact row hrow⟩

/-- The empty list of warnings comes back as the text of the field `WARNINGS_JSON`. -/
theorem warningsField_plainContact : ¬∀ row, writtenRow 1 "STATES" 1 plainContact = some row →
    RoundTrips 1 "STATES" plainContact row := by
  intro hround
  have hfield : ((writtenRow 1 "STATES" 1 plainContact).bind fun row =>
      (contactAdifValue (rowToContact row) "WARNINGS_JSON").bind Value.asStr) = some "[]" := by
    decide +kernel
  obtain ⟨row, hrow, hvalue⟩ := Option.bind_eq_some_iff.mp hfield
  rw [(hround row hrow).warnings] at hvalue
  cases hvalue

end Log73
