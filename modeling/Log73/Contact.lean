import Mathlib.Data.Prod.Lex
import Log73.Json

/-!
The contact record of `db/contact.rs`: a JSON map with a metadata object and an
ADIF object, read and written through accessors.
-/

namespace Log73

open SortedAssoc

abbrev Contact := Map

def metaKey : String := "meta"
def adifKey : String := "adif"

def normalizeAdifFieldName (key : String) : String := toAsciiUppercase (trim key)

theorem normalizeAdifFieldName_idem (key : String) :
    normalizeAdifFieldName (normalizeAdifFieldName key) = normalizeAdifFieldName key :=
  toAsciiUppercase_trim_idem key

theorem normalizeAdifFieldName_trim (key : String) :
    normalizeAdifFieldName (trim key) = normalizeAdifFieldName key := by
  simp only [normalizeAdifFieldName, trim, String.toList_ofList, trimChars_trimChars]

/-- Store ADIF field names in their canonical uppercase form. -/
def normalizeContactAdif (adif : Map) : Map :=
  insertAll [] (adif.map fun entry => (normalizeAdifFieldName entry.1, entry.2))

def buildContact (metaFields adif : Map) : Contact :=
  insert (insert [] metaKey (.object metaFields)) adifKey
    (.object (normalizeContactAdif adif))

def contactMeta (contact : Contact) : Option Map := (get? contact metaKey).bind Value.asObject

def contactAdif (contact : Contact) : Option Map := (get? contact adifKey).bind Value.asObject

def contactMetaValue (contact : Contact) (key : String) : Option Value :=
  (contactMeta contact).bind fun metaFields => get? metaFields key

def contactAdifValue (contact : Contact) (key : String) : Option Value :=
  (contactAdif contact).bind fun adif => get? adif (normalizeAdifFieldName key)

/-- An object that was missing, or was no object, is replaced by an empty one. -/
def setContactMeta (contact : Contact) (key : String) (value : Value) : Contact :=
  insert contact metaKey (.object (insert ((contactMeta contact).getD []) key value))

def removeContactMeta (contact : Contact) (key : String) : Contact :=
  match contactMeta contact with
  | some metaFields => insert contact metaKey (.object (erase metaFields key))
  | none => contact

def setContactAdif (contact : Contact) (key : String) (value : Value) : Contact :=
  insert contact adifKey
    (.object (insert ((contactAdif contact).getD []) (normalizeAdifFieldName key) value))

def jsonI64Value : Value → Option Int
  | .number n => n.asI64.or (n.asU64.map wrapI64)
  | .string s => parseI64 s
  | _ => none

@[simp] theorem jsonI64Value_ofI64 (value : Int64) :
    jsonI64Value (.ofI64 value) = some value.toInt := by
  rw [Value.ofI64, jsonI64Value, ← Value.asI64, ← Value.ofI64, Value.asI64_ofI64, Option.some_or]

def jsonI64 (value : Option Value) : Option Int := value.bind jsonI64Value

def jsonString [Platform] : Option Value → Option String
  | some (.string s) => some s
  | some (.number n) => some n.toText
  | some (.bool b) => some (toString b)
  | _ => none

def contactId (contact : Contact) : Option Int :=
  (contactMetaValue contact "id").bind jsonI64Value

def contactLogId (contact : Contact) : Option Int :=
  (contactMetaValue contact "logId").bind jsonI64Value

/-- Contacts are ordered by time, then id. -/
def contactOrderKey (contact : Contact) : Int ×ₗ Int :=
  toLex (((contactAdifValue contact "QSO_DATE_TIME_ON").bind Value.asI64).getD 0,
    (contactId contact).getD 0)

section Accessors

variable (contact : Contact) (key key' : String) (value : Value)

theorem contactMetaValue_setContactMeta :
    contactMetaValue (setContactMeta contact key value) key' =
      if key = key' then some value else contactMetaValue contact key' := by
  simp only [contactMetaValue, setContactMeta, contactMeta, get?_insert_self, Option.bind_some,
    Value.asObject, get?_insert]
  split
  · rfl
  · cases (get? contact metaKey).bind Value.asObject <;> rfl

@[simp] theorem contactMetaValue_setContactMeta_self :
    contactMetaValue (setContactMeta contact key value) key = some value := by
  simp [contactMetaValue_setContactMeta]

theorem contactMetaValue_setContactMeta_of_ne {key key' : String} (h : key ≠ key') :
    contactMetaValue (setContactMeta contact key value) key' = contactMetaValue contact key' := by
  simp [contactMetaValue_setContactMeta, h]

@[simp] theorem contactAdif_setContactMeta :
    contactAdif (setContactMeta contact key value) = contactAdif contact := by
  simp [contactAdif, setContactMeta, get?_insert, metaKey, adifKey]

@[simp] theorem contactAdifValue_setContactMeta :
    contactAdifValue (setContactMeta contact key value) key' = contactAdifValue contact key' := by
  simp [contactAdifValue]

theorem contactAdif_setContactAdif : contactAdif (setContactAdif contact key value) =
    some (insert ((contactAdif contact).getD []) (normalizeAdifFieldName key) value) := by
  rw [contactAdif, setContactAdif, get?_insert_self]
  rfl

theorem contactAdifValue_setContactAdif :
    contactAdifValue (setContactAdif contact key value) key' =
      if normalizeAdifFieldName key = normalizeAdifFieldName key' then some value
      else contactAdifValue contact key' := by
  rw [contactAdifValue, contactAdif_setContactAdif, Option.bind_some, get?_insert,
    contactAdifValue]
  split
  · rfl
  · cases contactAdif contact <;> rfl

@[simp] theorem contactMeta_setContactAdif :
    contactMeta (setContactAdif contact key value) = contactMeta contact := by
  simp [contactMeta, setContactAdif, get?_insert, metaKey, adifKey]

@[simp] theorem contactMetaValue_setContactAdif :
    contactMetaValue (setContactAdif contact key value) key' = contactMetaValue contact key' := by
  simp [contactMetaValue]

@[simp] theorem contactId_setContactAdif :
    contactId (setContactAdif contact key value) = contactId contact := by
  simp [contactId]

end Accessors

@[simp] theorem contactMeta_buildContact (metaFields adif : Map) :
    contactMeta (buildContact metaFields adif) = some metaFields := by
  simp [contactMeta, buildContact, get?_insert, metaKey, adifKey, Value.asObject]

@[simp] theorem contactAdif_buildContact (metaFields adif : Map) :
    contactAdif (buildContact metaFields adif) = some (normalizeContactAdif adif) := by
  simp [contactAdif, buildContact, Value.asObject]

/-- The fields of a contact that was built are under canonical names. -/
theorem normalizeAdifFieldName_of_mem_buildContact {metaFields adif : Map} {key : String}
    {value : Value}
    (h : (key, value) ∈ (contactAdif (buildContact metaFields adif)).getD []) :
    normalizeAdifFieldName key = key := by
  rw [contactAdif_buildContact, Option.getD_some, normalizeContactAdif] at h
  have hkey := (keys_insertAll [] _ key).mp (List.mem_map_of_mem h)
  rw [List.map_nil, List.map_map] at hkey
  cases hkey with
  | inl hmem => cases hmem
  | inr hmem =>
      obtain ⟨entry, -, rfl⟩ := List.mem_map.mp hmem
      exact normalizeAdifFieldName_idem entry.1

/-- Ids are 64-bit integers. -/
theorem jsonI64Value_range {value : Value} {n : Int} (h : jsonI64Value value = some n) :
    i64Min ≤ n ∧ n ≤ i64Max := by
  cases value with
  | number number =>
      rw [jsonI64Value, Option.or_eq_some_iff] at h
      cases h with
      | inl h => exact number.asI64_range n h
      | inr h =>
          obtain ⟨unsigned, hunsigned, rfl⟩ := Option.map_eq_some_iff.mp h.2
          cases number with
          | float _ => cases hunsigned
          | int i =>
              rw [Number.asU64] at hunsigned
              split at hunsigned
              · obtain rfl := Option.some.inj hunsigned
                rw [wrapI64]
                split <;> simp only [i64Min, i64Max, u64Max] at * <;> omega
              · cases hunsigned
  | string s => exact parseI64_range s n h
  | null | bool _ | array _ | object _ => cases h

theorem toInt_ofInt_contactId {contact : Contact} {id : Int} (h : contactId contact = some id) :
    (Int64.ofInt id).toInt = id := by
  obtain ⟨value, -, hvalue⟩ := Option.bind_eq_some_iff.mp h
  have hrange := jsonI64Value_range hvalue
  simp only [i64Min, i64Max] at hrange
  exact Int64.toInt_ofInt_of_le (by simpa using hrange.1) (by omega)

end Log73
