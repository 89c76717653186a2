import Log73.Db.Tables
import Log73.Serial.SerialState

/-!
The contacts in memory after any changes are the contacts in memory that are made anew from
what is left: the list, the index by id and the tallies of the serials are determined by the
contacts held, and the greatest serials are those of these contacts.
-/

namespace Log73

open SortedAssoc
open Std (ExtTreeMap)

/-- The greatest key of a map, against the greatest of a list of its keys. -/
theorem maxKey?_eq_max? {ν : Type} {counts : ExtTreeMap Int ν} {values : List Int}
    (h : ∀ value, value ∈ counts ↔ value ∈ values) : counts.maxKey? = values.max? := by
  cases hmax : values.max? with
  | none =>
      rw [List.max?_eq_none_iff] at hmax
      rw [ExtTreeMap.maxKey?_eq_none_iff]
      refine ExtTreeMap.eq_empty_iff_forall_not_mem.mpr fun value hvalue => ?_
      rw [h, hmax] at hvalue
      cases hvalue
  | some largest =>
      obtain ⟨hmem, hle⟩ := List.max?_eq_some_iff.mp hmax
      refine ExtTreeMap.maxKey?_eq_some_iff_mem_and_forall.mpr ⟨(h largest).mpr hmem, ?_⟩
      intro value hvalue
      exact Std.isLE_compare.mpr (hle value ((h value).mp hvalue))

namespace SerialValues.Holds

variable {values values' : SerialValues} {entries : List SerialEntry} {field : String}

theorem mem_global (h : values.Holds entries field) (value : Int) :
    value ∈ values.global ↔ ∃ entry ∈ entries, entry.field = field ∧ entry.value = value := by
  rw [ExtTreeMap.mem_iff_isSome_getElem?, h.global value]
  have hcount : fieldCount entries field value ≠ 0 ↔
      ∃ entry ∈ entries, entry.field = field ∧ entry.value = value := by
    rw [fieldCount, ← Nat.pos_iff_ne_zero, List.countP_pos_iff]
    simp
  rw [← hcount]
  split <;> simp_all

theorem mem_band (h : values.Holds entries field) (band : String) (value : Int) :
    value ∈ values.bands[band]?.getD ∅ ↔
      ∃ entry ∈ entries, entry.field = field ∧ entry.value = value ∧ entry.band = band := by
  rw [ExtTreeMap.mem_iff_isSome_getElem?, h.bands band value]
  have hcount : bandCount entries field band value ≠ 0 ↔
      ∃ entry ∈ entries, entry.field = field ∧ entry.value = value ∧ entry.band = band := by
    rw [bandCount, ← Nat.pos_iff_ne_zero, List.countP_pos_iff]
    simp [and_assoc]
  rw [← hcount]
  split <;> simp_all

theorem unique (h : values.Holds entries field) (h' : values'.Holds entries field) :
    values = values' := by
  have hbands : values.bands = values'.bands := by
    refine ExtTreeMap.ext_getElem? fun {band} => ?_
    have hsame := (h.bands band).unique (h'.bands band)
    have hne := h.nonempty band
    have hne' := h'.nonempty band
    cases hget : values.bands[band]? with
    | none =>
        cases hget' : values'.bands[band]? with
        | none => rfl
        | some tally =>
            rw [hget, hget', Option.getD_none, Option.getD_some] at hsame
            rw [hget', ← hsame] at hne'
            exact absurd rfl hne'
    | some tally =>
        cases hget' : values'.bands[band]? with
        | none =>
            rw [hget, hget', Option.getD_none, Option.getD_some] at hsame
            rw [hget, hsame] at hne
            exact absurd rfl hne
        | some tally' =>
            rw [hget, hget', Option.getD_some, Option.getD_some] at hsame
            rw [hsame]
  cases values
  cases values'
  congr
  exact h.global.unique h'.global

end SerialValues.Holds

/-- The entries determine the index. -/
theorem IndexesSerials.unique {serials serials' : KeyMap SerialValues} {entries : List SerialEntry}
    (h : IndexesSerials serials entries) (h' : IndexesSerials serials' entries) :
    serials = serials' := by
  refine ExtTreeMap.ext_getElem? fun {field} => ?_
  have hsame := (h field).1.unique (h' field).1
  cases hget : serials[field]? with
  | none =>
      cases hget' : serials'[field]? with
      | none => rfl
      | some values =>
          have hne := (h' field).2 values hget'
          rw [hget, hget', Option.getD_none, Option.getD_some] at hsame
          rw [← hsame] at hne
          exact absurd rfl hne
  | some values =>
      cases hget' : serials'[field]? with
      | none =>
          have hne := (h field).2 values hget
          rw [hget, hget', Option.getD_none, Option.getD_some] at hsame
          rw [hsame] at hne
          exact absurd rfl hne
      | some values' =>
          rw [hget, hget', Option.getD_some, Option.getD_some] at hsame
          rw [hsame]

/-- The greatest of the serials of contacts, overall or of a band. -/
def greatestSerial (contacts : List Contact) (field : String) (band : Option String) : Option Int :=
  ((contacts.filter fun contact => band.all fun band =>
    contactBand contact = toAsciiLowercase band).filterMap fun contact =>
      (contactAdifValue contact field).bind jsonSerialValue).max?

namespace CachedContacts.Holds

variable {cached cached' : CachedContacts} {held : List Contact}

/-- The contacts held determine everything in memory. -/
theorem unique (h : cached.Holds held) (h' : cached'.Holds held) : cached = cached' := by
  have hordered : cached.ordered = cached'.ordered := by
    have hperm := h.ordered.trans h'.ordered.symm
    refine h.sorted.ext h'.sorted fun key => ?_
    exact get?_perm h.sorted.nodup hperm key
  have hbyId : cached.byId = cached'.byId := by
    refine ExtTreeMap.ext_getElem? fun {id} => Option.ext fun contact => ?_
    rw [h.byId, h'.byId]
  cases cached
  cases cached'
  congr
  exact h.serials.unique h'.serials

/-- The greatest serials of the index. -/
theorem serialMax_eq (h : cached.Holds held)
    (hsorted : ∀ contact ∈ held, Sorted ((contactAdif contact).getD [])) (field : String)
    (band : Option String) :
    cached.serialMax field band = greatestSerial held field band := by
  have hentry : ∀ (value : Int) (tag : Option String),
      (∃ entry ∈ held.flatMap serialEntries, entry.field = normalizeAdifFieldName field ∧
        entry.value = value ∧ ∀ band ∈ tag, entry.band = band) ↔
      value ∈ ((held.filter fun contact => tag.all fun band => contactBand contact = band).filterMap
        fun contact => (contactAdifValue contact field).bind jsonSerialValue) := by
    intro value tag
    simp only [List.mem_flatMap, List.mem_filterMap, List.mem_filter, serialEntries]
    constructor
    · rintro ⟨entry, ⟨contact, hmem, ⟨key, json⟩, hadif, hserial⟩, hfield, hvalue, hband⟩
      obtain ⟨serial, hjson, rfl⟩ := Option.map_eq_some_iff.mp hserial
      dsimp only at hfield hvalue hband
      refine ⟨contact, ⟨hmem, ?_⟩, ?_⟩
      · cases tag with
        | none => rfl
        | some band => simpa using hband band rfl
      · have hget := get?_of_mem (hsorted contact hmem).nodup hadif
        rw [hfield] at hget
        rw [contactAdifValue]
        cases hcontact : contactAdif contact with
        | none =>
            rw [hcontact] at hget
            cases hget
        | some adif =>
            rw [hcontact, Option.getD_some] at hget
            rw [Option.bind_some, hget, Option.bind_some, hjson, hvalue]
    · rintro ⟨contact, ⟨hmem, hband⟩, hserial⟩
      obtain ⟨json, hjson, hvalue⟩ := Option.bind_eq_some_iff.mp hserial
      obtain ⟨adif, hadif, hget⟩ := Option.bind_eq_some_iff.mp hjson
      refine ⟨⟨normalizeAdifFieldName field, contactBand contact, value⟩,
        ⟨contact, hmem, (normalizeAdifFieldName field, json), ?_, ?_⟩, rfl, rfl, ?_⟩
      · rw [hadif]
        exact mem_of_get? hget
      · rw [hvalue]
        rfl
      · intro tagged htag
        rw [Option.mem_def] at htag
        rw [htag] at hband
        simpa using hband
  have hfield := (h.serials (normalizeAdifFieldName field)).1
  rw [CachedContacts.serialMax, ← normalizeAdifFieldName, greatestSerial]
  cases band with
  | none =>
      have hglobal : (cached.serials[normalizeAdifFieldName field]?.bind fun values =>
          values.global.maxKey?) =
            (cached.serials[normalizeAdifFieldName field]?.getD {}).global.maxKey? := by
        cases cached.serials[normalizeAdifFieldName field]? with
        | none => simp
        | some values => rfl
      refine hglobal.trans (maxKey?_eq_max? fun value => ?_)
      rw [hfield.mem_global]
      simpa using hentry value none
  | some band =>
      have hband : (cached.serials[normalizeAdifFieldName field]?.bind fun values =>
          values.bands[toAsciiLowercase band]?.bind fun counts => counts.maxKey?) =
            ((cached.serials[normalizeAdifFieldName field]?.getD {}).bands[toAsciiLowercase
              band]?.getD ∅).maxKey? := by
        cases cached.serials[normalizeAdifFieldName field]? with
        | none => simp
        | some values =>
            rw [Option.bind_some, Option.getD_some]
            cases values.bands[toAsciiLowercase band]? with
            | none => simp
            | some counts => rfl
      refine hband.trans (maxKey?_eq_max? fun value => ?_)
      rw [hfield.mem_band]
      simpa using hentry value (some (toAsciiLowercase band))

end CachedContacts.Holds

section Persisted

variable [Platform]

/-- A contact as the database returns it: the row of a contact with canonical field names, as
the handlers leave them, that could be stored. -/
structure PersistedContact where
  row : QsoRow
  stored : ∃ (id : Int64) (contact : Contact) (adif : Map), contactAdif contact = some adif ∧
    CanonicalFields adif ∧ storedRow id contact = some row

namespace PersistedContact

def contact (persisted : PersistedContact) : Contact := rowToContact persisted.row

def id (persisted : PersistedContact) : Int := persisted.row.id.toInt

theorem contactId_contact (persisted : PersistedContact) :
    contactId persisted.contact = some persisted.id := contactId_rowToContact persisted.row

theorem sorted_adif (persisted : PersistedContact) :
    Sorted ((contactAdif persisted.contact).getD []) := by
  rw [contact, rowToContact, contactAdif_buildContact, Option.getD_some, normalizeContactAdif]
  exact Sorted.insertAll List.Pairwise.nil _

/-- The column of a field is read back as its type. -/
theorem column (persisted : PersistedContact) {field : String}
    (hnormal : normalizeAdifFieldName field = field) (hnull : field ∈ notNullColumns)
    (hfield : field ∈ fieldColumns) :
    ∃ submitted, (columnValue submitted field).isNull = false ∧
      contactAdifValue persisted.contact field = (columnValue submitted field).toField := by
  obtain ⟨id, submitted, adif, hadif, hcanonical, hrow⟩ := persisted.stored
  have hcolumn : field ∈ qsoColumns := (List.mem_filter.mp hfield).1
  refine ⟨submitted, columnValue_not_null hrow hnull hcolumn, ?_⟩
  have hid : normalizeAdifFieldName field ≠ "ID" := by
    rw [hnormal]
    intro heq
    subst heq
    exact absurd hcolumn (by decide)
  rw [contact, contactAdifValue_readBack hadif hcanonical hrow hid, canonicalField, hnormal,
    if_pos hfield]

theorem integer (persisted : PersistedContact) (field : String)
    (hnormal : normalizeAdifFieldName field = field) (hnull : field ∈ notNullColumns)
    (hfield : field ∈ fieldColumns)
    (htype : ∀ submitted, ∃ value, columnValue submitted field = .ofInteger value) :
    ∃ value : Int64, contactAdifValue persisted.contact field = some (.ofI64 value) := by
  obtain ⟨submitted, hsome, hvalue⟩ := persisted.column hnormal hnull hfield
  obtain ⟨value, hcolumn⟩ := htype submitted
  rw [hvalue]
  rw [hcolumn] at hsome ⊢
  cases value with
  | none => cases hsome
  | some value => exact ⟨Int64.ofInt value, rfl⟩

theorem text (persisted : PersistedContact) (field : String)
    (hnormal : normalizeAdifFieldName field = field) (hnull : field ∈ notNullColumns)
    (hfield : field ∈ fieldColumns)
    (htype : ∀ submitted, ∃ value : Option String,
      columnValue submitted field = value.elim .null .text) :
    ∃ value : String, contactAdifValue persisted.contact field = some (.string value) := by
  obtain ⟨submitted, hsome, hvalue⟩ := persisted.column hnormal hnull hfield
  obtain ⟨value, hcolumn⟩ := htype submitted
  rw [hvalue]
  rw [hcolumn] at hsome ⊢
  cases value with
  | none => cases hsome
  | some value => exact ⟨value, rfl⟩

/-- The column of the band is never null. -/
theorem band_isSome (persisted : PersistedContact) :
    ∃ band, (contactAdifValue persisted.contact "BAND").bind Value.asStr = some band := by
  obtain ⟨band, hband⟩ := persisted.text "BAND" (by decide +kernel) (by decide) (by decide)
    fun _ => ⟨_, rfl⟩
  exact ⟨band, by rw [hband]; rfl⟩

end PersistedContact

/-- A change of the contacts in memory. An insertion and a replacement are one operation. -/
inductive ContactChange where
  | upsert (persisted : PersistedContact)
  | remove (id : Int)

namespace ContactChange

/-- The change in memory. -/
def apply (cached : CachedContacts) : ContactChange → CachedContacts
  | .upsert persisted => cached.upsert persisted.contact
  | .remove id => cached.remove id

/-- The change of the set of contacts. -/
def result (held : List PersistedContact) : ContactChange → List PersistedContact
  | .upsert persisted => persisted :: held.filter fun other => other.id ≠ persisted.id
  | .remove id => held.filter fun other => other.id ≠ id

end ContactChange

/-- The contacts that are left after changes to none. -/
def resultingContacts (changes : List ContactChange) : List PersistedContact :=
  changes.foldl ContactChange.result []

theorem withoutId_map_contact (held : List PersistedContact) (id : Int) :
    withoutId (held.map PersistedContact.contact) id =
      (held.filter fun other => other.id ≠ id).map PersistedContact.contact := by
  rw [withoutId, List.filter_map]
  congr 1
  refine List.filter_congr fun other _ => ?_
  simp [PersistedContact.contactId_contact]

/-- One change keeps memory and set together. -/
theorem ContactChange.holds {cached : CachedContacts} {held : List PersistedContact}
    (h : cached.Holds (held.map PersistedContact.contact)) (change : ContactChange) :
    (change.apply cached).Holds ((change.result held).map PersistedContact.contact) := by
  cases change with
  | upsert persisted =>
      rw [ContactChange.apply, ContactChange.result, List.map_cons, ← withoutId_map_contact]
      exact h.upsert persisted.contactId_contact
  | remove id =>
      rw [ContactChange.apply, ContactChange.result, ← withoutId_map_contact]
      exact h.remove id

theorem holds_changes (changes : List ContactChange) :
    (changes.foldl ContactChange.apply {}).Holds
      ((resultingContacts changes).map PersistedContact.contact) := by
  rw [resultingContacts]
  suffices hall : ∀ (cached : CachedContacts) (held : List PersistedContact),
      cached.Holds (held.map PersistedContact.contact) →
        (changes.foldl ContactChange.apply cached).Holds
          ((changes.foldl ContactChange.result held).map PersistedContact.contact) from
    hall {} [] CachedContacts.Holds.empty
  induction changes with
  | nil => exact fun cached held h => h
  | cons change changes ih =>
      intro cached held h
      exact ih _ _ (change.holds h)

omit [Platform] in
/-- Greatest among the positive serials. -/
theorem max?_filter_pos (values : List Int) :
    (values.filter (0 < ·)).max? = values.max?.filter (0 < ·) := by
  cases hmax : values.max? with
  | none =>
      rw [List.max?_eq_none_iff.mp hmax]
      rfl
  | some largest =>
      obtain ⟨hmem, hle⟩ := List.max?_eq_some_iff.mp hmax
      by_cases hpos : 0 < largest
      · rw [Option.filter_some, if_pos (decide_eq_true hpos)]
        refine List.max?_eq_some_iff.mpr ⟨List.mem_filter.mpr ⟨hmem, decide_eq_true hpos⟩, ?_⟩
        intro value hvalue
        exact hle value (List.mem_filter.mp hvalue).1
      · rw [Option.filter_some, if_neg (by simpa using hpos), List.max?_eq_none_iff,
          List.filter_eq_nil_iff]
        intro value hvalue
        have hlargest := hle value hvalue
        simp only [decide_eq_true_eq]
        omega

/-- Both computations look at the same contacts. -/
theorem serialStateFromSnapshot_eq {cached : CachedContacts} {held : List PersistedContact}
    (h : cached.Holds (held.map PersistedContact.contact)) (rules : ContestRules) (log : Log)
    (field : ExchangeField) (revision : Nat) :
    serialStateFromSnapshot rules log field
        { log := log, revision := revision, contacts := cached } =
      serialStateFromContacts rules log field cached.toVec := by
  have hlisted : cached.Holds cached.toVec := h.perm h.toVec_perm.symm
  have hpersisted : ∀ contact ∈ cached.toVec,
      ∃ persisted : PersistedContact, persisted.contact = contact := by
    intro contact hmem
    obtain ⟨persisted, -, heq⟩ := List.mem_map.mp (h.toVec_perm.mem_iff.mp hmem)
    exact ⟨persisted, heq⟩
  have hsorted : ∀ contact ∈ cached.toVec, Sorted ((contactAdif contact).getD []) := by
    intro contact hmem
    obtain ⟨persisted, rfl⟩ := hpersisted contact hmem
    exact persisted.sorted_adif
  rw [serialStateFromSnapshot, serialStateFromContacts]
  congr 1
  funext band
  rw [hlisted.serialMax_eq hsorted, greatestSerial, ← max?_filter_pos, List.filter_filterMap]
  congr 2
  refine List.filter_congr fun contact hmem => ?_
  cases band with
  | none => rfl
  | some band =>
      obtain ⟨persisted, rfl⟩ := hpersisted contact hmem
      obtain ⟨text, htext⟩ := persisted.band_isSome
      rw [Option.all_some, Option.all_some, contactBand, htext, Option.getD_some, Option.any_some,
        Bool.eq_iff_iff, decide_eq_true_eq, eqIgnoreAsciiCase_iff]

/-- The contacts in memory after changes. -/
def changedContacts (changes : List ContactChange) : CachedContacts :=
  changes.foldl ContactChange.apply {}

def remainingContacts (changes : List ContactChange) : List Contact :=
  (resultingContacts changes).map PersistedContact.contact

/-- After any changes the contacts in memory are those made anew from what is left, in the order of
the database, with the greatest serials and the serial state of these contacts. -/
theorem changedContacts_rebuilt (changes : List ContactChange) :
    changedContacts changes = CachedContacts.new (remainingContacts changes) ∧
      (changedContacts changes).toVec =
        Indexing.sortDescending contactOrderKey (remainingContacts changes) ∧
      (∀ (connection : Connection) (logId : Int64),
        (connection.qsos.ofLog logId).contacts.Perm (remainingContacts changes) →
          (changedContacts changes).toVec = dbContacts connection logId) ∧
      (∀ (field : String) (band : Option String), (changedContacts changes).serialMax field band =
        greatestSerial (remainingContacts changes) field band) ∧
      ∀ (rules : ContestRules) (log : Log) (field : ExchangeField) (revision : Nat),
        serialStateFromSnapshot rules log field
            { log := log, revision := revision, contacts := changedContacts changes } =
          serialStateFromContacts rules log field (changedContacts changes).toVec := by
  have h : (changedContacts changes).Holds (remainingContacts changes) := holds_changes changes
  refine ⟨h.unique (CachedContacts.Holds.new h.identified h.nodup), h.toVec_eq, ?_, ?_, ?_⟩
  · intro connection logId hperm
    exact (h.perm hperm.symm).toVec_eq
  · intro field band
    refine h.serialMax_eq (fun contact hmem => ?_) field band
    obtain ⟨persisted, -, rfl⟩ := List.mem_map.mp hmem
    exact persisted.sorted_adif
  · exact serialStateFromSnapshot_eq h

end Persisted

end Log73
