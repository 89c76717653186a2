import Log73.Callsign
import Log73.Contact

/-!
`enrich_missing_dxcc` of `log_cache.rs`: the station fields are overwritten from the
station callsign, the contacted country is filled in where it is missing. Each
contact is enriched on its own; the memo of station lookups is left out.
-/

namespace Log73

variable [Platform] (database : DxccDatabase) (contact : Contact)

/-- A string field, trimmed, when something is left of it. -/
def trimmedField (contact : Contact) (field : String) : Option String :=
  (((contactAdifValue contact field).bind Value.asStr).map trim).filter fun text => !text.isEmpty

def stationInfo : Option DxccInfo :=
  ((trimmedField contact "STATION_CALLSIGN").map toUppercase).bind database.lookup

/-- Values the client supplied stay when the station callsign cannot be resolved. -/
def enrichStation : Contact :=
  match stationInfo database contact with
  | none => contact
  | some info =>
      setContactAdif (setContactAdif (setContactAdif contact
        "MY_DXCC" (.ofInt info.adif)) "MY_CONT" (.string info.continent))
        "APP_LOG73_MY_DXCC_PFX" (.string info.primaryPrefix)

def dxccMissing : Bool := (contactAdifValue contact "DXCC").all Value.isNull

def setWhen (condition : Bool) (contact : Contact) (field : String) (value : Value) : Contact :=
  if condition then setContactAdif contact field value else contact

/-- Fill in the country, its prefix and the continent, each where it is missing. -/
def enrichCall : Contact :=
  match trimmedField contact "CALL" with
  | none => contact
  | some callsign =>
      let dxccMissing := dxccMissing contact
      let prefixMissing := (trimmedField contact "APP_LOG73_DXCC_PFX").isNone
      let continentMissing := (trimmedField contact "CONT").isNone
      if !dxccMissing && !prefixMissing && !continentMissing then contact
      else
        match database.lookup callsign with
        | none => contact
        | some info =>
            let contact := setWhen dxccMissing contact "DXCC" (.ofInt info.adif)
            let contact := setWhen (prefixMissing && !(trim info.primaryPrefix).isEmpty) contact
              "APP_LOG73_DXCC_PFX" (.string info.primaryPrefix)
            setWhen (continentMissing && !(trim info.continent).isEmpty) contact
              "CONT" (.string info.continent)

def enrichContact : Contact := enrichCall database (enrichStation database contact)

def enrichMissingDxcc (contacts : List Contact) : List Contact :=
  contacts.map (enrichContact database)

section Metadata

omit [Platform] in
@[simp] theorem contactMeta_setWhen (condition : Bool) (contact : Contact) (field : String)
    (value : Value) : contactMeta (setWhen condition contact field value) =
      contactMeta contact := by
  rw [setWhen]
  split
  · exact contactMeta_setContactAdif ..
  · rfl

@[simp] theorem contactMeta_enrichStation :
    contactMeta (enrichStation database contact) = contactMeta contact := by
  rw [enrichStation]
  split <;> simp

@[simp] theorem contactMeta_enrichCall :
    contactMeta (enrichCall database contact) = contactMeta contact := by
  simp only [enrichCall]
  split
  · rfl
  · split
    · rfl
    · split <;> simp

/-- Enrichment writes ADIF fields only. -/
@[simp] theorem contactMeta_enrichContact :
    contactMeta (enrichContact database contact) = contactMeta contact := by
  simp [enrichContact]

@[simp] theorem contactId_enrichContact :
    contactId (enrichContact database contact) = contactId contact := by
  simp [contactId, contactMetaValue]

@[simp] theorem contactMetaValue_enrichContact (key : String) :
    contactMetaValue (enrichContact database contact) key = contactMetaValue contact key := by
  simp [contactMetaValue]

end Metadata

/-- Enrichment sets ADIF fields one after the other. -/
theorem enrichContact_keeps {P : Contact → Prop}
    (hset : ∀ contact field value, P contact → P (setContactAdif contact field value))
    (h : P contact) : P (enrichContact database contact) := by
  have hwhen : ∀ condition contact field value, P contact →
      P (setWhen condition contact field value) := by
    intro condition contact field value h
    rw [setWhen]
    split
    · exact hset _ _ _ h
    · exact h
  have hstation : P (enrichStation database contact) := by
    rw [enrichStation]
    split
    · exact h
    · exact hset _ _ _ (hset _ _ _ (hset _ _ _ h))
  rw [enrichContact]
  generalize enrichStation database contact = contact' at hstation
  simp only [enrichCall]
  split
  · exact hstation
  · split
    · exact hstation
    · split
      · exact hstation
      · exact hwhen _ _ _ _ (hwhen _ _ _ _ (hwhen _ _ _ _ hstation))

/-- The ADIF fields enrichment may write. -/
def enrichedFields : List String :=
  ["MY_DXCC", "MY_CONT", "APP_LOG73_MY_DXCC_PFX", "DXCC", "APP_LOG73_DXCC_PFX", "CONT"]

section Frame

variable {field : String}

omit [Platform] in
theorem contactAdifValue_setWhen_of_ne (condition : Bool) (contact : Contact) {key : String}
    (value : Value) (h : normalizeAdifFieldName key ≠ normalizeAdifFieldName field) :
    contactAdifValue (setWhen condition contact key value) field =
      contactAdifValue contact field := by
  rw [setWhen]
  split
  · rw [contactAdifValue_setContactAdif, if_neg h]
  · rfl

/-- Every other field is left alone. -/
theorem contactAdifValue_enrichContact (h : normalizeAdifFieldName field ∉ enrichedFields) :
    contactAdifValue (enrichContact database contact) field = contactAdifValue contact field := by
  have hne : ∀ key ∈ enrichedFields, normalizeAdifFieldName key ≠ normalizeAdifFieldName field := by
    intro key hkey heq
    refine h (heq ▸ ?_)
    simp only [enrichedFields, List.mem_cons, List.not_mem_nil, or_false] at hkey
    rcases hkey with rfl | rfl | rfl | rfl | rfl | rfl <;> decide
  have hstation : contactAdifValue (enrichStation database contact) field =
      contactAdifValue contact field := by
    rw [enrichStation]
    split
    · rfl
    · rw [contactAdifValue_setContactAdif, if_neg (hne _ (by decide)),
        contactAdifValue_setContactAdif, if_neg (hne _ (by decide)),
        contactAdifValue_setContactAdif, if_neg (hne _ (by decide))]
  rw [← hstation, enrichContact]
  generalize enrichStation database contact = contact'
  simp only [enrichCall]
  split
  · rfl
  · split
    · rfl
    · split
      · rfl
      · rw [contactAdifValue_setWhen_of_ne _ _ _ (hne _ (by decide)),
          contactAdifValue_setWhen_of_ne _ _ _ (hne _ (by decide)),
          contactAdifValue_setWhen_of_ne _ _ _ (hne _ (by decide))]

end Frame

end Log73
