import Log73.Adif.Exported
import Log73.Adif.Import
import Log73.Frontend.FrequencyAgreement
import Log73.Library.Checks

/-!
What the importer makes of the text of a log: contacts with the time, the frequency, the
callsign, the band and the exchange of the contacts that were written.
-/

namespace Log73

open SortedAssoc

namespace Adif

section Import

variable [Platform] {log : Log} {rules : ContestRules} {contact : Contact} {record : AdifRecord}
  {mappings : ImportMappings}

omit [Platform] in
theorem requiredField_eq {name value : String} (hvalue : get? record.fields name = some value)
    (hne : trim value ≠ "") : requiredField record name = .ok (trim value) := by
  rw [requiredField, hvalue, Option.map_some, Option.filter_some, if_pos (by simpa using hne)]

/-- The fields of the contact before its exchange is read. -/
def importBase (log : Log) (record : AdifRecord) (epoch hz : Int) : Map :=
  insert (insert (insert (recordAdif record) "QSO_DATE_TIME_ON" (.ofInt epoch)) "CONTEST_ID"
    (.string log.contestId)) "FREQ" (.ofInt hz)

/-- The exchange as the importer reads it from the record of a contact. -/
def exchangeEntries (contact : Contact) (exchange : List ExchangeField) : Map :=
  exchange.map fun field =>
    (field.adif, .string ((jsonString (contactAdifValue contact field.adif)).getD ""))

/-- Every exchange field is read from the field it is exported as. -/
def MapsOwnFields (rules : ContestRules) (mappings : ImportMappings) : Prop :=
  ∀ field ∈ rules.exchange, ∃ name source,
    (mappings.find? fun entry => eqIgnoreAsciiCase entry.1 field.adif) =
      some (name, .adifField source) ∧ normalizeFieldName source = normalizeFieldName field.adif

theorem foldlM_importExchange {exchange : List ExchangeField}
    (hmaps : ∀ field ∈ exchange, ∃ name source,
      (mappings.find? fun entry => eqIgnoreAsciiCase entry.1 field.adif) =
        some (name, .adifField source) ∧ normalizeFieldName source = normalizeFieldName field.adif)
    (hread : ∀ field ∈ exchange, ∃ text,
      jsonString (contactAdifValue contact field.adif) = some text ∧
      get? record.fields (normalizeFieldName field.adif) = some text ∧ trim text ≠ "")
    (adif : Map) :
    exchange.foldlM (importExchange log record mappings) adif =
      .ok (insertAll adif (exchangeEntries contact exchange)) := by
  induction exchange generalizing adif with
  | nil => rfl
  | cons field exchange ih =>
      obtain ⟨name, source, hfind, hsource⟩ := hmaps field List.mem_cons_self
      obtain ⟨text, htext, hget, hne⟩ := hread field List.mem_cons_self
      have hstep : importExchange log record mappings adif field =
          .ok (insert adif field.adif (.string text)) := by
        rw [importExchange, hfind]
        dsimp only
        rw [mappingValue, hsource, hget, Option.filter_some, if_pos (by simpa using hne)]
        rfl
      rw [List.foldlM_cons, hstep]
      refine (ih (fun field hmem => hmaps field (List.mem_cons_of_mem _ hmem))
        (fun field hmem => hread field (List.mem_cons_of_mem _ hmem)) _).trans ?_
      rw [exchangeEntries, exchangeEntries, List.map_cons, htext]
      rfl

theorem importRecord_eq (h : ReadsBack rules contact record)
    (hmaps : MapsOwnFields rules mappings) :
    ∃ epoch hz, contactAdifValue contact "QSO_DATE_TIME_ON" = some (.ofInt epoch) ∧
      contactAdifValue contact "FREQ" = some (.ofInt hz) ∧
      importRecord log rules record mappings = .ok (buildContact []
        (insertAll (importBase log record epoch hz) (exchangeEntries contact rules.exchange))) := by
  obtain ⟨epoch, date, time, hstart, hdate, htime, hdateDigits, htimeDigits, hepoch⟩ := h.start
  obtain ⟨hz, text, hfrequency, hfreq, hne, htrim, himport⟩ := h.frequency
  obtain ⟨station, hstation, hstationNe⟩ := h.station
  obtain ⟨mode, hmode, hmodeNe⟩ := h.mode
  obtain ⟨call, -, hcall, hcallNe⟩ := h.call
  obtain ⟨band, -, hband, hbandNe⟩ := h.band
  have hdateTrim := (singleLine_digits hdateDigits.2).trimmed
  have htimeTrim := (singleLine_digits htimeDigits.2).trimmed
  have himportEpoch : importQsoEpoch record = .ok epoch := by
    rw [importQsoEpoch, requiredField_eq hdate (by rw [hdateTrim]; exact hdateDigits.1),
      requiredField_eq htime (by rw [htimeTrim]; exact htimeDigits.1), hdateTrim, htimeTrim]
    dsimp only [bind, Except.bind]
    rw [hepoch]
  refine ⟨epoch, hz, hstart, hfrequency, ?_⟩
  rw [importRecord, himportEpoch, requiredField_eq hfreq (by rwa [htrim]), htrim,
    requiredField_eq hstation hstationNe, requiredField_eq hcall hcallNe,
    requiredField_eq hband hbandNe, requiredField_eq hmode hmodeNe]
  dsimp only [bind, Except.bind]
  rw [himport]
  dsimp only
  rw [foldlM_importExchange hmaps h.exchange]
  rfl

omit [Platform] in
theorem get?_recordAdif (record : AdifRecord) (key : String) :
    get? (recordAdif record) key =
      if key ∈ ["ID", "_ID", "_LOG_ID", "_STATUS"] then none
      else (get? record.fields key).map .string := by
  have hfilter := get?_filter record.fields
    (fun key => decide (key ∉ ["ID", "_ID", "_LOG_ID", "_STATUS"])) key
  rw [recordAdif, get?_mapValues, hfilter]
  by_cases hkey : key ∈ ["ID", "_ID", "_LOG_ID", "_STATUS"]
  · rw [if_neg (by rw [decide_eq_true_eq]; exact not_not_intro hkey), if_pos hkey,
      Option.map_none]
  · rw [if_pos (by rw [decide_eq_true_eq]; exact hkey), if_neg hkey]

omit [Platform] in
theorem get?_importBase (record : AdifRecord) (epoch hz : Int) (key : String) :
    get? (importBase log record epoch hz) key =
      if "FREQ" = key then some (.ofInt hz)
      else if "CONTEST_ID" = key then some (.string log.contestId)
      else if "QSO_DATE_TIME_ON" = key then some (.ofInt epoch)
      else get? (recordAdif record) key := by
  rw [importBase, get?_insert, get?_insert, get?_insert]

omit [Platform] in
theorem normalizeAdifFieldName_of_canonicalName {name : String} (h : CanonicalName name) :
    normalizeAdifFieldName name = name := by
  have htrim : trimChars name.toList = name.toList := trimChars_eq_self fun c hmem => by
    have hcode := toNat_of_isNameChar (h.chars c hmem)
    exact isWhitespace_of_toNat (by omega)
  have hupper : name.toList.map Char.toUpper = name.toList := by
    refine (List.map_congr_left fun c hmem => ?_).trans (List.map_id _)
    have hcode := toNat_of_isNameChar (h.chars c hmem)
    exact Char.toNat_inj.mp (by rw [toNat_toUpper, if_neg (by omega), id])
  rw [normalizeAdifFieldName, trim, htrim, String.ofList_toList, toAsciiUppercase, hupper,
    String.ofList_toList]

omit [Platform] in
/-- A name has the value that all the fields imported under it agree on. -/
theorem contactAdifValue_imported {base entries : Map} (hsorted : Sorted base)
    (hnormal : ∀ entry ∈ base, normalizeAdifFieldName entry.1 = entry.1) {name : String}
    {value : Value}
    (hsome : (get? base (normalizeAdifFieldName name)).isSome ∨
      ∃ entry ∈ entries, normalizeAdifFieldName entry.1 = normalizeAdifFieldName name)
    (hbase : ∀ found, get? base (normalizeAdifFieldName name) = some found → found = value)
    (hentries : ∀ entry ∈ entries,
      normalizeAdifFieldName entry.1 = normalizeAdifFieldName name → entry.2 = value) :
    contactAdifValue (buildContact [] (insertAll base entries)) name = some value := by
  rw [contactAdifValue, contactAdif_buildContact, Option.bind_some, normalizeContactAdif]
  refine get?_insertAll_of_agree ?_ ?_
  · have hkey : ∃ key ∈ (insertAll base entries).map Prod.fst,
        normalizeAdifFieldName key = normalizeAdifFieldName name := by
      cases hsome with
      | inl hsome =>
          exact ⟨_, (keys_insertAll _ _ _).mpr (.inl ((isSome_get? _ _).mp hsome)),
            normalizeAdifFieldName_idem name⟩
      | inr hsome =>
          obtain ⟨entry, hentry, heq⟩ := hsome
          exact ⟨_, (keys_insertAll _ _ _).mpr (.inr (List.mem_map_of_mem hentry)), heq⟩
    obtain ⟨key, hkey, heq⟩ := hkey
    obtain ⟨entry, hentry, rfl⟩ := List.mem_map.mp hkey
    exact ⟨_, List.mem_map_of_mem hentry, heq⟩
  · intro entry hentry heq
    obtain ⟨field, hfield, rfl⟩ := List.mem_map.mp hentry
    have hget : get? (insertAll base entries) field.1 = some field.2 :=
      get?_of_mem (hsorted.insertAll entries).nodup hfield
    rw [get?_insertAll] at hget
    cases hfound : get? entries.reverse field.1 with
    | some found =>
        rw [hfound, Option.some_or] at hget
        have hmem := List.mem_reverse.mp (mem_of_get? hfound)
        rw [← Option.some.inj hget]
        exact hentries _ hmem heq
    | none =>
        rw [hfound, Option.none_or] at hget
        have hself := hnormal _ (mem_of_get? hget)
        refine hbase _ ?_
        rw [← heq]
        exact (congrArg (get? base) hself).trans hget

/-- What an import keeps of a contact. -/
structure Preserved (rules : ContestRules) (contact imported : Contact) : Prop where
  start :
    contactAdifValue imported "QSO_DATE_TIME_ON" = contactAdifValue contact "QSO_DATE_TIME_ON"
  frequency : contactAdifValue imported "FREQ" = contactAdifValue contact "FREQ"
  call : contactAdifValue imported "CALL" = contactAdifValue contact "CALL"
  band : contactAdifValue imported "BAND" = contactAdifValue contact "BAND"
  exchange : ∀ field ∈ rules.exchange,
    jsonString (contactAdifValue imported field.adif) =
      jsonString (contactAdifValue contact field.adif)

section Lookup

variable {epoch hz : Int}

theorem ReadsBack.sorted_importBase (h : ReadsBack rules contact record) :
    Sorted (importBase log record epoch hz) :=
  ((((h.sorted.filter _).mapValues Value.string).insert _ _).insert _ _).insert _ _

theorem ReadsBack.importBase_normal (h : ReadsBack rules contact record) :
    ∀ entry ∈ importBase log record epoch hz, normalizeAdifFieldName entry.1 = entry.1 := by
  intro entry hentry
  obtain rfl | hentry := mem_of_mem_insert hentry
  · exact (by decide : normalizeAdifFieldName "FREQ" = "FREQ")
  obtain rfl | hentry := mem_of_mem_insert hentry
  · exact (by decide : normalizeAdifFieldName "CONTEST_ID" = "CONTEST_ID")
  obtain rfl | hentry := mem_of_mem_insert hentry
  · exact (by decide : normalizeAdifFieldName "QSO_DATE_TIME_ON" = "QSO_DATE_TIME_ON")
  obtain ⟨field, hfield, rfl⟩ := List.mem_map.mp hentry
  exact normalizeAdifFieldName_of_canonicalName (h.names field (List.mem_filter.mp hfield).1)

/-- A field that no exchange field writes keeps what the importer set. -/
theorem contactAdifValue_importedBase (h : ReadsBack rules contact record) {name : String}
    {value : Value}
    (hvalue : get? (importBase log record epoch hz) (normalizeAdifFieldName name) = some value)
    (hexchange : ∀ field ∈ rules.exchange,
      normalizeAdifFieldName field.adif ≠ normalizeAdifFieldName name) :
    contactAdifValue (buildContact [] (insertAll (importBase log record epoch hz)
      (exchangeEntries contact rules.exchange))) name = some value := by
  refine contactAdifValue_imported h.sorted_importBase h.importBase_normal
    (.inl (Option.isSome_iff_exists.mpr ⟨value, hvalue⟩)) ?_ ?_
  · intro found hfound
    rw [hvalue] at hfound
    exact (Option.some.inj hfound).symm
  · intro entry hentry heq
    obtain ⟨field, hfield, rfl⟩ := List.mem_map.mp hentry
    exact absurd heq (hexchange field hfield)

/-- A text is the same whether the record or the exchange gives it. -/
theorem contactAdifValue_importedText (h : ReadsBack rules contact record) {name text : String}
    (hname : normalizeAdifFieldName name ∉ ["FREQ", "CONTEST_ID", "QSO_DATE_TIME_ON"])
    (htext : jsonString (contactAdifValue contact name) = some text)
    (hrecord : ∀ value, get? record.fields (normalizeAdifFieldName name) = some value →
      value = text)
    (hsome : (get? (importBase log record epoch hz) (normalizeAdifFieldName name)).isSome ∨
      ∃ field ∈ rules.exchange,
        normalizeAdifFieldName field.adif = normalizeAdifFieldName name) :
    contactAdifValue (buildContact [] (insertAll (importBase log record epoch hz)
      (exchangeEntries contact rules.exchange))) name = some (.string text) := by
  refine contactAdifValue_imported h.sorted_importBase h.importBase_normal
    (hsome.imp_right fun ⟨field, hfield, heq⟩ => ⟨_, List.mem_map_of_mem hfield, heq⟩) ?_ ?_
  · intro found hfound
    simp only [List.mem_cons, List.not_mem_nil, or_false, not_or] at hname
    rw [get?_importBase, if_neg (Ne.symm hname.1), if_neg (Ne.symm hname.2.1),
      if_neg (Ne.symm hname.2.2), get?_recordAdif] at hfound
    split at hfound
    · cases hfound
    · obtain ⟨value, hvalue, rfl⟩ := Option.map_eq_some_iff.mp hfound
      rw [hrecord value hvalue]
  · intro entry hentry heq
    obtain ⟨field, hfield, rfl⟩ := List.mem_map.mp hentry
    have hsame : contactAdifValue contact field.adif = contactAdifValue contact name := by
      rw [contactAdifValue, contactAdifValue, heq]
    dsimp only
    rw [hsame, htext, Option.getD_some]

end Lookup

theorem preserved_importRecord (h : ReadsBack rules contact record)
    (hordinary : OrdinaryExchange rules) (hmaps : MapsOwnFields rules mappings) :
    ∃ imported, importRecord log rules record mappings = .ok imported ∧
      Preserved rules contact imported := by
  obtain ⟨epoch, hz, hstart, hfrequency, himport⟩ := importRecord_eq h hmaps
  refine ⟨_, himport, ?_⟩
  have hother {field : ExchangeField} (hfield : field ∈ rules.exchange) :
      normalizeAdifFieldName field.adif ∉ ["FREQ", "CONTEST_ID", "QSO_DATE_TIME_ON"] := by
    obtain ⟨hskip, hcontest, hexported⟩ := hordinary field hfield
    intro hmem
    simp only [List.mem_cons, List.not_mem_nil, or_false] at hmem
    obtain heq | heq | heq := hmem
    · apply hexported
      rw [← normalizeFieldName_normalizeAdifFieldName, heq]
      decide
    · exact hcontest heq
    · rw [heq] at hskip
      exact absurd hskip (by decide)
  have hnumber {name : String} (hname : name ∈ ["FREQ", "CONTEST_ID", "QSO_DATE_TIME_ON"])
      (hnormal : normalizeAdifFieldName name = name) :
      ∀ field ∈ rules.exchange,
        normalizeAdifFieldName field.adif ≠ normalizeAdifFieldName name := by
    intro field hfield heq
    exact hother hfield (by rwa [heq, hnormal])
  have htext {name text : String} (hnormal : normalizeAdifFieldName name = name)
      (hname : name ∉ ["FREQ", "CONTEST_ID", "QSO_DATE_TIME_ON"])
      (hid : name ∉ ["ID", "_ID", "_LOG_ID", "_STATUS"])
      (hvalue : contactAdifValue contact name = some (.string text))
      (hget : get? record.fields name = some text) :
      contactAdifValue (buildContact [] (insertAll (importBase log record epoch hz)
        (exchangeEntries contact rules.exchange))) name = contactAdifValue contact name := by
    rw [hvalue]
    refine contactAdifValue_importedText h (by rwa [hnormal]) (by rw [hvalue]; rfl) ?_ (.inl ?_)
    · intro value hfound
      rw [hnormal, hget] at hfound
      exact (Option.some.inj hfound).symm
    · simp only [List.mem_cons, List.not_mem_nil, or_false, not_or] at hname
      rw [hnormal, get?_importBase, if_neg (Ne.symm hname.1), if_neg (Ne.symm hname.2.1),
        if_neg (Ne.symm hname.2.2), get?_recordAdif, if_neg hid, hget]
      rfl
  constructor
  case start =>
    rw [hstart]
    refine contactAdifValue_importedBase h ?_ (hnumber (by decide) (by decide))
    rw [get?_importBase]
    rfl
  case frequency =>
    rw [hfrequency]
    refine contactAdifValue_importedBase h ?_ (hnumber (by decide) (by decide))
    rw [get?_importBase]
    rfl
  case call =>
    obtain ⟨text, hcall, hget, -⟩ := h.call
    exact htext (by decide) (by decide) (by decide) hcall hget
  case band =>
    obtain ⟨text, hband, hget, -⟩ := h.band
    exact htext (by decide) (by decide) (by decide) hband hget
  case exchange =>
    intro field hfield
    obtain ⟨text, hvalue, hget, -⟩ := h.exchange field hfield
    rw [contactAdifValue_importedText h (hother hfield) hvalue ?_ (.inr ⟨field, hfield, rfl⟩),
      hvalue]
    · rfl
    · intro value hfound
      have hcanonical := h.names _ (mem_of_get? hfound)
      have hsame : normalizeFieldName field.adif = normalizeAdifFieldName field.adif := by
        rw [← normalizeFieldName_normalizeAdifFieldName,
          normalizeFieldName_eq_self hcanonical.chars]
      rw [← hsame, hget] at hfound
      exact (Option.some.inj hfound).symm

/-- The importer fills in every exchange field, whatever the mappings say. -/
theorem exists_of_foldlM_importExchange {exchange : List ExchangeField} {adif adif' : Map}
    (h : exchange.foldlM (importExchange log record mappings) adif = .ok adif') :
    ∃ entries, adif' = insertAll adif entries ∧
      entries.map Prod.fst = exchange.map (fun field => field.adif) ∧
      ∀ entry ∈ entries, ∃ text, entry.2 = .string text := by
  induction exchange generalizing adif with
  | nil =>
      obtain rfl := Except.ok.inj h
      exact ⟨[], rfl, rfl, fun entry hentry => absurd hentry List.not_mem_nil⟩
  | cons field exchange ih =>
      rw [List.foldlM_cons] at h
      obtain ⟨next, hstep, h⟩ := Checks.bind_eq_ok.mp h
      have hnext : ∃ text, next = insert adif field.adif (.string text) := by
        rw [importExchange] at hstep
        cases hfind : mappings.find? fun entry => eqIgnoreAsciiCase entry.1 field.adif with
        | none =>
            rw [hfind] at hstep
            cases hstep
        | some entry =>
            rw [hfind] at hstep
            obtain ⟨text, -, hinsert⟩ := Checks.bind_eq_ok.mp hstep
            exact ⟨text, (Except.ok.inj hinsert).symm⟩
      obtain ⟨text, rfl⟩ := hnext
      obtain ⟨entries, rfl, hkeys, htexts⟩ := ih h
      refine ⟨(field.adif, .string text) :: entries, rfl, ?_, ?_⟩
      · rw [List.map_cons, List.map_cons, hkeys]
      · intro entry hentry
        cases List.mem_cons.mp hentry with
        | inl heq => exact ⟨text, by rw [heq]⟩
        | inr hentry => exact htexts entry hentry

theorem exists_of_importRecord {imported : Contact}
    (h : importRecord log rules record mappings = .ok imported) :
    ∃ epoch hz entries,
      imported = buildContact [] (insertAll (importBase log record epoch hz) entries) ∧
      entries.map Prod.fst = rules.exchange.map (fun field => field.adif) ∧
      ∀ entry ∈ entries, ∃ text, entry.2 = .string text := by
  rw [importRecord] at h
  obtain ⟨epoch, -, h⟩ := Checks.bind_eq_ok.mp h
  obtain ⟨text, -, h⟩ := Checks.bind_eq_ok.mp h
  dsimp only at h
  cases hfrequency : importFrequencyHz text with
  | none =>
      rw [hfrequency] at h
      cases h
  | some hz =>
  rw [hfrequency] at h
  obtain ⟨_, hhz, h⟩ := Checks.bind_eq_ok.mp h
  obtain rfl := Except.ok.inj hhz
  obtain ⟨station, -, h⟩ := Checks.bind_eq_ok.mp h
  obtain ⟨call, -, h⟩ := Checks.bind_eq_ok.mp h
  obtain ⟨band, -, h⟩ := Checks.bind_eq_ok.mp h
  obtain ⟨mode, -, h⟩ := Checks.bind_eq_ok.mp h
  obtain ⟨adif, hadif, h⟩ := Checks.bind_eq_ok.mp h
  obtain ⟨entries, rfl, hkeys, htexts⟩ := exists_of_foldlM_importExchange hadif
  exact ⟨epoch, hz, entries, (Except.ok.inj h).symm, hkeys, htexts⟩

omit [Platform] in
theorem mem_of_mem_insertAll {m entries : Map} {entry : String × Value}
    (h : entry ∈ insertAll m entries) : entry ∈ m ∨ entry ∈ entries := by
  induction entries generalizing m with
  | nil => exact .inl h
  | cons head entries ih =>
      cases ih h with
      | inl hinsert =>
          cases mem_of_mem_insert hinsert with
          | inl heq => exact .inr (List.mem_cons.mpr (.inl heq))
          | inr hmem => exact .inl hmem
      | inr hmem => exact .inr (List.mem_cons_of_mem _ hmem)

/-- Every imported field has a text. -/
theorem isSome_jsonString_imported {epoch hz : Int} {entries : Map}
    (htexts : ∀ entry ∈ entries, ∃ text, entry.2 = .string text) :
    ∀ entry ∈ insertAll (importBase log record epoch hz) entries,
      (jsonString (some entry.2)).isSome := by
  intro entry hentry
  cases mem_of_mem_insertAll hentry with
  | inr hentry =>
      obtain ⟨text, htext⟩ := htexts entry hentry
      rw [htext]
      rfl
  | inl hentry =>
      obtain rfl | hentry := mem_of_mem_insert hentry
      · rfl
      obtain rfl | hentry := mem_of_mem_insert hentry
      · rfl
      obtain rfl | hentry := mem_of_mem_insert hentry
      · rfl
      obtain ⟨field, -, rfl⟩ := List.mem_map.mp hentry
      rfl

/-- An exchange field that a contact lacks is not preserved. -/
theorem not_preserved_of_missing {imported : Contact} {field : ExchangeField}
    (hfield : field ∈ rules.exchange) (hmissing : contactAdifValue contact field.adif = none)
    (h : importRecord log rules record mappings = .ok imported) :
    ¬Preserved rules contact imported := by
  intro hpreserved
  obtain ⟨epoch, hz, entries, rfl, hkeys, htexts⟩ := exists_of_importRecord h
  have hkey : normalizeAdifFieldName field.adif ∈
      (normalizeContactAdif (insertAll (importBase log record epoch hz) entries)).map Prod.fst := by
    have hown : field.adif ∈ entries.map Prod.fst := hkeys ▸ List.mem_map_of_mem hfield
    obtain ⟨entry, hentry, heq⟩ :=
      List.mem_map.mp ((keys_insertAll (importBase log record epoch hz) _ _).mpr (.inr hown))
    rw [normalizeContactAdif, keys_insertAll, List.map_map]
    exact .inr (List.mem_map.mpr ⟨entry, hentry, congrArg normalizeAdifFieldName heq⟩)
  obtain ⟨value, hvalue⟩ := Option.isSome_iff_exists.mp ((isSome_get? _ _).mpr hkey)
  have htext := hpreserved.exchange field hfield
  rw [hmissing, contactAdifValue, contactAdif_buildContact, Option.bind_some, hvalue] at htext
  rw [normalizeContactAdif] at hvalue
  cases mem_of_mem_insertAll (mem_of_get? hvalue) with
  | inl hentry => cases hentry
  | inr hentry =>
      obtain ⟨entry, hentry, heq⟩ := List.mem_map.mp hentry
      have hsome := isSome_jsonString_imported htexts entry hentry
      rw [congrArg Prod.snd heq, htext] at hsome
      cases hsome

/-- Each record gives a contact back. -/
theorem exists_imported (hexact : ExactDecimals) (hordinary : OrdinaryExchange rules)
    (hmaps : MapsOwnFields rules mappings) {contacts : List PersistedContact}
    {records : List AdifRecord}
    (hrecords : List.Forall₂ (fun persisted record => ∃ fields,
      contactFields persisted.contact log.stationCallsign = .ok fields ∧
        record.fields = readFields fields) contacts records)
    (hportable : ∀ persisted ∈ contacts, Portable log rules persisted.contact) :
    ∃ imported : List ImportContact,
      List.Forall₂ (fun record entry =>
        importRecord log rules record mappings = .ok entry.contact ∧ entry.line = record.line)
        records imported ∧
      List.Forall₂ (fun persisted entry => Preserved rules persisted.contact entry.contact)
        contacts imported := by
  induction hrecords with
  | nil => exact ⟨[], .nil, .nil⟩
  | cons hhead _ ih =>
      obtain ⟨fields, hfields, hrecord⟩ := hhead
      obtain ⟨imported, hread, hpreserved⟩ := ih
        (fun persisted hmem => hportable persisted (List.mem_cons_of_mem _ hmem))
      have hback := readsBack_contactFields hexact (hportable _ List.mem_cons_self) hordinary
        hfields hrecord
      obtain ⟨contact, hcontact, hsame⟩ := preserved_importRecord hback hordinary hmaps
      exact ⟨⟨_, contact⟩ :: imported, .cons ⟨hcontact, rfl⟩ hread, .cons hsame hpreserved⟩

/-- Contacts that say all an import asks for come back from the text of their log. -/
theorem importContacts_renderLog (hexact : ExactDecimals) {contacts : List PersistedContact}
    {text : String} (hne : contacts ≠ [])
    (hportable : ∀ persisted ∈ contacts, Portable log rules persisted.contact)
    (hordinary : OrdinaryExchange rules) (hmaps : MapsOwnFields rules mappings)
    (h : renderLog log (contacts.map PersistedContact.contact) = .ok text) :
    ∃ imported, importContacts log rules text mappings = .ok imported ∧
      List.Forall₂ (fun persisted entry => Preserved rules persisted.contact entry.contact)
        contacts imported := by
  obtain ⟨hrender, hlength⟩ := renderContacts_of_renderLog h
  obtain ⟨records, hparse, hrecords⟩ := parseRecords_of_renderContacts hrender hlength
  obtain ⟨imported, hread, hpreserved⟩ :=
    exists_imported hexact hordinary hmaps (List.forall₂_map_left_iff.mp hrecords) hportable
  have hsome : ¬records.isEmpty = true := by
    rw [List.isEmpty_iff]
    intro hnil
    rw [hnil] at hrecords
    exact hne (List.map_eq_nil_iff.mp (List.forall₂_nil_right_iff.mp hrecords))
  refine ⟨imported, ?_, hpreserved⟩
  rw [importContacts, hparse]
  dsimp only
  rw [if_neg hsome]
  refine Checks.mapM_eq_ok.mpr (hread.imp fun record entry hentry => ?_)
  obtain ⟨hcontact, hline⟩ := hentry
  rw [hcontact, ← hline]
  rfl

/-- Every contact that is imported comes from a record. -/
theorem exists_importRecord {text : String} {imported : List ImportContact}
    (h : importContacts log rules text mappings = .ok imported) {entry : ImportContact}
    (hentry : entry ∈ imported) :
    ∃ record, importRecord log rules record mappings = .ok entry.contact := by
  rw [importContacts] at h
  cases hparse : parseRecords text with
  | error message =>
      rw [hparse] at h
      cases h
  | ok records =>
      rw [hparse] at h
      dsimp only at h
      split at h
      · cases h
      · obtain ⟨record, -, hstep⟩ := Checks.exists_of_mem_right (Checks.mapM_eq_ok.mp h) hentry
        obtain ⟨contact, hcontact, heq⟩ := Checks.bind_eq_ok.mp hstep
        exact ⟨record, by rw [hcontact, ← Except.ok.inj heq]⟩

end Import

end Adif

end Log73

namespace Log73

attribute [local instance] exactPlatform

def receivedField (adif : String) : ExchangeField where
  label := "Exchange"
  input := { kind := .string }
  adif := adif
  direction := .received

/-- A contest with one exchange field. -/
def exchangeRules (adif : String) : ContestRules where
  id := "STATES"
  exchange := [receivedField adif]

def stateFields : Map :=
  [("BAND", .string "20m"), ("CALL", .string "K1ABC"), ("CONTEST_ID", .string "STATES"),
    ("FREQ", .ofInt 14074000), ("MODE", .string "CW"), ("QSO_DATE_TIME_ON", .ofInt 1700000123),
    ("STATE", .string "CA"), ("STATION_CALLSIGN", .string "N0CALL")]

/-- A contact with a state and no section. -/
def storedContact : PersistedContact where
  row := { id := 1, columns := contactToSqlValues (buildContact [] stateFields) }
  stored := by
    have hsorted : stateFields.Pairwise fun a b => a.1 < b.1 := by decide
    have hcanonical : CanonicalFields stateFields := ⟨hsorted, by decide⟩
    have hstored : (storedRow 1 (buildContact [] stateFields)).isSome = true := by decide +kernel
    obtain ⟨row, hrow⟩ := Option.isSome_iff_exists.mp hstored
    refine ⟨1, _, stateFields, ?_, hcanonical, hrow.trans (congrArg some (storedRow_eq hrow))⟩
    rw [contactAdif_buildContact, hcanonical.normalizeContactAdif_eq]

namespace Adif

theorem exists_renderLog : ∃ text, renderLog remarkedLog [storedContact.contact] = .ok text := by
  have hrender : (renderLog remarkedLog [storedContact.contact]).isOk = true := by decide +kernel
  cases htext : renderLog remarkedLog [storedContact.contact] with
  | error message =>
      rw [htext] at hrender
      cases hrender
  | ok text => exact ⟨text, rfl⟩

theorem contactAdif_storedContact : contactAdif storedContact.contact =
    some (SortedAssoc.insert stateFields "WARNINGS_JSON" (.string "[]")) := by
  rfl

theorem contactAdifValue_storedContact (name : String) :
    contactAdifValue storedContact.contact name = SortedAssoc.get?
      (SortedAssoc.insert stateFields "WARNINGS_JSON" (.string "[]"))
      (normalizeAdifFieldName name) := by
  rw [contactAdifValue, contactAdif_storedContact, Option.bind_some]

theorem portable_storedContact :
    Portable remarkedLog (exchangeRules "STATE") storedContact.contact := by
  have htext {name s found : String}
      (hname : contactAdifValue storedContact.contact name = some (.string s))
      (h : contactAdifValue storedContact.contact name = some (.string found)) : found = s := by
    rw [hname] at h
    exact (Value.string.inj (Option.some.inj h)).symm
  have hnumber {name : String} {value found : Int64}
      (hname : contactAdifValue storedContact.contact name = some (.ofI64 value))
      (h : contactAdifValue storedContact.contact name = some (.ofI64 found)) :
      found.toInt = value.toInt := by
    rw [hname] at h
    have hsame := congrArg Value.asI64 (Option.some.inj h)
    rw [Value.asI64_ofI64, Value.asI64_ofI64] at hsame
    exact (Option.some.inj hsame).symm
  have hline {s : String} (h : ∀ c ∈ s.toList, 33 ≤ c.toNat ∧ c.toNat ≤ 126) (hne : s ≠ "") :
      s ≠ "" ∧ SingleLine s := ⟨hne, singleLine_of_printable h⟩
  have hvalue := contactAdifValue_storedContact
  constructor
  case start =>
    intro epoch h
    have hstart : contactAdifValue storedContact.contact "QSO_DATE_TIME_ON" =
        some (.ofI64 1700000123) := hvalue _
    rw [hnumber hstart h]
    decide
  case frequency =>
    intro hz h
    have hfrequency : contactAdifValue storedContact.contact "FREQ" = some (.ofI64 14074000) :=
      hvalue _
    rw [hnumber hfrequency h]
    decide
  case call =>
    intro call h
    rw [htext (hvalue "CALL") h]
    exact hline (by decide) (by decide)
  case band =>
    intro band h
    rw [htext (hvalue "BAND") h]
    exact hline (by decide) (by decide)
  case mode =>
    intro mode h
    rw [htext (hvalue "MODE") h]
    decide
  case station =>
    intro station h
    rw [htext (hvalue "STATION_CALLSIGN") h]
    exact .inl (by decide)
  case exchange =>
    intro field hfield
    obtain rfl := List.mem_singleton.mp hfield
    refine ⟨"CA", ?_, hline (by decide) (by decide)⟩
    rw [hvalue]
    rfl
  case own =>
    rw [contactAdif_storedContact]
    decide

theorem importContacts_renderLog_state : ∃ text imported,
    renderLog remarkedLog [storedContact.contact] = .ok text ∧
    importContacts remarkedLog (exchangeRules "STATE") text [("state", .adifField "State")] =
      .ok imported ∧
    List.Forall₂
      (fun persisted entry => Preserved (exchangeRules "STATE") persisted.contact entry.contact)
      [storedContact] imported := by
  obtain ⟨text, htext⟩ := exists_renderLog
  have hportable : ∀ persisted ∈ [storedContact],
      Portable remarkedLog (exchangeRules "STATE") persisted.contact :=
    List.forall_mem_singleton.mpr portable_storedContact
  have hordinary : OrdinaryExchange (exchangeRules "STATE") :=
    List.forall_mem_singleton.mpr (by decide)
  have hmaps : MapsOwnFields (exchangeRules "STATE") [("state", .adifField "State")] :=
    List.forall_mem_singleton.mpr ⟨"state", "State", by rfl, by decide⟩
  obtain ⟨imported, himport, hpreserved⟩ := importContacts_renderLog Frontend.exactDecimals
    (List.cons_ne_nil _ _) hportable hordinary hmaps htext
  exact ⟨text, imported, htext, himport, hpreserved⟩

/-- A contact that was committed without the exchange of its contest does not come back, whatever
its exchange is mapped to. -/
theorem not_preserved_section : ∃ text,
    contactAdifValue storedContact.contact "QSO_DATE_TIME_ON" = some (.ofInt 1700000123) ∧
    contactAdifValue storedContact.contact "BAND" = some (.string "20m") ∧
    renderLog remarkedLog [storedContact.contact] = .ok text ∧
    ∀ mappings imported,
      importContacts remarkedLog (exchangeRules "ARRL_SECT") text mappings = .ok imported →
      ¬List.Forall₂ (fun persisted entry =>
        Preserved (exchangeRules "ARRL_SECT") persisted.contact entry.contact) [storedContact]
        imported := by
  obtain ⟨text, htext⟩ := exists_renderLog
  refine ⟨text, contactAdifValue_storedContact _, contactAdifValue_storedContact _, htext, ?_⟩
  intro mappings imported himport hall
  obtain ⟨entry, hentry, hpreserved⟩ := Checks.exists_of_mem_left hall List.mem_cons_self
  obtain ⟨record, hrecord⟩ := exists_importRecord himport hentry
  have hfield : receivedField "ARRL_SECT" ∈ (exchangeRules "ARRL_SECT").exchange :=
    List.mem_cons_self
  have hmissing : contactAdifValue storedContact.contact "ARRL_SECT" = none :=
    contactAdifValue_storedContact _
  exact not_preserved_of_missing hfield hmissing hrecord hpreserved

end Adif

end Log73
