import Log73.Cabrillo.Headers

/-!
The layout of the QSO lines of an exported log: one line a contact, its tokens in the
columns the contest has for them.
-/

namespace Log73.Cabrillo

open Validation

section Words

def SingleWord (s : String) : Prop := Words.IsWord isWhitespace s.toList

theorem singleWord_of_mem_splitWhitespace {line token : String}
    (h : token ∈ splitWhitespace line) : SingleWord token := by
  obtain ⟨word, hword, rfl⟩ := List.mem_map.mp h
  rw [SingleWord, String.toList_ofList]
  exact Words.isWord_of_mem_words hword

/-- A printed number, or two with a dash between them. -/
theorem singleWord_of_digits {s : String} (hne : s ≠ "")
    (h : ∀ c ∈ s.toList, c = '-' ∨ isAsciiDigit c = true) : SingleWord s := by
  refine ⟨by simpa using hne, fun c hc => ?_⟩
  cases h c hc with
  | inl hsign =>
      rw [hsign]
      rfl
  | inr hdigit =>
      have := (isAsciiDigit_iff c).mp hdigit
      exact isWhitespace_of_printable (by omega) (by omega)

theorem singleWord_toString (value : Int) : SingleWord (toString value) := by
  apply singleWord_of_digits _ fun c hc => mem_toString_int hc
  intro hempty
  have hrepr : value.repr = "" := hempty
  rw [Int.repr_eq_if] at hrepr
  split at hrepr
  · exact Nat.toDigits_ne_nil (by rw [← Nat.toList_repr, hrepr]; rfl)
  · simp at hrepr

theorem zeroPadded_spec (width : Nat) (value : Int) :
    zeroPadded width value ≠ ""
      ∧ ∀ c ∈ (zeroPadded width value).toList, c = '-' ∨ isAsciiDigit c = true := by
  have hdigits (width : Nat) :
      ∀ c ∈ (String.ofList (List.replicate width '0') ++ value.natAbs.repr).toList,
        isAsciiDigit c = true := by
    intro c hc
    rw [String.toList_append, String.toList_ofList, List.mem_append] at hc
    cases hc with
    | inl hzero =>
        rw [List.eq_of_mem_replicate hzero]
        rfl
    | inr hmem =>
        rw [Nat.toList_repr] at hmem
        exact isAsciiDigit_of_mem_toDigits hmem
  rw [zeroPadded]
  dsimp only
  split
  · refine ⟨by simp, fun c hc => ?_⟩
    rw [String.toList_append, List.mem_append] at hc
    cases hc with
    | inl hsign => exact Or.inl (by simpa using hsign)
    | inr hmem => exact Or.inr (hdigits _ c hmem)
  · exact ⟨by simp, fun c hc => Or.inr (hdigits _ c hc)⟩

theorem singleWord_datetime {epoch : Int} {date time : String}
    (h : qsoDatetimeCabrillo epoch = .ok (date, time)) : SingleWord date ∧ SingleWord time := by
  obtain ⟨t, -, h⟩ := Checks.bind_eq_ok.mp h
  cases h
  have hpadded (width : Nat) (value : Int) := zeroPadded_spec width value
  refine ⟨singleWord_of_digits ?_ fun c hc => ?_, singleWord_of_digits ?_ fun c hc => ?_⟩
  · simp
  · simp only [String.toList_append, List.mem_append] at hc
    obtain (((hc | hc) | hc) | hc) | hc := hc
    · exact (hpadded _ _).2 c hc
    · exact Or.inl (by simpa using hc)
    · exact (hpadded _ _).2 c hc
    · exact Or.inl (by simpa using hc)
    · exact (hpadded _ _).2 c hc
  · simp [(hpadded _ _).1]
  · rw [String.toList_append, List.mem_append] at hc
    exact hc.elim ((hpadded _ _).2 c) ((hpadded _ _).2 c)

/-- A line of single words is read back as these words, whatever its line ending is. -/
theorem splitWhitespace_joinWith {parts : List String} (h : ∀ part ∈ parts, SingleWord part) :
    splitWhitespace (joinWith " " parts ++ "\r") = parts := by
  have htext : (joinWith " " parts ++ "\r").toList =
      [' '].intercalate (parts.map String.toList) ++ ['\r'] := by
    rw [String.toList_append, joinWith, String.toList_intercalate]
    rfl
  rw [splitWhitespace, htext,
    Words.words_intercalate (by decide) (List.forall_mem_map.mpr h) _ (by decide), List.map_map]
  have hid : String.ofList ∘ String.toList = id := funext fun s => String.ofList_toList
  rw [hid, List.map_id]

end Words

variable [Platform]

section Columns

variable {rules : ContestRules} {log : Log} {bands : List Band} {contact : Contact}

/-- What the columns of a contact are read from. -/
structure ReadColumns (rules : ContestRules) (log : Log) (bands : List Band) (contact : Contact)
    (columns : QsoColumns) : Prop where
  frequency : qsoFrequencyToken contact bands = .ok columns.frequency
  mode : qsoModeToken contact = some columns.mode
  datetime : ∃ epoch, qsoDatetimeCabrillo epoch = .ok (columns.date, columns.time)
  station : columns.stationCallsign = stationToken log contact
  callsign : tokenString (contactAdifValue contact "CALL") = some columns.theirCallsign
  sent : List.Forall₂ (fun field token => exchangeToken log contact field = .ok token)
    (appliedFields rules contact .sent) columns.sentFields
  received : List.Forall₂ (fun field token => exchangeToken log contact field = .ok token)
    (appliedFields rules contact .received) columns.receivedFields
  transmitter : columns.transmitterId.isSome = usesTransmitterId rules log
  transmitterId : ∀ token ∈ columns.transmitterId, ∃ number : Int, token = toString number

theorem qsoColumns_spec {columns : QsoColumns}
    (h : qsoColumns rules log contact bands = .ok columns) :
    ReadColumns rules log bands contact columns := by
  obtain ⟨frequency, hfrequency, h⟩ := Checks.bind_eq_ok.mp h
  obtain ⟨mode, hmode, h⟩ := Checks.bind_eq_ok.mp h
  obtain ⟨epoch, hepoch, h⟩ := Checks.bind_eq_ok.mp h
  obtain ⟨⟨date, time⟩, hdatetime, h⟩ := Checks.bind_eq_ok.mp h
  obtain ⟨callsign, hcallsign, h⟩ := Checks.bind_eq_ok.mp h
  obtain ⟨sent, hsent, h⟩ := Checks.bind_eq_ok.mp h
  obtain ⟨received, hreceived, h⟩ := Checks.bind_eq_ok.mp h
  cases h
  exact {
    frequency := hfrequency
    mode := required_eq_ok.mp hmode
    datetime := ⟨epoch, hdatetime⟩
    station := rfl
    callsign := required_eq_ok.mp hcallsign
    sent := Checks.mapM_eq_ok.mp hsent
    received := Checks.mapM_eq_ok.mp hreceived
    transmitter := by
      dsimp only
      split
      · next huses => rw [huses]; rfl
      · next huses => rw [Bool.eq_false_iff.mpr huses]; rfl
    transmitterId := by
      dsimp only
      intro token htoken
      split at htoken
      · exact ⟨_, (Option.some.inj htoken).symm⟩
      · cases htoken }

theorem singleWord_mode {token : String} (h : qsoModeToken contact = some token) :
    SingleWord token := by
  have hword (s : String) (h : s.toList ≠ [] ∧ ∀ c ∈ s.toList, isWhitespace c = false) :
      SingleWord s := h
  obtain ⟨mode, -, rfl⟩ := Option.map_eq_some_iff.mp h
  rw [cabrilloModeToken]
  split
  · exact hword "CW" (by decide)
  · split
    · exact hword "PH" (by decide)
    · split
      · exact hword "RY" (by decide)
      · exact hword "DG" (by decide)

omit [Platform] in
theorem singleWord_callsignText {s : String} (h : CallsignText s) (hne : s ≠ "") : SingleWord s :=
  ⟨by simpa using hne, fun c hc => isWhitespace_callsignChar (h c hc)⟩

/-- A contact that passed validation has its own station callsign. -/
theorem singleWord_station (hfloats : TrimmedFloats)
    (h : validateCallsign "station callsign"
      (Validation.trimmedField contact "STATION_CALLSIGN") false
      = .ok ()) : SingleWord (stationToken log contact) := by
  rw [stationToken]
  cases htoken : (contactString (contactAdifValue contact "STATION_CALLSIGN")).map toUppercase with
  | none =>
      have hmissing := Option.map_eq_none_iff.mp htoken
      have hfield : Validation.trimmedField contact "STATION_CALLSIGN" = "" := by
        rw [Validation.trimmedField,
          show jsonTrimmedString (contactAdifValue contact "STATION_CALLSIGN") = none from hmissing]
        rfl
      rw [hfield] at h
      exact absurd rfl (validateCallsign_spec h).1
  | some token =>
      have hspec := tokenString_callsign hfloats htoken h
      exact singleWord_callsignText hspec.1 hspec.2

theorem singleWord_frequency {token : String} (h : qsoFrequencyToken contact bands = .ok token) :
    SingleWord token ↔ ∀ name band, tokenString (contactAdifValue contact "BAND") = some name →
      bandByName bands name = some band → SingleWord band.cabrillo := by
  obtain ⟨frequencyHz, -, h⟩ := Checks.bind_eq_ok.mp h
  obtain ⟨name, hname, h⟩ := Checks.bind_eq_ok.mp h
  obtain ⟨band, hband, h⟩ := Checks.bind_eq_ok.mp h
  rw [required_eq_ok] at hname hband
  have hspec : (∀ name band, tokenString (contactAdifValue contact "BAND") = some name →
      bandByName bands name = some band → SingleWord band.cabrillo) ↔ SingleWord band.cabrillo := by
    constructor
    · intro hall
      exact hall name band hname hband
    · intro hword name' band' hname' hband'
      rw [hname] at hname'
      cases hname'
      rw [hband] at hband'
      cases hband'
      exact hword
  rw [hspec]
  cases h
  split
  · next hkhz =>
      rw [hkhz]
      exact iff_of_true (singleWord_toString _)
        (show "khz".toList ≠ [] ∧ ∀ c ∈ "khz".toList, isWhitespace c = false by decide)
  · exact Iff.rfl

/-- The text a field of the exchange is filled from. -/
def exchangeText (log : Log) (contact : Contact) (field : ExchangeField) : Option String :=
  (contactString (contactAdifValue contact field.adif)).or <|
    (field.source.bind fun sourceParam =>
      log.contestParams.asObject.bind fun params =>
        (SortedAssoc.get? params sourceParam).bind fun value => contactString (some value)).or <|
    field.default.bind fun value => contactString (some value)

theorem exchangeToken_eq_ok {field : ExchangeField} {token : String} :
    exchangeToken log contact field = .ok token ↔
      ∃ text, exchangeText log contact field = some text ∧ toUppercase text = token := by
  rw [exchangeToken, required_eq_ok, exchangeText, ← Option.map_eq_some_iff, Option.map_or,
    Option.map_or]
  simp only [tokenString, Option.map_bind, Function.comp_def]

/-- Values of a contact that take one token each: those of the exchange, and the name
Cabrillo has for its band. -/
structure SingleWordValues (rules : ContestRules) (log : Log) (bands : List Band)
    (contact : Contact) : Prop where
  exchange : ∀ field ∈ rules.exchange, exchangeFieldApplies field contact = true →
    ∀ text, exchangeText log contact field = some text → SingleWord (toUppercase text)
  band : ∀ name band, tokenString (contactAdifValue contact "BAND") = some name →
    bandByName bands name = some band → SingleWord band.cabrillo

theorem mem_appliedFields {direction : ExchangeDirection} {field : ExchangeField} :
    field ∈ appliedFields rules contact direction ↔
      field ∈ rules.exchange ∧ field.direction = direction
        ∧ exchangeFieldApplies field contact = true := by
  rw [appliedFields, List.mem_filter, Bool.and_eq_true, decide_eq_true_eq]

theorem singleWord_tokens {direction : ExchangeDirection} {tokens : List String}
    (h : List.Forall₂ (fun field token => exchangeToken log contact field = .ok token)
      (appliedFields rules contact direction) tokens) :
    (∀ token ∈ tokens, SingleWord token) ↔ ∀ field ∈ appliedFields rules contact direction,
      ∀ token, exchangeToken log contact field = .ok token → SingleWord token := by
  constructor
  · intro hwords field hfield token htoken
    obtain ⟨token', hmem, htoken'⟩ := Checks.exists_of_mem_left h hfield
    rw [htoken'] at htoken
    cases htoken
    exact hwords token hmem
  · intro hwords token hmem
    obtain ⟨field, hfield, htoken⟩ := Checks.exists_of_mem_right h hmem
    exact hwords field hfield token htoken

omit [Platform] in
theorem forall_mem_parts {columns : QsoColumns} {p : String → Prop} :
    (∀ part ∈ columns.parts, p part) ↔
      (p "QSO:" ∧ p columns.frequency ∧ p columns.mode ∧ p columns.date ∧ p columns.time
          ∧ p columns.stationCallsign)
        ∧ (∀ token ∈ columns.sentFields, p token) ∧ p columns.theirCallsign
        ∧ (∀ token ∈ columns.receivedFields, p token)
        ∧ ∀ token ∈ columns.transmitterId, p token := by
  rw [QsoColumns.parts, List.forall_mem_append, List.forall_mem_append, List.forall_mem_append,
    List.forall_mem_append]
  simp only [List.forall_mem_cons, Option.mem_toList, Option.mem_def, List.not_mem_nil,
    false_imp_iff,
    implies_true, and_true, and_assoc]

/-- All other columns of an accepted contact are single words by themselves. -/
theorem singleWord_parts [RegexEngine] (hfloats : TrimmedFloats) {logId : Int} {mode : String}
    {columns : QsoColumns} (haccepted : Accepted rules bands logId contact mode)
    (h : ReadColumns rules log bands contact columns) :
    (∀ part ∈ columns.parts, SingleWord part) ↔ SingleWordValues rules log bands contact := by
  rw [forall_mem_parts, singleWord_tokens h.sent, singleWord_tokens h.received,
    singleWord_frequency h.frequency]
  constructor
  · intro hwords
    refine ⟨fun field hfield happlies text htext => ?_, hwords.1.2.1⟩
    have htoken := exchangeToken_eq_ok.mpr ⟨text, htext, rfl⟩
    cases hdirection : field.direction with
    | sent =>
        have hmem := mem_appliedFields.mpr ⟨hfield, hdirection, happlies⟩
        exact hwords.2.1 field hmem _ htoken
    | received =>
        have hmem := mem_appliedFields.mpr ⟨hfield, hdirection, happlies⟩
        exact hwords.2.2.2.1 field hmem _ htoken
  · intro hvalues
    obtain ⟨epoch, hdatetime⟩ := h.datetime
    have hdate := singleWord_datetime hdatetime
    have hcallsign := tokenString_callsign hfloats h.callsign haccepted.callsign
    have hexchange (direction : ExchangeDirection) :
        ∀ field ∈ appliedFields rules contact direction,
          ∀ token, exchangeToken log contact field = .ok token → SingleWord token := by
      intro field hfield token htoken
      have hmem := mem_appliedFields.mp hfield
      obtain ⟨text, htext, rfl⟩ := exchangeToken_eq_ok.mp htoken
      exact hvalues.exchange field hmem.1 hmem.2.2 text htext
    refine ⟨⟨?_, hvalues.band, singleWord_mode h.mode, hdate.1, hdate.2, ?_⟩, hexchange .sent,
      singleWord_callsignText hcallsign.1 hcallsign.2, hexchange .received, ?_⟩
    · exact show "QSO:".toList ≠ [] ∧ ∀ c ∈ "QSO:".toList, isWhitespace c = false by decide
    · rw [h.station]
      exact singleWord_station hfloats haccepted.station
    · intro token htoken
      obtain ⟨number, rfl⟩ := h.transmitterId token htoken
      exact singleWord_toString number

end Columns

section Log

variable (rules : ContestRules) (log : Log) (bands : List Band)

/-- A line that is read back as the columns of a contact: a token for each field of the
exchange that applies, in its place. -/
def HasLayout (contact : Contact) (line : String) : Prop :=
  ∃ columns, qsoColumns rules log contact bands = .ok columns
    ∧ List.Forall₂ (fun field token => exchangeToken log contact field = .ok token)
        (appliedFields rules contact .sent) columns.sentFields
    ∧ List.Forall₂ (fun field token => exchangeToken log contact field = .ok token)
        (appliedFields rules contact .received) columns.receivedFields
    ∧ columns.transmitterId.isSome = usesTransmitterId rules log
    ∧ splitWhitespace line = columns.parts

/-- One QSO line a contact, in the order of the contacts. -/
def LaidOut (contacts : List Contact) (text : String) : Prop :=
  List.Forall₂ (HasLayout rules log bands) contacts (qsoLines text)

variable {rules log bands}

omit [Platform] in
/-- A line of single words is one line, and read as a contact. -/
theorem qsoLines_parts {columns : QsoColumns} (h : ∀ part ∈ columns.parts, SingleWord part) :
    qsoLines (joinWith " " columns.parts ++ "\r") = [joinWith " " columns.parts ++ "\r"] := by
  have hfeed : '\n' ∉ (joinWith " " columns.parts ++ "\r").toList := by
    rw [String.toList_append, List.mem_append, mem_joinWith (by decide)]
    intro hmem
    cases hmem with
    | inl hmem =>
        obtain ⟨part, hpart, hin⟩ := hmem
        exact absurd ((h part hpart).2 _ hin) (by decide)
    | inr hmem => exact absurd hmem (by decide)
  have hopens : isQsoLine (joinWith " " columns.parts ++ "\r").toList = true := by
    have hparts : columns.parts = "QSO:" :: columns.frequency :: columns.parts.drop 2 := rfl
    rw [hparts, joinWith, String.intercalate_cons_cons]
    simp [isQsoLine, String.toList_append, List.isPrefixOf]
  rw [qsoLines, splitOn_of_not_mem hfeed, List.filter_cons, hopens, if_pos rfl]
  simp

omit [Platform] in
theorem paramsObject_eq_ok {params : Value} {error : String} {values : Map}
    (h : paramsObject params error = .ok values) : params.asObject.getD [] = values := by
  cases params with
  | object entries =>
      cases h
      rfl
  | null =>
      cases h
      rfl
  | bool _ | number _ | string _ | array _ => cases h

theorem columns_of_rendered {contacts : List Contact} {qsos : List String}
    (h : List.Forall₂ (fun contact line => renderQsoLine rules log contact bands = .ok line)
      contacts qsos) :
    ∃ columns : List QsoColumns,
      List.Forall₂ (fun contact columns => qsoColumns rules log contact bands = .ok columns)
        contacts columns
      ∧ qsos = columns.map fun columns => joinWith " " columns.parts := by
  induction h with
  | nil => exact ⟨[], List.Forall₂.nil, rfl⟩
  | cons hcontact _ ih =>
      obtain ⟨columns, hcolumns, rfl⟩ := Checks.map_eq_ok.mp hcontact
      obtain ⟨rest, hrest, rfl⟩ := ih
      exact ⟨columns :: rest, List.Forall₂.cons hcolumns hrest, rfl⟩

theorem renderLog_eq_ok {contacts : List Contact} {exportParams : Value} {claimedScore : Int64}
    {text : String} (h : renderLog rules log contacts exportParams claimedScore bands = .ok text) :
    ∃ header columns, headerLines rules (rules.cabrillo.getD {}) log contacts
        (exportParams.asObject.getD []) (log.contestParams.asObject.getD []) claimedScore
          = .ok header
      ∧ List.Forall₂ (fun contact columns => qsoColumns rules log contact bands = .ok columns)
          contacts columns
      ∧ qsoLines text = (header.flatMap fun line => qsoLines (line ++ "\r"))
          ++ columns.flatMap fun columns => qsoLines (joinWith " " columns.parts ++ "\r") := by
  obtain ⟨cabrillo, hcabrillo, h⟩ := Checks.bind_eq_ok.mp h
  obtain ⟨exportValues, hexport, h⟩ := Checks.bind_eq_ok.mp h
  obtain ⟨logValues, hlog, h⟩ := Checks.bind_eq_ok.mp h
  obtain ⟨header, hheader, h⟩ := Checks.bind_eq_ok.mp h
  obtain ⟨qsos, hqsos, h⟩ := Checks.bind_eq_ok.mp h
  cases h
  rw [required_eq_ok] at hcabrillo
  rw [paramsObject_eq_ok hexport, paramsObject_eq_ok hlog, hcabrillo, Option.getD_some]
  obtain ⟨columns, hcolumns, rfl⟩ := columns_of_rendered (Checks.mapM_eq_ok.mp hqsos)
  refine ⟨header, columns, hheader, hcolumns, ?_⟩
  have hend : qsoLines ("END-OF-LOG:" ++ "\r") = [] := by decide
  rw [qsoLines_joinWith _ (by simp), List.flatMap_append, List.flatMap_append, List.flatMap_map,
    List.flatMap_cons, List.flatMap_nil, hend, List.append_nil, List.append_nil]

variable [RegexEngine]

omit [RegexEngine] in
/-- The lines of single-word columns are the contacts, in their order. -/
theorem laidOut_columns {contacts : List Contact} {columns : List QsoColumns}
    (h : List.Forall₂ (fun contact columns => qsoColumns rules log contact bands = .ok columns)
      contacts columns) (hwords : ∀ entry ∈ columns, ∀ part ∈ entry.parts, SingleWord part) :
    List.Forall₂ (HasLayout rules log bands) contacts
      (columns.flatMap fun columns => qsoLines (joinWith " " columns.parts ++ "\r")) := by
  induction h with
  | nil => exact List.Forall₂.nil
  | cons hcontact _ ih =>
      rw [List.forall_mem_cons] at hwords
      have hspec := qsoColumns_spec hcontact
      rw [List.flatMap_cons, qsoLines_parts hwords.1, List.singleton_append]
      exact List.Forall₂.cons ⟨_, hcontact, hspec.sent, hspec.received, hspec.transmitter,
        splitWhitespace_joinWith hwords.1⟩ (ih hwords.2)

/-- A rendered log of accepted contacts is laid out as its contest asks for exactly when
every value that goes into a column is a single word, and no header reads as a contact. -/
theorem laidOut_iff (hfloats : TrimmedFloats) {contacts : List Contact} {exportParams : Value}
    {claimedScore : Int64} {text : String} (hstation : ValidatedStation log)
    (haccepted : ∀ contact ∈ contacts, validateContact rules bands log.id.toInt contact = .ok ())
    (h : renderLog rules log contacts exportParams claimedScore bands = .ok text) :
    LaidOut rules log bands contacts text ↔
      (∀ contact ∈ contacts, SingleWordValues rules log bands contact)
        ∧ PlainTags (writtenTags rules (rules.cabrillo.getD {}) (exportParams.asObject.getD [])
            (log.contestParams.asObject.getD [])) := by
  obtain ⟨header, columns, hheader, hcolumns, hlines⟩ := renderLog_eq_ok h
  have hparts : (∀ entry ∈ columns, ∀ part ∈ entry.parts, SingleWord part) ↔
      ∀ contact ∈ contacts, SingleWordValues rules log bands contact := by
    clear hheader hlines h
    induction hcolumns with
    | nil => exact iff_of_true (fun _ hmem => by cases hmem) fun _ hmem => by cases hmem
    | cons hcontact _ ih =>
        rw [List.forall_mem_cons] at haccepted
        obtain ⟨mode, hmode⟩ := validateContact_eq_ok.mp haccepted.1
        rw [List.forall_mem_cons, List.forall_mem_cons, ih haccepted.2,
          singleWord_parts hfloats hmode (qsoColumns_spec hcontact)]
  rw [← plainLine_headerLines hfloats hstation haccepted hheader, ← hparts, LaidOut, hlines]
  constructor
  · intro hlaid
    have hwords : ∀ entry ∈ columns, ∀ part ∈ entry.parts, SingleWord part := by
      intro entry hentry part hpart
      obtain ⟨contact, hcontact, hentry⟩ := Checks.exists_of_mem_right hcolumns hentry
      obtain ⟨line, -, entry', hentry', -, -, -, hsplit⟩ :=
        Checks.exists_of_mem_left hlaid hcontact
      rw [hentry] at hentry'
      cases hentry'
      rw [← hsplit] at hpart
      exact singleWord_of_mem_splitWhitespace hpart
    refine ⟨hwords, ?_⟩
    -- The contacts account for all the lines, so that none is left to the header.
    have hlength := hlaid.length_eq.symm.trans (laidOut_columns hcolumns hwords).length_eq
    rw [List.length_append, Nat.add_eq_right, List.length_eq_zero_iff,
      List.flatMap_eq_nil_iff] at hlength
    exact hlength
  · intro hplain
    have hnone := List.flatMap_eq_nil_iff.mpr hplain.2
    rw [hnone, List.nil_append]
    exact laidOut_columns hcolumns hplain.1

end Log

end Log73.Cabrillo

namespace Log73

attribute [local instance] asciiPlatform matchAll

namespace Cabrillo

open Validation

def nameField : ExchangeField where
  label := "Name"
  input := { kind := .string, maxLength := some 20 }
  adif := "NAME"
  direction := .received

def partyRules : ContestRules where
  id := "QSO-PARTY"
  exchange := [nameField]
  cabrillo := some {}

def partyBand : Band where
  iaruRegion := 2
  name := "20m"
  lowerHz := 14000000
  upperHz := 14350000
  defaultSsbMode := "USB"
  sortOrder := 1
  cabrillo := "khz"

def partyBands := [partyBand]

def partyLog : Log where
  id := 1
  name := "Party"
  contestId := "QSO-PARTY"
  stationCallsign := "W1AW"
  contestParams := .null

def partyContact (name : String) : Contact :=
  buildContact [] [("BAND", .string "20m"), ("CALL", .string "K5ZD"),
    ("CONTEST_ID", .string "QSO-PARTY"), ("FREQ", .ofInt 14025000), ("MODE", .string "CW"),
    ("NAME", .string name), ("QSO_DATE_TIME_ON", .ofInt 1700000000),
    ("STATION_CALLSIGN", .string "W1AW")]

/-- A name may hold a line end: it passes validation, and its second line is read as a
contact. -/
theorem party_line_injected :
    validateContact partyRules partyBands 1 (partyContact "ED\nQSO: X") = .ok ()
      ∧ ValidatedStation partyLog
      ∧ ∃ text, renderLog partyRules partyLog [partyContact "ED\nQSO: X"] .null 0 partyBands =
          .ok text
        ∧ ¬ LaidOut partyRules partyLog partyBands [partyContact "ED\nQSO: X"] text := by
  refine ⟨by decide +kernel, ⟨"W1AW", by decide +kernel, by decide +kernel⟩,
    "START-OF-LOG: 3.0\r\nCREATED-BY: Log73\r\nCALLSIGN: W1AW\r\nCONTEST: QSO-PARTY\r\n"
      ++ "CLAIMED-SCORE: 0\r\nOPERATORS: W1AW\r\n"
      ++ "QSO: 14025 CW 2023-11-14 2213 W1AW K5ZD ED\nQSO: X\r\nEND-OF-LOG:\r\n",
    by decide +kernel, ?_⟩
  intro hlaid
  exact absurd hlaid.length_eq (by decide +kernel)

def partyText : String :=
  "START-OF-LOG: 3.0\r\nCREATED-BY: Log73\r\nCALLSIGN: W1AW\r\nCONTEST: QSO-PARTY\r\n"
    ++ "CLAIMED-SCORE: 0\r\nOPERATORS: W1AW\r\n"
    ++ "QSO: 14025 CW 2023-11-14 2213 W1AW K5ZD ED\r\nEND-OF-LOG:\r\n"

theorem laidOut_iff_party :
    LaidOut partyRules partyLog partyBands [partyContact "ED"] partyText ↔
      (∀ contact ∈ [partyContact "ED"], SingleWordValues partyRules partyLog partyBands contact)
        ∧ PlainTags (writtenTags partyRules (partyRules.cabrillo.getD {})
            (Value.null.asObject.getD []) (partyLog.contestParams.asObject.getD [])) := by
  have hfloats : TrimmedFloats := fun _ => rfl
  have hstation : ValidatedStation partyLog := ⟨"W1AW", by decide +kernel, by decide +kernel⟩
  have haccepted : ∀ contact ∈ [partyContact "ED"],
      validateContact partyRules partyBands partyLog.id.toInt contact = .ok () :=
    List.forall_mem_singleton.mpr (by decide +kernel)
  have hrender : renderLog partyRules partyLog [partyContact "ED"] .null 0 partyBands =
      .ok partyText := by
    decide +kernel
  exact laidOut_iff hfloats hstation haccepted hrender

end Cabrillo

end Log73
