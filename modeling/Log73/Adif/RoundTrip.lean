import Mathlib.Data.String.Basic
import Log73.Adif.Parse

/-!
What the ADIF writer writes, the ADIF reader reads back: one step of the scan for each
piece of the text, then the fields of a record, then the records of a log.
-/

namespace Log73

open SortedAssoc

theorem asBytes_append (a b : String) : asBytes (a ++ b) = asBytes a ++ asBytes b := by
  rw [asBytes, String.toList_append, Utf8.encode_append]
  rfl

theorem fromUtf8_asBytes (s : String) : fromUtf8 (asBytes s) = some s := by
  rw [fromUtf8, asBytes, Utf8.decode?_encode, Option.map_some, String.ofList_toList]

namespace Adif

/-- The characters an export field name is made of. -/
def isNameChar (c : Char) : Bool := isAsciiUppercase c || isAsciiDigit c || c == '_'

theorem isNameChar_fieldNameChar (c : Char) : isNameChar (fieldNameChar c) = true := by
  rw [fieldNameChar]
  split
  · next hlower =>
      have hcode : 97 ≤ c.toNat ∧ c.toNat ≤ 122 := by
        simpa [isAsciiLowercase, Char.le_def, UInt32.le_iff_toNat_le] using hlower
      have hupper : isAsciiUppercase c.toUpper = true := by
        have hnat := toNat_toUpper c
        rw [if_pos hcode] at hnat
        have hval : c.toUpper.val.toNat = c.toNat - 32 := hnat
        simp only [isAsciiUppercase, Char.le_def, UInt32.le_iff_toNat_le, hval, Bool.and_eq_true,
          decide_eq_true_eq]
        exact ⟨show 65 ≤ _ by omega, show _ ≤ 90 by omega⟩
      rw [isNameChar, hupper]
      rfl
  · split
    · next hname => exact hname
    · rfl

theorem toNat_of_isNameChar {c : Char} (h : isNameChar c = true) :
    48 ≤ c.toNat ∧ c.toNat ≤ 57 ∨ 65 ≤ c.toNat ∧ c.toNat ≤ 90 ∨ c.toNat = 95 := by
  simp only [isNameChar, isAsciiUppercase, isAsciiDigit, Bool.or_eq_true, Bool.and_eq_true,
    decide_eq_true_eq, Char.le_def, UInt32.le_iff_toNat_le, beq_iff_eq] at h
  cases h with
  | inl h =>
      cases h with
      | inl h => exact .inr (.inl h)
      | inr h => exact .inl h
  | inr h => exact .inr (.inr (congrArg Char.toNat h))

theorem isWhitespace_of_toNat {c : Char} (h : 33 ≤ c.toNat ∧ c.toNat < 128) :
    isWhitespace c = false := by
  simp only [isWhitespace, Bool.or_eq_false_iff, Bool.and_eq_false_iff, decide_eq_false_iff_not]
  omega

theorem fieldNameChar_eq_self {c : Char} (h : isNameChar c = true) : fieldNameChar c = c := by
  have hcode := toNat_of_isNameChar h
  have hlower : isAsciiLowercase c = false := by
    have : ¬ (97 ≤ c.val.toNat ∧ c.val.toNat ≤ 122) := by
      change ¬ (97 ≤ c.toNat ∧ c.toNat ≤ 122)
      omega
    simpa [isAsciiLowercase, Char.le_def, UInt32.le_iff_toNat_le] using this
  rw [fieldNameChar, if_neg (by simp [hlower]), if_pos]
  exact h

/-- A name as the writer produces it. -/
structure CanonicalName (name : String) : Prop where
  nonempty : name ≠ ""
  chars : ∀ c ∈ name.toList, isNameChar c = true

theorem normalizeFieldName_chars (name : String) :
    ∀ c ∈ (normalizeFieldName name).toList, isNameChar c = true := by
  intro c hmem
  rw [normalizeFieldName, String.toList_ofList] at hmem
  obtain ⟨d, -, rfl⟩ := List.mem_map.mp hmem
  exact isNameChar_fieldNameChar d

theorem normalizeFieldName_eq_self {name : String}
    (h : ∀ c ∈ name.toList, isNameChar c = true) : normalizeFieldName name = name := by
  have htrim : trimChars name.toList = name.toList := trimChars_eq_self fun c hmem => by
    have := toNat_of_isNameChar (h c hmem)
    exact isWhitespace_of_toNat (by omega)
  have hmap : name.toList.map fieldNameChar = name.toList :=
    (List.map_congr_left fun c hmem => fieldNameChar_eq_self (h c hmem)).trans (List.map_id _)
  rw [normalizeFieldName, htrim, hmap, String.ofList_toList]

/-- A tag ends where its text ends. -/
theorem splitTag_asBytes {tag : String} (h : '>' ∉ tag.toList) (rest : List UInt8) :
    splitTag (asBytes tag ++ greaterThan :: rest) = some (asBytes tag, rest) := by
  have hbytes : ∀ byte ∈ asBytes tag, (byte != greaterThan) = true := by
    intro byte hmem
    rw [bne_iff_ne]
    intro heq
    obtain ⟨c, hc, hcode⟩ := Utf8.exists_of_mem_encode hmem (by rw [heq]; decide)
    rw [heq] at hcode
    have hchar : c = '>' := Char.toNat_inj.mp hcode
    exact h (hchar ▸ hc)
  rw [splitTag, List.dropWhile_append_of_pos hbytes, List.takeWhile_append_of_pos hbytes]
  simp [greaterThan]

section Tag

variable {name : String} (hname : CanonicalName name) (length : Nat)

/-- The text between the brackets of a field. -/
def tagText (name : String) (length : Nat) : String := name ++ ":" ++ length.repr

include hname

theorem toNat_of_mem_tagText {c : Char} (h : c ∈ (tagText name length).toList) :
    33 ≤ c.toNat ∧ c.toNat < 128 ∧ c ≠ '>' := by
  simp only [tagText, String.toList_append, List.mem_append, Nat.toList_repr] at h
  have hne : c.toNat ≠ 62 → c ≠ '>' := fun h heq => h (congrArg Char.toNat heq)
  obtain (h | h) | h := h
  · have := toNat_of_isNameChar (hname.chars c h)
    exact ⟨by omega, by omega, hne (by omega)⟩
  · obtain rfl : c = ':' := List.mem_singleton.mp h
    decide
  · have hdigit := isAsciiDigit_of_mem_toDigits h
    simp only [isAsciiDigit, Bool.and_eq_true, decide_eq_true_eq, Char.le_def,
      UInt32.le_iff_toNat_le] at hdigit
    have hcode : 48 ≤ c.toNat ∧ c.toNat ≤ 57 := hdigit
    exact ⟨by omega, by omega, hne (by omega)⟩

theorem splitTag_tagText (rest : List UInt8) :
    splitTag (asBytes (tagText name length) ++ greaterThan :: rest) =
      some (asBytes (tagText name length), rest) :=
  splitTag_asBytes (fun hmem => (toNat_of_mem_tagText hname length hmem).2.2 rfl) rest

theorem trim_tagText : trim (tagText name length) = tagText name length := by
  rw [trim, trimChars_eq_self, String.ofList_toList]
  intro c hmem
  have := toNat_of_mem_tagText hname length hmem
  exact isWhitespace_of_toNat ⟨this.1, this.2.1⟩

theorem tagText_ne_marker {marker : String} (h : ':' ∉ marker.toList) :
    toAsciiUppercase (trim (tagText name length)) ≠ marker := by
  rw [trim_tagText hname]
  intro heq
  apply h
  rw [← heq, toAsciiUppercase, String.toList_ofList]
  refine List.mem_map.mpr ⟨':', ?_, rfl⟩
  simp [tagText]

theorem parseTag_tagText (hlength : length ≤ 18446744073709551615) :
    parseTag (tagText name length) = some (name, length) := by
  have hcolon : ':' ∉ name.toList := fun hmem => by
    have := toNat_of_isNameChar (hname.chars _ hmem)
    revert this
    decide
  have hdigits : ':' ∉ length.repr.toList := fun hmem => by
    rw [Nat.toList_repr] at hmem
    exact absurd (isAsciiDigit_of_mem_toDigits hmem) (by decide)
  have hsplit : splitOnChar ':' (tagText name length).toList =
      [name.toList, length.repr.toList] := by
    have hlist : (tagText name length).toList = name.toList ++ ':' :: length.repr.toList := by
      simp [tagText]
    rw [hlist, splitOnChar_append hcolon, splitOnChar_eq_singleton hdigits]
  have htrim : trim length.repr = length.repr := by
    rw [trim, trimChars_eq_self, String.ofList_toList]
    intro c hmem
    have hmem' : c ∈ (tagText name length).toList := by
      rw [tagText, String.toList_append]
      exact List.mem_append_right _ hmem
    have := toNat_of_mem_tagText hname length hmem'
    exact isWhitespace_of_toNat ⟨this.1, this.2.1⟩
  rw [parseTag, hsplit]
  simp only [String.ofList_toList, htrim, parseUsize_repr length hlength, Option.map_some,
    normalizeFieldName_eq_self hname.chars]

end Tag

/-- The scan passes a piece of the text, whatever comes behind it. -/
def Reads (bytes : List UInt8) (r r' : Reader) : Prop :=
  ∀ rest, parseFrom (bytes ++ rest) r = parseFrom rest r'

theorem Reads.trans {as bs : List UInt8} {r r' r'' : Reader} (h : Reads as r r')
    (h' : Reads bs r' r'') : Reads (as ++ bs) r r'' := by
  intro rest
  rw [List.append_assoc, h, h']

theorem Reads.nil (r : Reader) : Reads [] r r := fun _ => rfl

theorem Reads.append {a b : String} {r r' r'' : Reader} (h : Reads (asBytes a) r r')
    (h' : Reads (asBytes b) r' r'') : Reads (asBytes (a ++ b)) r r'' := by
  rw [asBytes_append]
  exact h.trans h'

/-- Text outside the tags is passed over. -/
theorem reads_text {bytes : List UInt8} (h : lessThan ∉ bytes) (r : Reader) :
    ∃ line, Reads bytes r { r with line } := by
  induction bytes generalizing r with
  | nil => exact ⟨r.line, Reads.nil r⟩
  | cons byte bytes ih =>
      rw [List.mem_cons, not_or] at h
      obtain ⟨line, hline⟩ := ih h.2 (r.passed [byte])
      refine ⟨line, fun rest => ?_⟩
      rw [List.cons_append, parseFrom, if_pos (Ne.symm h.1), hline]
      rfl

/-- The value of a field as the reader keeps it. -/
def readBack (value : String) : String := trim (flattenLines value)

theorem asBytes_tag (tag : String) (rest : List UInt8) :
    asBytes ("<" ++ tag ++ ">") ++ rest = lessThan :: (asBytes tag ++ greaterThan :: rest) := by
  rw [asBytes_append, asBytes_append, List.append_assoc, List.append_assoc]
  rfl

theorem reads_serializeField {name : String} (hname : CanonicalName name) (value : String)
    (hlength : (asBytes (flattenLines value)).length ≤ isizeMax) (r : Reader) :
    ∃ line, Reads (asBytes (serializeField name value)) r
      ({ r with line }.field r.line name (readBack value)) := by
  generalize hflat : flattenLines value = flat at hlength
  have htext : serializeField name value =
      "<" ++ tagText name (asBytes flat).length ++ ">" ++ flat := by
    rw [serializeField, hflat, normalizeFieldName_eq_self hname.chars, tagText]
    simp only [String.append_assoc]
  refine ⟨((r.passed (asBytes (tagText name (asBytes flat).length))).passed (asBytes flat)).line,
    fun rest => ?_⟩
  rw [htext, asBytes_append, List.append_assoc, asBytes_tag, parseFrom_field r
    (splitTag_tagText hname (asBytes flat).length (asBytes flat ++ rest)) (fromUtf8_asBytes _)
    (tagText_ne_marker hname _ (show ':' ∉ "EOH".toList by decide))
    (tagText_ne_marker hname _ (show ':' ∉ "EOR".toList by decide))
    (parseTag_tagText hname _ (hlength.trans (by decide))) (fromUtf8_asBytes flat) hname.nonempty,
    readBack, hflat]
  rfl

/-- The fields as the reader keeps them. -/
def readFields (fields : AdifFields) : AdifFields :=
  fields.map fun entry => (entry.1, readBack entry.2)

/-- The fields of a contact: a map with export names for keys. -/
structure ExportFields (fields : AdifFields) : Prop where
  sorted : Sorted fields
  names : ∀ entry ∈ fields, CanonicalName entry.1
  nonempty : fields ≠ []

theorem ExportFields.insert {fields : AdifFields} (h : ExportFields fields) {name : String}
    (hname : CanonicalName name) (value : String) :
    ExportFields (SortedAssoc.insert fields name value) where
  sorted := h.sorted.insert name value
  names entry hmem := by
    have hkey := (keys_insert fields name value entry.1).mp (List.mem_map_of_mem hmem)
    cases hkey with
    | inl heq => exact heq ▸ hname
    | inr hold =>
        obtain ⟨old, hold, heq⟩ := List.mem_map.mp hold
        exact heq ▸ h.names old hold
  nonempty hnil := by
    have hget := get?_insert_self fields name value
    rw [hnil] at hget
    cases hget

theorem writeField_exportFields [Platform] {fields : AdifFields} (h : ExportFields fields)
    (hasEpoch : Bool) (entry : String × Value) :
    ExportFields (writeField hasEpoch fields entry) := by
  rw [writeField]
  split
  · exact h
  · simp only
    split
    · exact h
    · next hempty =>
        split
        · split
          · exact h
          · exact h.insert ⟨hempty, normalizeFieldName_chars entry.1⟩ _
        · exact h

theorem contactFields_exportFields [Platform] {contact : Contact} {stationCallsign : String}
    {fields : AdifFields} (h : contactFields contact stationCallsign = .ok fields) :
    ExportFields fields := by
  rw [contactFields] at h
  split at h
  · cases h
  · next epoch _ =>
      cases hdate : qsoDatetimeAdif epoch with
      | error message =>
          rw [hdate] at h
          cases h
      | ok datetime =>
          rw [hdate] at h
          have hstart : ExportFields (SortedAssoc.insert (SortedAssoc.insert [] "QSO_DATE"
              datetime.1) "TIME_ON" datetime.2) := by
            have hdate : CanonicalName "QSO_DATE" := ⟨by decide, by decide⟩
            have htime : CanonicalName "TIME_ON" := ⟨by decide, by decide⟩
            refine ExportFields.insert ⟨List.pairwise_singleton _ _, ?_,
              List.cons_ne_nil _ _⟩ htime _
            intro entry hmem
            obtain rfl := List.mem_singleton.mp hmem
            exact hdate
          have hloop : ∀ (source : Map) (fields : AdifFields), ExportFields fields →
              ∀ hasEpoch, ExportFields (source.foldl (writeField hasEpoch) fields) := by
            intro source
            induction source with
            | nil => exact fun _ hfields _ => hfields
            | cons entry source ih =>
                exact fun fields hfields hasEpoch =>
                  ih _ (writeField_exportFields hfields hasEpoch entry) hasEpoch
          have hfields := Except.ok.inj h
          rw [← hfields]
          split
          · exact hloop _ _ hstart _
          · exact (hloop _ _ hstart _).insert ⟨by decide, by decide⟩ _

theorem moveField_perm {fields : AdifFields × AdifFields}
    (hnodup : (fields.2.map Prod.fst).Nodup) (key : String) :
    ((moveField fields key).2.map Prod.fst).Nodup ∧
      ((moveField fields key).1 ++ (moveField fields key).2).Perm (fields.1 ++ fields.2) := by
  cases hget : get? fields.2 key with
  | none =>
      rw [moveField, hget]
      exact ⟨hnodup, .refl _⟩
  | some value =>
      rw [moveField, hget]
      refine ⟨nodup_erase hnodup key, ?_⟩
      rw [List.append_assoc]
      exact (cons_erase_perm hnodup hget).append_left fields.1

theorem foldl_moveField_perm (keys : List String) {fields : AdifFields × AdifFields}
    (hnodup : (fields.2.map Prod.fst).Nodup) :
    ((keys.foldl moveField fields).1 ++ (keys.foldl moveField fields).2).Perm
      (fields.1 ++ fields.2) := by
  induction keys generalizing fields with
  | nil => exact .refl _
  | cons key keys ih =>
      obtain ⟨hnodup', hperm⟩ := moveField_perm hnodup key
      exact (ih hnodup').trans hperm

/-- The order of the names is changed and nothing else. -/
theorem orderedFields_perm {fields : AdifFields} (hnodup : (fields.map Prod.fst).Nodup) :
    (orderedFields fields).Perm fields :=
  foldl_moveField_perm preferredFieldOrder hnodup

/-- Reading the fields in any order gives the map of what was written. -/
theorem insertAll_readFields {fields ordered : AdifFields} (hsorted : Sorted fields)
    (hperm : ordered.Perm fields) : insertAll [] (readFields ordered) = readFields fields := by
  have hnodup : ((readFields ordered).map Prod.fst).Nodup := by
    rw [readFields, List.map_map]
    exact ((hperm.map Prod.fst).nodup_iff).mpr hsorted.nodup
  refine Sorted.ext (Sorted.insertAll List.Pairwise.nil _) (hsorted.mapValues readBack)
    fun name => ?_
  rw [get?_insertAll_of_nodup hnodup, get?_nil, Option.or_none]
  exact get?_perm hnodup (hperm.map _) name

theorem length_asBytes_append (a b : String) :
    (asBytes (a ++ b)).length = (asBytes a).length + (asBytes b).length := by
  rw [asBytes_append, List.length_append]

/-- A value is no longer than the field that holds it. -/
theorem length_flattenLines_le (name value : String) :
    (asBytes (flattenLines value)).length ≤ (asBytes (serializeField name value)).length := by
  rw [serializeField, length_asBytes_append]
  exact Nat.le_add_left _ _

theorem parseFrom_eoh {marker : String} (hmarker : '>' ∉ marker.toList)
    (h : toAsciiUppercase (trim marker) = "EOH") (rest : List UInt8) (r : Reader) :
    parseFrom (asBytes ("<" ++ marker ++ ">") ++ rest) r =
      parseFrom rest (r.passed (asBytes marker)).endHeader := by
  rw [asBytes_tag]
  exact parseFrom_endHeader r (splitTag_asBytes hmarker rest) (fromUtf8_asBytes marker) h

theorem parseFrom_eor {marker : String} (hmarker : '>' ∉ marker.toList)
    (h : toAsciiUppercase (trim marker) = "EOR") (rest : List UInt8) (r : Reader) :
    parseFrom (asBytes ("<" ++ marker ++ ">") ++ rest) r =
      parseFrom rest ((r.passed (asBytes marker)).endRecord r.line) := by
  rw [asBytes_tag]
  exact parseFrom_endRecord r (splitTag_asBytes hmarker rest) (fromUtf8_asBytes marker) h

theorem reads_newline (r : Reader) : ∃ line, Reads (asBytes "\n") r { r with line } :=
  reads_text (by decide) r

theorem reads_eoh (r : Reader) :
    ∃ line, Reads (asBytes "<EOH>\n") r { r.endHeader with line } := by
  obtain ⟨line, hline⟩ := reads_newline (r.passed (asBytes "EOH")).endHeader
  refine ⟨line, fun rest => ?_⟩
  have htext : asBytes "<EOH>\n" = asBytes ("<" ++ "EOH" ++ ">") ++ asBytes "\n" := by decide
  rw [htext, List.append_assoc, parseFrom_eoh (by decide) (by decide), hline]
  rfl

/-- The end of a record that has fields. -/
theorem reads_eor {r : Reader} (hheader : r.inHeader = false) (hcurrent : r.current ≠ []) :
    ∃ line recordLine, Reads (asBytes "<EOR>\n") r { r with
      line
      records := r.records ++ [⟨recordLine, r.current⟩]
      current := []
      currentLine := none } := by
  obtain ⟨line, hline⟩ := reads_newline ((r.passed (asBytes "EOR")).endRecord r.line)
  refine ⟨line, r.currentLine.getD r.line, fun rest => ?_⟩
  have htext : asBytes "<EOR>\n" = asBytes ("<" ++ "EOR" ++ ">") ++ asBytes "\n" := by decide
  rw [htext, List.append_assoc, parseFrom_eor (by decide) (by decide), hline]
  have hempty : r.current.isEmpty = false := by
    cases hfields : r.current with
    | nil => exact absurd hfields hcurrent
    | cons _ _ => rfl
  have hend : (r.passed (asBytes "EOR")).endRecord r.line = { r.passed (asBytes "EOR") with
      records := r.records ++ [⟨r.currentLine.getD r.line, r.current⟩]
      current := []
      currentLine := none } := by
    simp only [Reader.endRecord, Reader.passed, hheader, hempty, Bool.false_eq_true, if_false]
  rw [hend]
  rfl

/-- The fields of a record are read one after the other. -/
theorem reads_serializeFields {fields : AdifFields}
    (hnames : ∀ entry ∈ fields, CanonicalName entry.1)
    (hlength : (asBytes (serializeFields fields)).length ≤ isizeMax) {r : Reader}
    (hheader : r.inHeader = false) :
    ∃ r', Reads (asBytes (serializeFields fields)) r r' ∧ r'.inHeader = false ∧
      r'.records = r.records ∧ r'.current = insertAll r.current (readFields fields) := by
  induction fields generalizing r with
  | nil => exact ⟨r, Reads.nil r, hheader, rfl, rfl⟩
  | cons entry fields ih =>
      obtain ⟨name, value⟩ := entry
      rw [serializeFields, length_asBytes_append] at hlength
      have hvalue := length_flattenLines_le name value
      obtain ⟨line, hfirst⟩ := reads_serializeField (hnames _ List.mem_cons_self) value
        (by omega) r
      have hfield : ({ r with line }.field r.line name (readBack value)).current =
          SortedAssoc.insert r.current name (readBack value) := by
        rw [Reader.field, if_neg (by simp [hheader])]
      have hstill : ({ r with line }.field r.line name (readBack value)).inHeader = false := by
        rw [Reader.field, if_neg (by simp [hheader])]
        exact hheader
      have hrecords : ({ r with line }.field r.line name (readBack value)).records =
          r.records := by
        rw [Reader.field, if_neg (by simp [hheader])]
      obtain ⟨r', hrest, hheader', hrecords', hcurrent'⟩ :=
        ih (fun entry hmem => hnames entry (List.mem_cons_of_mem _ hmem)) (by omega) hstill
      refine ⟨r', ?_, hheader', hrecords'.trans hrecords, ?_⟩
      · exact hfirst.append hrest
      · rw [hcurrent', hfield]
        rfl

/-- The text of a contact is read as one record with the fields of the contact. -/
theorem reads_contact {fields : AdifFields} (hfields : ExportFields fields)
    (hlength : (asBytes (serializeFields (orderedFields fields))).length ≤ isizeMax) {r : Reader}
    (hheader : r.inHeader = false) (hcurrent : r.current = []) :
    ∃ r' line, Reads (asBytes (serializeFields (orderedFields fields) ++ "<EOR>\n")) r r' ∧
      r'.inHeader = false ∧ r'.current = [] ∧
      r'.records = r.records ++ [⟨line, readFields fields⟩] := by
  have hperm := orderedFields_perm hfields.sorted.nodup
  obtain ⟨middle, hread, hheader', hrecords, hmiddle⟩ := reads_serializeFields
    (fun entry hmem => hfields.names entry (hperm.mem_iff.mp hmem)) hlength hheader
  rw [hcurrent, insertAll_readFields hfields.sorted hperm] at hmiddle
  have hsome : middle.current ≠ [] := by
    rw [hmiddle, readFields]
    exact fun hnil => hfields.nonempty (List.map_eq_nil_iff.mp hnil)
  obtain ⟨line, recordLine, heor⟩ := reads_eor hheader' hsome
  refine ⟨{ middle with
    line
    records := middle.records ++ [⟨recordLine, middle.current⟩]
    current := []
    currentLine := none }, recordLine, ?_, hheader', rfl, ?_⟩
  · exact hread.append heor
  · rw [← hrecords, ← hmiddle]

/-- A header field leaves the scan in the header. -/
theorem reads_headerField {name : String} (hname : CanonicalName name) (value : String)
    (hlength : (asBytes (flattenLines value)).length ≤ isizeMax) {r : Reader}
    (hheader : r.inHeader = true) :
    ∃ r', Reads (asBytes (serializeField name value)) r r' ∧ r'.inHeader = true ∧
      r'.current = r.current ∧ r'.records = r.records := by
  obtain ⟨line, hread⟩ := reads_serializeField hname value hlength r
  refine ⟨_, hread, ?_⟩
  rw [Reader.field, if_pos hheader]
  exact ⟨hheader, rfl, rfl⟩

theorem reads_header : ∃ r, Reads (asBytes header) {} r ∧ r.inHeader = false ∧ r.current = [] ∧
    r.records = [] := by
  have hversion : CanonicalName "ADIF_VER" := ⟨by decide, by decide⟩
  have hprogram : CanonicalName "PROGRAMID" := ⟨by decide, by decide⟩
  have hprogramVersion : CanonicalName "PROGRAMVERSION" := ⟨by decide, by decide⟩
  have htitle : lessThan ∉ asBytes "Log73 ADIF Export\n" := by decide
  obtain ⟨line, htext⟩ := reads_text htitle {}
  have hstart : ({ line : Reader }).inHeader = true := rfl
  obtain ⟨r₁, hfirst, hheader₁, hcurrent₁, hrecords₁⟩ :=
    reads_headerField hversion adifVersion (by decide) hstart
  obtain ⟨r₂, hsecond, hheader₂, hcurrent₂, hrecords₂⟩ :=
    reads_headerField hprogram programId (by decide) hheader₁
  obtain ⟨r₃, hthird, _, hcurrent₃, hrecords₃⟩ :=
    reads_headerField hprogramVersion programVersion (by decide) hheader₂
  obtain ⟨line', heoh⟩ := reads_eoh r₃
  refine ⟨{ r₃.endHeader with line := line' }, ?_, rfl, ?_, ?_⟩
  · exact (((htext.append hfirst).append hsecond).append hthird).append heoh
  · exact hcurrent₃.trans (hcurrent₂.trans hcurrent₁)
  · exact hrecords₃.trans (hrecords₂.trans hrecords₁)

theorem renderContacts_length_le [Platform] {log : Log} {contacts : List Contact}
    {output text : String} (h : renderContacts log output contacts = .ok text) :
    (asBytes output).length ≤ (asBytes text).length := by
  induction contacts generalizing output with
  | nil =>
      obtain rfl := Except.ok.inj h
      exact Nat.le_refl _
  | cons contact contacts ih =>
      rw [renderContacts] at h
      cases hfields : contactFields contact log.stationCallsign with
      | error message =>
          rw [hfields] at h
          cases h
      | ok fields =>
          rw [hfields] at h
          have hrest := ih h
          rw [length_asBytes_append, length_asBytes_append] at hrest
          omega

/-- The contacts of a log are read as their records, in order. -/
theorem reads_renderContacts [Platform] {log : Log} {contacts : List Contact}
    {output text : String} (h : renderContacts log output contacts = .ok text)
    (hlength : (asBytes text).length ≤ isizeMax) {r₀ r : Reader}
    (hread : Reads (asBytes output) r₀ r) (hheader : r.inHeader = false)
    (hcurrent : r.current = []) :
    ∃ r' records, Reads (asBytes text) r₀ r' ∧ r'.inHeader = false ∧ r'.current = [] ∧
      r'.records = r.records ++ records ∧
      List.Forall₂ (fun contact record => ∃ fields,
        contactFields contact log.stationCallsign = .ok fields ∧
          record.fields = readFields fields) contacts records := by
  induction contacts generalizing output r with
  | nil =>
      obtain rfl := Except.ok.inj h
      exact ⟨r, [], hread, hheader, hcurrent, (List.append_nil _).symm, .nil⟩
  | cons contact contacts ih =>
      rw [renderContacts] at h
      cases hfields : contactFields contact log.stationCallsign with
      | error message =>
          rw [hfields] at h
          cases h
      | ok fields =>
          rw [hfields] at h
          have hexport := contactFields_exportFields hfields
          have hbound := renderContacts_length_le h
          rw [length_asBytes_append, length_asBytes_append] at hbound
          obtain ⟨next, line, hcontact, hheader', hcurrent', hrecords⟩ :=
            reads_contact hexport (by omega) hheader hcurrent
          have hboth : Reads (asBytes (output ++ serializeFields (orderedFields fields) ++
              "<EOR>\n")) r₀ next := by
            rw [String.append_assoc]
            exact hread.append hcontact
          obtain ⟨r', records, hall, hheader'', hcurrent'', hrecords', hrelated⟩ :=
            ih h hboth hheader' hcurrent'
          refine ⟨r', ⟨line, readFields fields⟩ :: records, hall, hheader'', hcurrent'', ?_,
            .cons ⟨fields, hfields, rfl⟩ hrelated⟩
          rw [hrecords', hrecords, List.append_assoc]
          rfl

theorem parseRecords_of_renderContacts [Platform] {log : Log} {contacts : List Contact}
    {output : String} (h : renderContacts log header contacts = .ok output)
    (hlength : (asBytes output).length ≤ isizeMax) :
    ∃ records, parseRecords output = .ok records ∧
      List.Forall₂ (fun contact record => ∃ fields,
        contactFields contact log.stationCallsign = .ok fields ∧
          record.fields = readFields fields) contacts records := by
  obtain ⟨start, hread, hheader, hcurrent, hnone⟩ := reads_header
  obtain ⟨r, records, hall, hheader', hcurrent', hrecords, hrelated⟩ :=
    reads_renderContacts h hlength hread hheader hcurrent
  refine ⟨records, ?_, hrelated⟩
  have hend := hall []
  rw [List.append_nil] at hend
  rw [parseRecords, hend, parseFrom, Reader.finish, hcurrent', hheader', hrecords, hnone]
  rfl

/-- A log is rendered contact by contact. -/
theorem renderContacts_of_renderLog [Platform] {log : Log} {contacts : List Contact}
    {text : String} (h : renderLog log contacts = .ok text) :
    renderContacts log header contacts = .ok text ∧ (asBytes text).length ≤ isizeMax := by
  rw [renderLog] at h
  cases hrender : renderContacts log header contacts with
  | error message =>
      rw [hrender] at h
      cases h
  | ok output =>
      rw [hrender] at h
      change (if (asBytes output).length ≤ isizeMax then Except.ok output
        else Except.error "capacity overflow") = .ok text at h
      split at h
      · next hlength =>
          obtain rfl := Except.ok.inj h
          exact ⟨rfl, hlength⟩
      · cases h

/-- Reading a rendered log gives one record for each contact, in order, with exactly the
fields of the contact. -/
theorem parseRecords_renderLog [Platform] (log : Log) (contacts : List Contact) (text : String)
    (h : renderLog log contacts = .ok text) :
    ∃ records, parseRecords text = .ok records ∧
      List.Forall₂ (fun contact record => ∃ fields,
        contactFields contact log.stationCallsign = .ok fields ∧
          record.fields = readFields fields) contacts records := by
  obtain ⟨hrender, hlength⟩ := renderContacts_of_renderLog h
  exact parseRecords_of_renderContacts hrender hlength

end Adif

end Log73

namespace Log73

attribute [local instance] asciiPlatform

/-- A contact whose remark holds a tag, a marker, a line break and a two-byte letter. -/
def remarkedContact : Contact :=
  buildContact [] [("CALL", .string "W1AW"), ("COMMENT", .string "<EOR> Gr\u00fc\r\n<EOH>:5>"),
    ("QSO_DATE_TIME_ON", .number (.int 1700000123))]

def remarkedLog : Log where
  id := 1
  name := "Test"
  contestId := "TEST"
  stationCallsign := "N0CALL"
  contestParams := .null

theorem Adif.parseRecords_renderLog_remarked :
    ∃ text records, Adif.renderLog remarkedLog [remarkedContact] = .ok text ∧
      Adif.parseRecords text = .ok records ∧ records.length = 1 := by
  have hrender : (Adif.renderLog remarkedLog [remarkedContact]).isOk = true := by decide +kernel
  cases htext : Adif.renderLog remarkedLog [remarkedContact] with
  | error message =>
      rw [htext] at hrender
      cases hrender
  | ok text =>
      obtain ⟨records, hread, hall⟩ :=
        Adif.parseRecords_renderLog remarkedLog [remarkedContact] text htext
      exact ⟨text, records, rfl, hread, hall.length_eq.symm⟩

end Log73
