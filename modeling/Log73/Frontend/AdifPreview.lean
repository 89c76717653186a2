import Log73.Frontend.AdifImport
import Log73.Adif.RoundTrip
import Log73.Library.Trimming

/-!
The preview of an ADIF import against the backend's reader. They count a value in code units and
in bytes; what both read the same way, up to the end of a record, is shown as it is imported.
-/

namespace Log73.Frontend.AdifImport

open Adif

/-! ### Code units -/

theorem toNat_of_mem_codeUnits {c : Char} {unit : Nat} (hmem : unit ∈ codeUnits c)
    (hunit : unit < 0xD800) : c.toNat = unit := by
  rw [codeUnits] at hmem
  split at hmem
  · exact (List.mem_singleton.mp hmem).symm
  · simp only [List.mem_cons, List.not_mem_nil, or_false] at hmem
    omega

theorem exists_of_mem_units {cs : List Char} {unit : Nat} (hmem : unit ∈ units cs)
    (hunit : unit < 0xD800) : ∃ c ∈ cs, c.toNat = unit := by
  obtain ⟨c, hc, hmem⟩ := List.mem_flatMap.mp hmem
  exact ⟨c, hc, toNat_of_mem_codeUnits hmem hunit⟩

theorem units_cons (c : Char) (cs : List Char) : units (c :: cs) = codeUnits c ++ units cs :=
  List.flatMap_cons

theorem valid_toNat (c : Char) : c.toNat < 0xD800 ∨ 0xDFFF < c.toNat ∧ c.toNat < 0x110000 :=
  c.valid

theorem ofUnits_units (cs : List Char) : ofUnits (units cs) = cs := by
  induction cs with
  | nil => rfl
  | cons c cs ih =>
      have hvalid := valid_toNat c
      rw [units_cons, codeUnits]
      split
      · next hsmall =>
          cases hrest : units cs with
          | nil =>
              rw [hrest] at ih
              rw [← ih]
              exact congrArg (· :: []) (Char.ofNat_toNat c)
          | cons low rest =>
              rw [List.singleton_append, ofUnits, if_neg (by omega), ← hrest, ih, Char.ofNat_toNat]
      · next hlarge =>
          rw [List.cons_append, List.singleton_append, ofUnits, if_pos (by omega), ih]
          have hcode : 65536 + (0xD800 + (c.toNat - 65536) / 1024 - 0xD800) * 1024 +
              (0xDC00 + (c.toNat - 65536) % 1024 - 0xDC00) = c.toNat := by omega
          rw [hcode, Char.ofNat_toNat]

/-! ### Tags -/

theorem splitAtUnit_append {unit : Nat} {front : List Nat} (h : unit ∉ front) (rest : List Nat) :
    splitAtUnit unit (front ++ unit :: rest) = some (front, rest) := by
  have hfront : ∀ other ∈ front, (other != unit) = true := fun other hmem =>
    bne_iff_ne.mpr fun heq => h (heq ▸ hmem)
  rw [splitAtUnit, List.dropWhile_append_of_pos hfront, List.takeWhile_append_of_pos hfront]
  simp

theorem splitAtUnit_skip {unit : Nat} {front : List Nat} (h : unit ∉ front) (source : List Nat) :
    (splitAtUnit unit (front ++ source)).map Prod.snd =
      (splitAtUnit unit source).map Prod.snd := by
  have hfront : ∀ other ∈ front, (other != unit) = true := fun other hmem =>
    bne_iff_ne.mpr fun heq => h (heq ▸ hmem)
  rw [splitAtUnit, splitAtUnit, List.dropWhile_append_of_pos hfront]
  cases source.dropWhile (· != unit) with
  | nil => rfl
  | cons _ _ => rfl

section

variable [Platform]

theorem nextTag_eq (source : List Nat) : nextTag source =
    ((splitAtUnit lessThan source).map Prod.snd).bind fun behind =>
      (splitAtUnit greaterThan behind).map fun tag =>
        (readTag (trim (String.ofList (ofUnits tag.1))), tag.2) := by
  rw [nextTag]
  cases splitAtUnit lessThan source with
  | none => rfl
  | some start =>
      obtain ⟨front, behind⟩ := start
      dsimp only [Option.bind_eq_bind, Option.bind_some, Option.map_some]
      cases splitAtUnit greaterThan behind with
      | none => rfl
      | some tag => rfl

theorem nextTag_passed {c : Char} (hc : c ≠ '<') (cs : List Char) :
    nextTag (units (c :: cs)) = nextTag (units cs) := by
  have hunit : lessThan ∉ codeUnits c := by
    intro hmem
    have hcode := toNat_of_mem_codeUnits hmem (by decide)
    exact hc (Char.toNat_inj.mp hcode)
  rw [nextTag_eq, nextTag_eq, units_cons, splitAtUnit_skip hunit]

theorem nextTag_units {tag : List Char} (htag : '>' ∉ tag) (cs : List Char) :
    nextTag (units ('<' :: (tag ++ '>' :: cs))) =
      some (readTag (trim (String.ofList tag)), units cs) := by
  have hend : greaterThan ∉ units tag := by
    intro hmem
    obtain ⟨c, hc, hcode⟩ := exists_of_mem_units hmem (by decide)
    have hchar : c = '>' := Char.toNat_inj.mp hcode
    exact htag (hchar ▸ hc)
  have hsource : units ('<' :: (tag ++ '>' :: cs)) =
      [] ++ lessThan :: (units tag ++ greaterThan :: units cs) := by
    rw [units_cons, units_append, units_cons]
    rfl
  rw [nextTag_eq, hsource, splitAtUnit_append List.not_mem_nil, Option.map_some, Option.bind_some,
    splitAtUnit_append hend, Option.map_some, ofUnits_units]

end

/-! ### Values -/

/-- White space of ASCII is the same for code units. -/
theorem trimUnits_ascii {value : List Char} (h : ∀ c ∈ value, c.toNat < 128) :
    trimUnits (units value) = units (Log73.trim (String.ofList value)).toList := by
  have hsmall : ∀ c ∈ value, c.toNat < 65536 := fun c hmem => by
    have := h c hmem
    omega
  have hplain : ∀ c ∈ value, c.toNat ≠ 0x85 ∧ c.toNat ≠ 0xFEFF := fun c hmem => by
    have := h c hmem
    omega
  have hspace : isWhitespaceUnit ∘ Char.toNat = isWhitespace := rfl
  have htrim : trimUnits (value.map Char.toNat) = (trimChars value).map Char.toNat := by
    rw [trimUnits, trimChars, List.dropWhile_map, hspace, ← List.map_reverse, List.dropWhile_map,
      hspace, List.map_reverse]
  have hkept : ∀ c ∈ (Log73.trim (String.ofList value)).toList, c.toNat < 65536 := fun c hmem =>
    hsmall c (by simpa using mem_of_mem_trim hmem)
  rw [units_basic hsmall, htrim, trimChars_eq hplain, units_basic hkept, Log73.trim,
    String.toList_ofList, String.toList_ofList]

/-- A preview that shows the fields of a record: the same names, and the values unit by unit. -/
def Shows (preview : Fields) (fields : AdifFields) : Prop :=
  ∀ name, OrderedMap.get? preview name =
    (SortedAssoc.get? fields name).map fun value => units value.toList

theorem shows_nil : Shows [] [] := fun _ => rfl

theorem Shows.insert {preview : Fields} {fields : AdifFields} (h : Shows preview fields)
    (name value : String) : Shows (OrderedMap.set preview name (units value.toList))
      (SortedAssoc.insert fields name value) := by
  intro other
  rw [OrderedMap.get?_set, SortedAssoc.get?_insert]
  split
  · rfl
  · exact h other

theorem Shows.eq_nil_iff {preview : Fields} {fields : AdifFields} (h : Shows preview fields) :
    preview = [] ↔ fields = [] := by
  constructor
  · intro hnil
    cases fields with
    | nil => rfl
    | cons entry fields =>
        have hentry := h entry.1
        rw [hnil, SortedAssoc.get?_cons, if_pos rfl] at hentry
        cases hentry
  · intro hnil
    cases preview with
    | nil => rfl
    | cons entry preview =>
        have hentry := h entry.1
        rw [hnil, OrderedMap.get?_cons, if_pos rfl] at hentry
        cases hentry

/-! ### One turn of both -/

/-- The scan holds what the reader holds before its first record ends. -/
structure Matches (inHeader filled : Bool) (s : Scan) (r : Reader) : Prop where
  reader : r.inHeader = inHeader
  scan : s.inHeader = inHeader
  pending : Shows s.pending r.pending
  current : Shows s.current r.current
  records : r.records = []
  filled : (if inHeader then r.pending else r.current) ≠ [] ↔ filled = true
  early : inHeader = true → r.current = []

section

variable {inHeader filled : Bool} {s : Scan} {r : Reader}

theorem matches_start : Matches true false {} {} :=
  ⟨rfl, rfl, shows_nil, shows_nil, rfl, by simp, fun _ => rfl⟩

theorem Matches.passed (h : Matches inHeader filled s r) (bytes : List UInt8) :
    Matches inHeader filled s (r.passed bytes) :=
  ⟨h.reader, h.scan, h.pending, h.current, h.records, h.filled, h.early⟩

theorem Matches.endHeader (h : Matches inHeader filled s r) :
    Matches false (!inHeader && filled) s.endHeader r.endHeader := by
  refine ⟨rfl, rfl, shows_nil, h.current, h.records, ?_, fun heq => by cases heq⟩
  cases inHeader with
  | true =>
      have hearly : r.endHeader.current = [] := h.early rfl
      simp [hearly]
  | false => exact h.filled

theorem Matches.field (h : Matches inHeader filled s r) (line : Nat) (name value : String) :
    Matches inHeader true (s.field name (units value.toList)) (r.field line name value) := by
  rw [Scan.field, Reader.field, h.scan, h.reader]
  have hinsert : ∀ fields : AdifFields, SortedAssoc.insert fields name value ≠ [] := by
    intro fields hnil
    have hget := SortedAssoc.get?_insert_self fields name value
    rw [hnil] at hget
    cases hget
  cases inHeader with
  | true => exact ⟨rfl, rfl, h.pending.insert name value, h.current, h.records,
      iff_of_true (hinsert _) rfl, h.early⟩
  | false => exact ⟨rfl, rfl, h.pending, h.current.insert name value, h.records,
      iff_of_true (hinsert _) rfl, fun heq => by cases heq⟩

/-- The fields of the record that is being read. -/
theorem Matches.fields (h : Matches inHeader filled s r) :
    Shows s.fields (if inHeader then r.pending else r.current) := by
  rw [Scan.fields, h.scan]
  cases inHeader with
  | true => exact h.pending
  | false => exact h.current

theorem Matches.endRecord (h : Matches inHeader true s r) (line : Nat) :
    ∃ recordLine, (r.endRecord line).records =
      [⟨recordLine, if inHeader then r.pending else r.current⟩] := by
  have hfilled := h.filled.mpr rfl
  rw [Reader.endRecord, h.reader]
  cases inHeader with
  | true =>
      have hempty : ¬r.pending.isEmpty = true := fun hnil => hfilled (List.isEmpty_iff.mp hnil)
      exact ⟨r.pendingLine.getD line, by rw [if_pos rfl, if_neg hempty, h.records]; rfl⟩
  | false =>
      have hempty : ¬r.current.isEmpty = true := fun hnil => hfilled (List.isEmpty_iff.mp hnil)
      exact ⟨r.currentLine.getD line, by
        rw [if_neg (by decide), if_neg hempty, h.records]; rfl⟩

theorem Matches.finish (h : Matches inHeader filled s r) {first : AdifRecord}
    {rest : List AdifRecord} (hparse : r.finish = first :: rest) : Shows s.finish first.fields := by
  rw [Reader.finish, h.records, List.nil_append, List.nil_append] at hparse
  rw [Scan.finish]
  by_cases hcurrent : r.current = []
  · rw [h.current.eq_nil_iff.mpr hcurrent]
    rw [hcurrent] at hparse
    simp only [List.isEmpty_nil, Bool.not_true, Bool.false_eq_true, if_false] at hparse ⊢
    split at hparse
    · cases hparse
      exact h.pending
    · cases hparse
  · have hscan : s.current ≠ [] := fun hnil => hcurrent (h.current.eq_nil_iff.mp hnil)
    have hnot : (!r.current.isEmpty) = true := by simpa using hcurrent
    have hnot' : (!s.current.isEmpty) = true := by simpa using hscan
    rw [if_pos hnot] at hparse
    rw [if_pos hnot']
    cases hparse
    exact h.current

end

/-! ### The text of a tag -/

/-- White space to both sides. -/
def IsBlank (c : Char) : Prop := isWhitespace c = true ∧ Log73.isWhitespace c = true

instance : DecidablePred IsBlank := fun _ => inferInstanceAs (Decidable (_ ∧ _))

/-- The letters of a marker in either case, with white space around them. -/
def MarkerTag (marker : String) (tag : List Char) : Prop :=
  ∃ before letters behind, tag = before ++ (letters ++ behind) ∧ (∀ c ∈ before, IsBlank c) ∧
    (∀ c ∈ behind, IsBlank c) ∧ letters.map Char.toUpper = marker.toList

/-- A length: ASCII digits, which may have a plus sign, with white space around them. The frontend
skips white space before the number only. -/
def LengthText (text : List Char) (length : Nat) : Prop :=
  ∃ before sign digits behind, text = before ++ (sign ++ (digits ++ behind)) ∧
    (∀ c ∈ before, IsBlank c) ∧ (sign = [] ∨ sign = ['+']) ∧ digits ≠ [] ∧
    (∀ c ∈ digits, isAsciiDigit c = true) ∧ (∀ c ∈ behind, Log73.isWhitespace c = true) ∧
    digitsValue digits = length ∧ length ≤ 18446744073709551615

section

variable [Platform]

/-- The character stands for one character of a field's name: it is ASCII, or the frontend, too,
replaces it once. -/
def NamedAlike (c : Char) : Prop :=
  c.toNat < 128 ∨ ∃ unit, units (upperChar c) = [unit] ∧ isNameUnit unit = false

/-- A name, a colon and a length; what comes behind a second colon is the type of the data. -/
structure FieldTag (tag name : List Char) (length : Nat) : Prop where
  closed : '>' ∉ tag
  text : ∃ size type, tag = name ++ ':' :: (size ++ type) ∧ LengthText size length ∧
    (type = [] ∨ ∃ rest, type = ':' :: rest)
  whole : ':' ∉ name
  named : ∃ c ∈ name, isWhitespace c = false
  edges : Trimming.EdgesAlike isWhitespace Log73.isWhitespace name
  chars : ∀ c ∈ trimChars name, NamedAlike c

end

/-! ### Trimmed tags -/

theorem trimChars_pivot {c : Char} (hc : isWhitespace c = false) (cs ds : List Char) :
    trimChars (cs ++ c :: ds) = cs.dropWhile isWhitespace ++ c :: ds.rdropWhile isWhitespace := by
  rw [trimChars, dropWhile_append_cons hc, List.reverse_append, List.reverse_cons,
    List.append_assoc, List.singleton_append, dropWhile_append_cons hc]
  simp [List.rdropWhile]

theorem rdropWhile_pivot {c : Char} (hc : isWhitespace c = false) (cs ds : List Char) :
    (cs ++ c :: ds).rdropWhile isWhitespace = cs ++ c :: ds.rdropWhile isWhitespace := by
  rw [List.rdropWhile, List.reverse_append, List.reverse_cons, List.append_assoc,
    List.singleton_append, dropWhile_append_cons hc]
  simp [List.rdropWhile]

theorem isWhitespace_of_printable {c : Char} (hlow : 33 ≤ c.toNat) (hhigh : c.toNat ≤ 126) :
    isWhitespace c = false ∧ Log73.isWhitespace c = false := by
  have hbackend := Log73.isWhitespace_of_printable hlow hhigh
  exact ⟨by rw [isWhitespace_eq (by omega), hbackend], hbackend⟩

theorem isWhitespace_digit {c : Char} (h : isAsciiDigit c = true) :
    isWhitespace c = false ∧ Log73.isWhitespace c = false := by
  have hrange := (isAsciiDigit_iff c).mp h
  exact isWhitespace_of_printable (by omega) (by omega)

theorem ne_colon_of_isWhitespace {c : Char} (h : Log73.isWhitespace c = true) : c ≠ ':' := by
  rintro rfl
  revert h
  decide

/-! ### Markers -/

section

variable {marker : String} {tag : List Char}

/-- What is left of a marker's tag when it is trimmed. -/
theorem MarkerTag.trimmed {p : Char → Bool} (h : MarkerTag marker tag)
    (hmarker : ∀ c ∈ marker.toList, 65 ≤ c.toNat ∧ c.toNat ≤ 90)
    (hblank : ∀ c, IsBlank c → p c = true)
    (hletter : ∀ c : Char, 65 ≤ c.toNat → c.toNat ≤ 122 → p c = false) :
    (∀ c ∈ Trimming.trimWith p tag, c.toNat < 128) ∧
      (Trimming.trimWith p tag).map Char.toUpper = marker.toList := by
  obtain ⟨before, letters, behind, rfl, hbefore, hbehind, hletters⟩ := h
  have hrange : ∀ c ∈ letters, 65 ≤ c.toNat ∧ c.toNat ≤ 122 := by
    intro c hc
    have hupper := hmarker c.toUpper (hletters ▸ List.mem_map_of_mem hc)
    rw [toNat_toUpper] at hupper
    split at hupper
    · omega
    · omega
  rw [Trimming.trimWith_append (fun c hc => hblank c (hbefore c hc))
    (fun c hc => hletter c (hrange c hc).1 (hrange c hc).2) fun c hc => hblank c (hbehind c hc)]
  refine ⟨fun c hc => ?_, hletters⟩
  have := hrange c hc
  omega

theorem MarkerTag.closed (h : MarkerTag marker tag)
    (hmarker : ∀ c ∈ marker.toList, 65 ≤ c.toNat ∧ c.toNat ≤ 90) : '>' ∉ tag := by
  obtain ⟨before, letters, behind, rfl, hbefore, hbehind, hletters⟩ := h
  have hblank : ¬IsBlank '>' := fun hc => absurd hc.1 (by decide)
  simp only [List.mem_append, not_or]
  refine ⟨fun hmem => hblank (hbefore _ hmem), fun hmem => ?_, fun hmem => hblank (hbehind _ hmem)⟩
  have hupper := hmarker _ (hletters ▸ List.mem_map_of_mem hmem)
  revert hupper
  decide

theorem MarkerTag.backend (h : MarkerTag marker tag)
    (hmarker : ∀ c ∈ marker.toList, 65 ≤ c.toNat ∧ c.toNat ≤ 90) :
    toAsciiUppercase (Log73.trim (String.ofList tag)) = marker := by
  have htrimmed := (h.trimmed hmarker (fun _ hc => hc.2) fun c hlow hhigh =>
    (isWhitespace_of_printable (by omega) (by omega)).2).2
  have htrim : (Log73.trim (String.ofList tag)).toList =
      Trimming.trimWith Log73.isWhitespace tag := by
    rw [Log73.trim, String.toList_ofList, String.toList_ofList]
    rfl
  rw [toAsciiUppercase, htrim, htrimmed, String.ofList_toList]

theorem MarkerTag.preview [Platform] (h : MarkerTag marker tag)
    (hmarker : ∀ c ∈ marker.toList, 65 ≤ c.toNat ∧ c.toNat ≤ 90) :
    toUpperCase (trim (String.ofList tag)) = marker := by
  obtain ⟨hascii, htrimmed⟩ := h.trimmed hmarker (fun _ hc => hc.1) fun c hlow hhigh =>
    (isWhitespace_of_printable (by omega) (by omega)).1
  have htrim : (trim (String.ofList tag)).toList = Trimming.trimWith isWhitespace tag := by
    rw [trim, String.toList_ofList, String.toList_ofList]
    rfl
  have hplain : Ascii (trim (String.ofList tag)) := by
    rw [Ascii, htrim]
    exact hascii
  rw [toUpperCase, toUppercase_ascii hplain, toAsciiUppercase, htrim, htrimmed,
    String.ofList_toList]

end

/-! ### Names -/

theorem nameUnit_toUpper {c : Char} (h : c.toNat < 128) :
    (if isNameUnit c.toUpper.toNat then Char.ofNat c.toUpper.toNat else '_') = fieldNameChar c := by
  rw [Char.ofNat_toNat, fieldNameChar]
  have hlower := isAsciiLowercase_iff c
  have hupper := toNat_toUpper c
  by_cases hrange : 97 ≤ c.toNat ∧ c.toNat ≤ 122
  · rw [if_pos (hlower.mpr hrange), if_pos]
    rw [if_pos hrange] at hupper
    rw [isNameUnit, hupper]
    simp only [Bool.or_eq_true, Bool.and_eq_true, decide_eq_true_eq]
    omega
  · rw [if_neg fun hcase => hrange (hlower.mp hcase)]
    rw [if_neg hrange] at hupper
    have hself : c.toUpper = c := Char.toNat_inj.mp hupper
    rw [hself]
    refine if_congr ?_ rfl rfl
    simp only [isNameUnit, isAsciiUppercase, isAsciiDigit, Bool.or_eq_true, Bool.and_eq_true,
      decide_eq_true_eq, beq_iff_eq, Char.le_def, UInt32.le_iff_toNat_le]
    have hunderscore : c = '_' ↔ c.toNat = 95 := Char.toNat_inj.symm
    rw [hunderscore]
    rfl

section

variable [Platform]

theorem nameUnits {c : Char} (h : NamedAlike c) :
    (units (upperChar c)).map (fun unit => if isNameUnit unit then Char.ofNat unit else '_') =
      [fieldNameChar c] := by
  by_cases hascii : c.toNat < 128
  · have hsmall : ∀ d ∈ [c.toUpper], d.toNat < 65536 := by
      intro d hd
      rw [List.mem_singleton.mp hd, toNat_toUpper]
      split
      · omega
      · omega
    rw [upperChar, if_pos hascii, units_basic hsmall, List.map_singleton, List.map_singleton,
      nameUnit_toUpper hascii]
  · obtain ⟨unit, hunits, hunit⟩ := h.resolve_left hascii
    have hother : fieldNameChar c = '_' := by
      rw [fieldNameChar, if_neg, if_neg]
      · simp only [isAsciiUppercase, isAsciiDigit, Bool.or_eq_true, Bool.and_eq_true,
          decide_eq_true_eq, beq_iff_eq, Char.le_def, UInt32.le_iff_toNat_le, not_or]
        have hcode : c.val.toNat = c.toNat := rfl
        refine ⟨⟨fun hcase => ?_, fun hcase => ?_⟩, fun hcase => ?_⟩
        · have : c.toNat ≤ 90 := hcase.2
          omega
        · have : c.toNat ≤ 57 := hcase.2
          omega
        · rw [hcase] at hascii
          exact hascii (by decide)
      · rw [isAsciiLowercase_iff]
        omega
    rw [hunits, List.map_singleton, hunit, hother]
    rfl

/-- Both sides make the same name of a text. -/
theorem normalizeAdifFieldName_eq {name : List Char}
    (hedges : Trimming.EdgesAlike isWhitespace Log73.isWhitespace name)
    (hchars : ∀ c ∈ trimChars name, NamedAlike c) :
    normalizeAdifFieldName (String.ofList (name.dropWhile isWhitespace)) =
      normalizeFieldName (String.ofList name) := by
  have htrim : trimChars (name.dropWhile isWhitespace) = trimChars name := by
    rw [trimChars, List.dropWhile_idempotent, trimChars]
  have hsame : Log73.trimChars name = trimChars name := hedges.trimWith_eq.symm
  rw [normalizeAdifFieldName, normalizeFieldName, String.toList_ofList, hsame, trim,
    String.toList_ofList, htrim, toUpperCase, toUppercase, String.toList_ofList,
    String.toList_ofList]
  congr 1
  generalize trimChars name = kept at hchars
  induction kept with
  | nil => rfl
  | cons c cs ih =>
      rw [List.flatMap_cons, units_append, List.map_append, nameUnits (hchars c List.mem_cons_self),
        ih fun d hd => hchars d (List.mem_cons_of_mem c hd)]
      rfl

end

/-! ### Lengths -/

theorem parseDigits_eq {digits : List Char} (hsome : digits ≠ [])
    (hdigits : ∀ c ∈ digits, isAsciiDigit c = true) :
    parseDigits digits = some (digitsValue digits) := by
  refine if_neg ?_
  simpa [hsome] using hdigits

section

variable {size : List Char} {length : Nat}

theorem LengthText.colon (h : LengthText size length) : ':' ∉ size := by
  obtain ⟨before, sign, digits, behind, rfl, hbefore, hsign, -, hdigits, hbehind, -, -⟩ := h
  simp only [List.mem_append, not_or]
  refine ⟨fun hmem => ?_, fun hmem => ?_, fun hmem => ?_, fun hmem => ?_⟩
  · exact ne_colon_of_isWhitespace (hbefore _ hmem).2 rfl
  · rcases hsign with rfl | rfl <;> simp at hmem
  · exact absurd (hdigits _ hmem) (by decide)
  · exact ne_colon_of_isWhitespace (hbehind _ hmem) rfl

theorem LengthText.backend (h : LengthText size length) :
    parseUsize (Log73.trim (String.ofList size)) = some length := by
  obtain ⟨before, sign, digits, behind, rfl, hbefore, hsign, hsome, hdigits, hbehind, rfl,
      hlength⟩ := h
  have hkept : ∀ c ∈ sign ++ digits, Log73.isWhitespace c = false := by
    intro c hc
    rcases List.mem_append.mp hc with hc | hc
    · rcases hsign with rfl | rfl
      · cases hc
      · rw [List.mem_singleton.mp hc]
        decide
    · exact (isWhitespace_digit (hdigits c hc)).2
  have htrim : (Log73.trim (String.ofList (before ++ (sign ++ (digits ++ behind))))).toList =
      sign ++ digits := by
    rw [Log73.trim, String.toList_ofList, String.toList_ofList, ← List.append_assoc sign]
    exact Trimming.trimWith_append (fun c hc => (hbefore c hc).2) hkept hbehind
  rw [parseUsize, parseUnsigned, htrim]
  have hparsed := parseDigits_eq hsome hdigits
  have hvalue : (parseDigits digits).filter (· ≤ 18446744073709551615) =
      some (digitsValue digits) := by
    rw [hparsed]
    simp [hlength]
  rcases hsign with rfl | rfl
  · cases digits with
    | nil => exact absurd rfl hsome
    | cons digit digits =>
        rw [List.nil_append]
        split
        · next cs hcs =>
            obtain ⟨rfl, -⟩ := List.cons.inj hcs
            exact absurd (hdigits _ List.mem_cons_self) (by decide)
        · exact hvalue
  · exact hvalue

/-- The frontend reads a length up to the white space behind it. -/
theorem parseInt_length {before sign digits behind : List Char}
    (hbefore : ∀ c ∈ before, IsBlank c) (hsign : sign = [] ∨ sign = ['+']) (hsome : digits ≠ [])
    (hdigits : ∀ c ∈ digits, isAsciiDigit c = true)
    (hbehind : ∀ c ∈ behind, isAsciiDigit c = false)
    (hlength : digitsValue digits ≤ 18446744073709551615) :
    parseInt (String.ofList (before ++ (sign ++ (digits ++ behind)))) =
      some (digitsValue digits : Int) := by
  have htake : (digits ++ behind).takeWhile isAsciiDigit = digits := by
    rw [List.takeWhile_append_of_pos hdigits]
    cases behind with
    | nil => simp
    | cons c behind => simp [hbehind c List.mem_cons_self]
  have hfinite : digitsValue digits < infinite :=
    Nat.lt_of_le_of_lt hlength (by decide +kernel)
  have hvalue : ((parseDigits ((digits ++ behind).takeWhile isAsciiDigit)).filter
      (· < infinite)).map
      Int.ofNat = some (digitsValue digits : Int) := by
    rw [htake, parseDigits_eq hsome hdigits]
    simp [hfinite]
  have hdrop : (before ++ (sign ++ (digits ++ behind))).dropWhile isWhitespace =
      sign ++ (digits ++ behind) := by
    rw [List.dropWhile_append_of_pos fun c hc => (hbefore c hc).1]
    rcases hsign with rfl | rfl
    · cases digits with
      | nil => exact absurd rfl hsome
      | cons digit digits =>
          have hdigit := (isWhitespace_digit (hdigits digit List.mem_cons_self)).1
          simp [hdigit]
    · rfl
  rw [parseInt, String.toList_ofList, hdrop]
  rcases hsign with rfl | rfl
  · cases digits with
    | nil => exact absurd rfl hsome
    | cons digit digits =>
        have hdigit := hdigits digit List.mem_cons_self
        rw [List.nil_append, List.cons_append]
        dsimp only
        split
        · next cs hcs =>
            obtain ⟨rfl, -⟩ := List.cons.inj hcs
            exact absurd hdigit (by decide)
        · next cs hcs =>
            obtain ⟨rfl, -⟩ := List.cons.inj hcs
            exact absurd hdigit (by decide)
        · exact hvalue
  · exact hvalue

end

/-! ### Fields -/

theorem splitOnChar_eq_cons (sep : Char) (cs : List Char) :
    ∃ parts, splitOnChar sep cs = cs.takeWhile (· != sep) :: parts := by
  induction cs with
  | nil => exact ⟨[], rfl⟩
  | cons c cs ih =>
      obtain ⟨parts, hparts⟩ := ih
      rw [splitOnChar, hparts]
      dsimp only
      by_cases hc : c = sep
      · exact ⟨cs.takeWhile (· != sep) :: parts, by simp [hc]⟩
      · exact ⟨parts, by simp [hc]⟩

theorem mem_of_mem_takeWhile {p : Char → Bool} {l front back : List Char}
    (hl : l <+: front ++ back) (hback : ∀ a ∈ back.head?, p a = false) {c : Char}
    (hc : c ∈ l.takeWhile p) : c ∈ front := by
  induction front generalizing l with
  | nil =>
      cases l with
      | nil => cases hc
      | cons a l =>
          obtain ⟨rest, rfl⟩ := hl
          rw [List.takeWhile_cons_of_neg (by simp [hback a rfl])] at hc
          cases hc
  | cons b front ih =>
      cases l with
      | nil => cases hc
      | cons a l =>
          obtain ⟨rfl, hrest⟩ := List.cons_prefix_cons.mp hl
          rw [List.takeWhile_cons] at hc
          split at hc
          · rcases List.mem_cons.mp hc with rfl | hc
            · exact List.mem_cons_self
            · exact List.mem_cons_of_mem _ (ih hrest hc)
          · cases hc

/-- What the frontend trims off a tag's end leaves its number. -/
theorem rdropWhile_length {before sign digits behind : List Char} (hsome : digits ≠ [])
    (hdigits : ∀ c ∈ digits, isAsciiDigit c = true) :
    (before ++ (sign ++ (digits ++ behind))).rdropWhile isWhitespace =
      before ++ (sign ++ (digits ++ behind.rdropWhile isWhitespace)) := by
  obtain ⟨front, digit, rfl⟩ := List.eq_nil_or_concat digits |>.resolve_left hsome
  have hdigit := (isWhitespace_digit (hdigits digit (by simp))).1
  have hpivot := rdropWhile_pivot hdigit (before ++ (sign ++ front)) behind
  simpa using hpivot

section

variable [Platform] {tag name : List Char} {length : Nat}

theorem FieldTag.colon (h : FieldTag tag name length) : ':' ∈ tag := by
  obtain ⟨size, type, rfl, -⟩ := h.text
  simp

theorem FieldTag.name_ne_empty (h : FieldTag tag name length) :
    normalizeFieldName (String.ofList name) ≠ "" := by
  obtain ⟨c, hc, hblank⟩ := h.named
  have hsame : Log73.trimChars name = trimChars name := h.edges.trimWith_eq.symm
  have hcount := Trimming.count_trimWith (l := name) hblank
  have hkept : c ∈ trimChars name := by
    rw [← List.count_pos_iff]
    exact hcount ▸ List.count_pos_iff.mpr hc
  rw [normalizeFieldName, Ne, ← String.toList_eq_nil_iff, String.toList_ofList,
    String.toList_ofList,
    List.map_eq_nil_iff, hsame]
  exact List.ne_nil_of_mem hkept

theorem FieldTag.parsed (h : FieldTag tag name length) :
    parseTag (String.ofList tag) = some (normalizeFieldName (String.ofList name), length) := by
  obtain ⟨size, type, rfl, hsize, htype⟩ := h.text
  have hsplit : ∃ parts, splitOnChar ':' (size ++ type) = size :: parts := by
    rcases htype with rfl | ⟨rest, rfl⟩
    · exact ⟨[], by rw [List.append_nil, splitOnChar_eq_singleton hsize.colon]⟩
    · exact ⟨_, splitOnChar_append hsize.colon rest⟩
  obtain ⟨parts, hparts⟩ := hsplit
  rw [parseTag, String.toList_ofList, splitOnChar_append h.whole, hparts]
  simp only [hsize.backend, Option.map_some]

/-- The colon of a field's tag is in no marker. -/
theorem FieldTag.not_marker (h : FieldTag tag name length) {marker : String}
    (hmarker : ':' ∉ marker.toList) :
    toAsciiUppercase (Log73.trim (String.ofList tag)) ≠ marker := by
  rintro rfl
  apply hmarker
  have hcount := Trimming.count_trimWith (l := tag) (show Log73.isWhitespace ':' = false by decide)
  have hkept : ':' ∈ Log73.trimChars tag := by
    rw [← List.count_pos_iff]
    exact hcount ▸ List.count_pos_iff.mpr h.colon
  rw [toAsciiUppercase, Log73.trim, String.toList_ofList, String.toList_ofList,
    String.toList_ofList]
  exact List.mem_map.mpr ⟨':', hkept, by decide⟩

theorem FieldTag.preview (h : FieldTag tag name length) :
    readTag (trim (String.ofList tag)) =
      .field (normalizeFieldName (String.ofList name)) length := by
  have hname := h.name_ne_empty
  have hnormal := normalizeAdifFieldName_eq h.edges h.chars
  obtain ⟨size, type, rfl, ⟨before, sign, digits, behind, rfl, hbefore, hsign, hsome, hdigits,
    hbehind, rfl, hlength⟩, htype⟩ := h.text
  have hsize : LengthText (before ++ (sign ++ (digits ++ behind))) (digitsValue digits) :=
    ⟨before, sign, digits, behind, rfl, hbefore, hsign, hsome, hdigits, hbehind, rfl, hlength⟩
  -- the tag as it is trimmed: the number stands, what is cut off is white space or data type
  have htrim : (trim (String.ofList (name ++ ':' ::
      (before ++ (sign ++ (digits ++ behind)) ++ type)))).toList =
      name.dropWhile isWhitespace ++ ':' :: (before ++ (sign ++ (digits ++
        (behind ++ type).rdropWhile isWhitespace))) := by
    rw [trim, String.toList_ofList, String.toList_ofList, trimChars_pivot (by decide)]
    simp only [List.append_assoc]
    rw [rdropWhile_length hsome hdigits]
  have hwhole : ':' ∉ name.dropWhile isWhitespace := fun hmem =>
    h.whole ((List.dropWhile_suffix _).subset hmem)
  have hfront : ∀ c ∈ before ++ (sign ++ (digits ++ behind)), (c != ':') = true := fun c hc =>
    bne_iff_ne.mpr fun heq => hsize.colon (heq ▸ hc)
  have htake : (before ++ (sign ++ (digits ++ (behind ++ type).rdropWhile isWhitespace))).takeWhile
      (· != ':') = before ++ (sign ++ (digits ++
        ((behind ++ type).rdropWhile isWhitespace).takeWhile (· != ':'))) := by
    rw [List.takeWhile_append_of_pos fun c hc => hfront c (by simp [hc]),
      List.takeWhile_append_of_pos fun c hc => hfront c (by simp [hc]),
      List.takeWhile_append_of_pos fun c hc => hfront c (by simp [hc])]
  have hrest : ∀ c ∈ ((behind ++ type).rdropWhile isWhitespace).takeWhile (· != ':'),
      isAsciiDigit c = false := by
    intro c hc
    have htail : ∀ a ∈ type.head?, (a != ':') = false := by
      rcases htype with rfl | ⟨rest, rfl⟩
      · simp
      · simp
    have hmem := mem_of_mem_takeWhile (List.rdropWhile_prefix _ _) htail hc
    rw [Bool.eq_false_iff]
    intro hdigit
    exact absurd ((isWhitespace_digit hdigit).2.symm.trans (hbehind c hmem)) (by decide)
  obtain ⟨parts, hparts⟩ := splitOnChar_eq_cons ':'
    (before ++ (sign ++ (digits ++ (behind ++ type).rdropWhile isWhitespace)))
  have hparsed : parseFieldTag (trim (String.ofList (name ++ ':' ::
      (before ++ (sign ++ (digits ++ behind)) ++ type)))) =
      some (normalizeFieldName (String.ofList name), digitsValue digits) := by
    rw [parseFieldTag, htrim, splitOnChar_append hwhole, hparts, htake]
    simp only [hnormal, parseInt_length hbefore hsign hsome hdigits hrest hlength]
    rw [if_neg]
    · rfl
    · simp [hname]
  have hcolon : ':' ∈ (toUpperCase (trim (String.ofList (name ++ ':' ::
      (before ++ (sign ++ (digits ++ behind)) ++ type))))).toList := by
    rw [toUpperCase, toUppercase, String.toList_ofList, htrim]
    exact List.mem_flatMap.mpr ⟨':', by simp, List.mem_singleton.mpr rfl⟩
  rw [readTag, if_neg, if_neg, hparsed]
  · rfl
  · intro heq
    rw [heq] at hcolon
    revert hcolon
    decide
  · intro heq
    rw [heq] at hcolon
    revert hcolon
    decide

end

/-! ### Tags in ASCII -/

theorem isBlank_of_ascii {c : Char} (hascii : c.toNat < 128) (h : Log73.isWhitespace c = true) :
    IsBlank c := ⟨by rw [isWhitespace_eq (by omega), h], h⟩

theorem markerTag_of_ascii {marker : String} {tag : List Char} (hascii : ∀ c ∈ tag, c.toNat < 128)
    (h : toAsciiUppercase (Log73.trim (String.ofList tag)) = marker) : MarkerTag marker tag := by
  obtain ⟨before, behind, hbefore, hbehind, htag⟩ := exists_trimChars tag
  refine ⟨before, Log73.trimChars tag, behind, htag, fun c hc => ?_, fun c hc => ?_, ?_⟩
  · exact isBlank_of_ascii (hascii c (htag ▸ List.mem_append_left _ hc)) (hbefore c hc)
  · refine isBlank_of_ascii (hascii c ?_) (hbehind c hc)
    rw [htag]
    exact List.mem_append_right _ (List.mem_append_right _ hc)
  · rw [← h, toAsciiUppercase, Log73.trim, String.toList_ofList, String.toList_ofList,
      String.toList_ofList]

theorem digits_of_parseDigits {digits : List Char} {value : Nat}
    (h : parseDigits digits = some value) :
    digits ≠ [] ∧ (∀ c ∈ digits, isAsciiDigit c = true) ∧ digitsValue digits = value := by
  rw [parseDigits] at h
  split at h
  · cases h
  · next hdigits =>
      simp only [Bool.or_eq_true, List.isEmpty_iff, Bool.not_eq_true', not_or,
        Bool.not_eq_false, List.all_eq_true] at hdigits
      exact ⟨hdigits.1, hdigits.2, Option.some.inj h⟩

theorem lengthText_of_ascii {size : List Char} {length : Nat} (hascii : ∀ c ∈ size, c.toNat < 128)
    (h : parseUsize (Log73.trim (String.ofList size)) = some length) : LengthText size length := by
  obtain ⟨before, behind, hbefore, hbehind, hsize⟩ := exists_trimChars size
  have hblank : ∀ c ∈ before, IsBlank c := fun c hc =>
    isBlank_of_ascii (hascii c (hsize ▸ List.mem_append_left _ hc)) (hbefore c hc)
  have htrim : (Log73.trim (String.ofList size)).toList = Log73.trimChars size := by
    rw [Log73.trim, String.toList_ofList, String.toList_ofList]
  rw [parseUsize, parseUnsigned, htrim, Option.filter_eq_some_iff] at h
  obtain ⟨hvalue, hlength⟩ := h
  have hle := of_decide_eq_true hlength
  split at hvalue
  · next digits hdigits =>
      obtain ⟨hsome, hall, hlength⟩ := digits_of_parseDigits hvalue
      refine ⟨before, ['+'], digits, behind, ?_, hblank, Or.inr rfl, hsome, hall, hbehind, hlength,
        hle⟩
      rw [hsize, hdigits]
      rfl
  · obtain ⟨hsome, hall, hlength⟩ := digits_of_parseDigits hvalue
    exact ⟨before, [], Log73.trimChars size, behind, hsize, hblank, Or.inl rfl, hsome,
      hall, hbehind,
      hlength, hle⟩

/-- What the backend reads of a tag in ASCII is to be read off its text. -/
theorem fieldTag_of_ascii [Platform] {tag : List Char} {field : String} {length : Nat}
    (hclosed : '>' ∉ tag) (hascii : ∀ c ∈ tag, c.toNat < 128)
    (h : parseTag (String.ofList tag) = some (field, length)) (hfield : field ≠ "") :
    ∃ name, FieldTag tag name length := by
  rw [parseTag, String.toList_ofList] at h
  by_cases hcolon : ':' ∈ tag
  · obtain ⟨name, behind, rfl, hwhole⟩ := List.eq_append_cons_of_mem hcolon
    obtain ⟨parts, hparts⟩ := splitOnChar_eq_cons ':' behind
    have hbehind : ∀ c ∈ behind, c.toNat < 128 := fun c hc => hascii c (by simp [hc])
    have hname : ∀ c ∈ name, c.toNat < 128 := fun c hc => hascii c (by simp [hc])
    have hsame : ∀ c ∈ name, isWhitespace c = Log73.isWhitespace c := fun c hc =>
      isWhitespace_eq (by have := hname c hc; omega)
    rw [splitOnChar_append hwhole, hparts] at h
    obtain ⟨parsed, hsize, heq⟩ := Option.map_eq_some_iff.mp h
    obtain ⟨rfl, rfl⟩ := Prod.mk.inj heq
    refine ⟨name, hclosed, ⟨behind.takeWhile (· != ':'), behind.dropWhile (· != ':'), ?_, ?_, ?_⟩,
      hwhole, ?_, ?_, fun c hc => Or.inl (hname c ?_)⟩
    · rw [List.takeWhile_append_dropWhile]
    · exact lengthText_of_ascii (fun c hc => hbehind c ((List.takeWhile_prefix _).subset hc)) hsize
    · cases hdrop : behind.dropWhile (· != ':') with
      | nil => exact Or.inl rfl
      | cons c rest =>
          have hhead := List.head?_dropWhile_not (· != ':') behind
          rw [hdrop] at hhead
          have hc : c = ':' := by simpa using hhead
          exact Or.inr ⟨rest, by rw [hc]⟩
    · by_contra hnone
      push Not at hnone
      have hnil : Log73.trimChars name = [] := trimChars_eq_nil.mpr fun c hc => by
        rw [← hsame c hc]
        simpa using hnone c hc
      apply hfield
      rw [normalizeFieldName, String.toList_ofList, hnil]
      rfl
    · intro c hfound
      refine hsame c ?_
      rcases hfound with hfound | hfound
      · exact List.mem_of_find?_eq_some hfound
      · exact List.mem_reverse.mp (List.mem_of_find?_eq_some hfound)
    · have hsublist := (List.rdropWhile_prefix isWhitespace (name.dropWhile isWhitespace)).subset hc
      exact (List.dropWhile_suffix _).subset hsublist
  · rw [splitOnChar_eq_singleton hcolon] at h
    cases h

/-! ### What both sides read -/

theorem splitTag_encode {tag : List Char} (htag : '>' ∉ tag) (cs : List Char) :
    splitTag (Utf8.encode (tag ++ '>' :: cs)) = some (Utf8.encode tag, Utf8.encode cs) := by
  have hclosed : '>' ∉ (String.ofList tag).toList := by rwa [String.toList_ofList]
  have hsplit := splitTag_asBytes hclosed (Utf8.encode cs)
  rw [asBytes, String.toList_ofList] at hsplit
  rw [Utf8.encode_append]
  exact hsplit

theorem encode_tag (cs : List Char) :
    Utf8.encode ('<' :: cs) = Adif.lessThan :: Utf8.encode cs := List.flatMap_cons

theorem fromUtf8_encode (cs : List Char) : fromUtf8 (Utf8.encode cs) = some (String.ofList cs) := by
  rw [fromUtf8, Utf8.decode?_encode, Option.map_some]

theorem splitTag_open {cs : List Char} (h : '>' ∉ cs) : splitTag (Utf8.encode cs) = none := by
  have hbytes : ∀ byte ∈ Utf8.encode cs, (byte != Adif.greaterThan) = true := by
    intro byte hmem
    obtain ⟨c, hc, hbyte⟩ := List.mem_flatMap.mp hmem
    refine bne_iff_ne.mpr fun heq => h ?_
    have hcode := Utf8.toNat_of_mem_utf8EncodeChar (heq ▸ hbyte) (by decide)
    exact (Char.toNat_inj.mp hcode : c = '>') ▸ hc
  have hdrop : (Utf8.encode cs).dropWhile (· != Adif.greaterThan) = [] :=
    List.dropWhile_eq_nil_iff.mpr hbytes
  rw [splitTag, hdrop]

theorem encode_cons (c : Char) (cs : List Char) :
    Utf8.encode (c :: cs) = String.utf8EncodeChar c ++ Utf8.encode cs := List.flatMap_cons

theorem lessThan_not_mem {c : Char} (hc : c ≠ '<') :
    Adif.lessThan ∉ String.utf8EncodeChar c := by
  intro hmem
  have hcode := Utf8.toNat_of_mem_utf8EncodeChar hmem (by decide)
  exact hc (Char.toNat_inj.mp hcode)

section

variable [Platform]

/-- What is left of a text is to be read the same way by both sides, up to the end of a record or of
the text. The flags say whether that end comes after a field, whether the header is being read, and
whether a field has been read since it or the record began. -/
inductive ReadAlike : Bool → Bool → Bool → List Char → Prop
  | finish {inHeader filled : Bool} : ReadAlike true inHeader filled []
  | passed {shown inHeader filled : Bool} {c : Char} {cs : List Char} (hc : c ≠ '<')
      (h : ReadAlike shown inHeader filled cs) : ReadAlike shown inHeader filled (c :: cs)
  | header {shown inHeader filled : Bool} {tag cs : List Char} (htag : MarkerTag "EOH" tag)
      (h : ReadAlike shown false (!inHeader && filled) cs) :
      ReadAlike shown inHeader filled ('<' :: (tag ++ '>' :: cs))
  | record {inHeader filled : Bool} {tag cs : List Char} (htag : MarkerTag "EOR" tag) :
      ReadAlike filled inHeader filled ('<' :: (tag ++ '>' :: cs))
  | field {shown inHeader filled : Bool} {tag name value cs : List Char}
      (htag : FieldTag tag name value.length) (hascii : ∀ c ∈ value, c.toNat < 128)
      (h : ReadAlike shown inHeader true cs) :
      ReadAlike shown inHeader filled ('<' :: (tag ++ '>' :: (value ++ cs)))

variable {source rest : List Nat} {s : Scan}

theorem scanFrom_none (h : nextTag source = none) :
    scanFrom source s = s.finish := by
  rw [scanFrom]
  split
  all_goals
    rename_i hsome
    cases h.symm.trans hsome
  rfl

theorem scanFrom_endHeader (h : nextTag source = some (.endHeader, rest)) :
    scanFrom source s = scanFrom rest s.endHeader := by
  rw [scanFrom]
  split
  all_goals
    rename_i hsome
    cases h.symm.trans hsome
  rfl

theorem scanFrom_endRecord (h : nextTag source = some (.endRecord, rest)) :
    scanFrom source s = s.fields := by
  rw [scanFrom]
  split
  all_goals
    rename_i hsome
    cases h.symm.trans hsome
  rfl

theorem scanFrom_ignored (h : nextTag source = some (.ignored, rest)) :
    scanFrom source s = scanFrom rest s := by
  rw [scanFrom]
  split
  all_goals
    rename_i hsome
    cases h.symm.trans hsome
  rfl

theorem scanFrom_field {name : String} {length : Nat}
    (h : nextTag source = some (.field name length, rest)) : scanFrom source s =
      scanFrom (rest.drop length) (s.field name (trimUnits (rest.take length))) := by
  rw [scanFrom]
  split
  all_goals
    rename_i hsome
    cases h.symm.trans hsome
  rfl

theorem scanFrom_congr {other : List Nat} (h : nextTag source = nextTag other) :
    scanFrom source s = scanFrom other s := by
  cases hother : nextTag other with
  | none => rw [scanFrom_none hother, scanFrom_none (h.trans hother)]
  | some next =>
      obtain ⟨tag, rest⟩ := next
      have hsource := h.trans hother
      cases tag with
      | endHeader => rw [scanFrom_endHeader hother, scanFrom_endHeader hsource]
      | endRecord => rw [scanFrom_endRecord hother, scanFrom_endRecord hsource]
      | field name length => rw [scanFrom_field hother, scanFrom_field hsource]
      | ignored => rw [scanFrom_ignored hother, scanFrom_ignored hsource]

/-- What both sides read the same way is shown, unless a record ends before it has a field. -/
theorem scanFrom_shows_iff {shown inHeader filled : Bool} {cs : List Char}
    (halike : ReadAlike shown inHeader filled cs) {r : Reader}
    (hmatches : Matches inHeader filled s r) {first : AdifRecord} {records : List AdifRecord}
    (hfirst : first.fields ≠ []) (hparse : parseFrom (Utf8.encode cs) r = .ok (first :: records)) :
    Shows (scanFrom (units cs) s) first.fields ↔ shown = true := by
  induction halike generalizing s r with
  | finish =>
      rw [Utf8.encode_nil, parseFrom] at hparse
      have hnone : nextTag (units []) = none := rfl
      rw [scanFrom_none hnone]
      exact iff_of_true (hmatches.finish (Except.ok.inj hparse)) rfl
  | @passed _ _ _ c cs hc _ ih =>
      obtain ⟨line, hreads⟩ := reads_text (lessThan_not_mem hc) r
      rw [encode_cons, hreads] at hparse
      rw [scanFrom_congr (nextTag_passed hc cs)]
      have hmatches' : Matches _ _ s { r with line } := ⟨hmatches.reader, hmatches.scan,
        hmatches.pending, hmatches.current, hmatches.records, hmatches.filled, hmatches.early⟩
      exact ih hmatches' hparse
  | @header _ _ _ tag cs htag _ ih =>
      have hletters : ∀ c ∈ "EOH".toList, 65 ≤ c.toNat ∧ c.toNat ≤ 90 := by decide
      have hclosed := htag.closed hletters
      have hnext := nextTag_units hclosed cs
      rw [readTag, if_pos (htag.preview hletters)] at hnext
      rw [encode_tag, parseFrom_endHeader r (splitTag_encode hclosed cs) (fromUtf8_encode tag)
        (htag.backend hletters)] at hparse
      rw [scanFrom_endHeader hnext]
      exact ih (hmatches.passed _).endHeader hparse
  | @record _ filled tag cs htag =>
      have hletters : ∀ c ∈ "EOR".toList, 65 ≤ c.toNat ∧ c.toNat ≤ 90 := by decide
      have hclosed := htag.closed hletters
      have hpreview := htag.preview hletters
      have hnext := nextTag_units hclosed cs
      rw [readTag, if_neg (by rw [hpreview]; decide), if_pos hpreview] at hnext
      rw [encode_tag, parseFrom_endRecord r (splitTag_encode hclosed cs) (fromUtf8_encode tag)
        (htag.backend hletters)] at hparse
      rw [scanFrom_endRecord hnext]
      have hfields := hmatches.fields
      cases filled with
      | true =>
          obtain ⟨line, hrecords⟩ := (hmatches.passed (Utf8.encode tag)).endRecord r.line
          have hprefix := prefix_of_parseFrom hparse
          rw [hrecords, List.cons_prefix_cons] at hprefix
          rw [← hprefix.1]
          exact iff_of_true hfields rfl
      | false =>
          have hempty := not_not.mp (mt hmatches.filled.mp (by decide))
          have hnil := hfields.eq_nil_iff.mpr hempty
          refine iff_of_false (fun hshows => hfirst (hshows.eq_nil_iff.mp hnil)) (by decide)
  | @field _ _ _ tag name value cs htag hascii _ ih =>
      have hnext := nextTag_units htag.closed (value ++ cs)
      have hvalue : (Utf8.encode value).length = value.length := by
        rw [Utf8.encode_ascii hascii, List.length_map]
      have hunits : (units value).length = value.length :=
        units_length fun c hmem => (hascii c hmem).trans (by decide)
      have hsplit := splitTag_encode htag.closed (value ++ cs)
      rw [htag.preview, units_append] at hnext
      rw [Utf8.encode_append value] at hsplit
      rw [encode_tag, parseFrom_field r hsplit (fromUtf8_encode tag) (htag.not_marker (by decide))
        (htag.not_marker (by decide)) (hvalue ▸ htag.parsed) (fromUtf8_encode value)
        htag.name_ne_empty] at hparse
      rw [scanFrom_field hnext, ← hunits, List.drop_left, List.take_left, trimUnits_ascii hascii]
      exact ih (((hmatches.passed _).passed _).field _ _ _) hparse

/-- What the backend accepts in ASCII both sides read the same way. -/
theorem readAlike_of_ascii {cs : List Char} (hascii : ∀ c ∈ cs, c.toNat < 128)
    (inHeader filled : Bool) {r : Reader} {records : List AdifRecord}
    (h : parseFrom (Utf8.encode cs) r = .ok records) :
    ∃ shown, ReadAlike shown inHeader filled cs := by
  induction hlength : cs.length using Nat.strong_induction_on generalizing cs inHeader filled r with
  | _ _ ih =>
  subst hlength
  cases cs with
  | nil => exact ⟨true, .finish⟩
  | cons c cs =>
      by_cases hc : c = '<'
      · subst hc
        rw [encode_tag] at h
        by_cases hclosed : '>' ∈ cs
        · obtain ⟨tag, rest, rfl, htag⟩ := List.eq_append_cons_of_mem hclosed
          have hsplit := splitTag_encode htag rest
          have hrest : ∀ c ∈ rest, c.toNat < 128 := fun c hc => hascii c (by simp [hc])
          have hascii : ∀ c ∈ tag, c.toNat < 128 := fun c hc => hascii c (by simp [hc])
          have hshorter : rest.length < ('<' :: (tag ++ '>' :: rest)).length := by
            simp only [List.length_cons, List.length_append]
            omega
          by_cases hheader : toAsciiUppercase (Log73.trim (String.ofList tag)) = "EOH"
          · rw [parseFrom_endHeader r hsplit (fromUtf8_encode tag) hheader] at h
            obtain ⟨shown, halike⟩ := ih _ hshorter hrest false (!inHeader && filled) h rfl
            exact ⟨shown, .header (markerTag_of_ascii hascii hheader) halike⟩
          · by_cases hrecord : toAsciiUppercase (Log73.trim (String.ofList tag)) = "EOR"
            · exact ⟨filled, .record (markerTag_of_ascii hascii hrecord)⟩
            · obtain ⟨field, length, r', hparsed, hlong, hfield, h⟩ :=
                exists_field_of_parseFrom r hsplit (fromUtf8_encode tag) hheader hrecord h
              obtain ⟨name, hname⟩ := fieldTag_of_ascii htag hascii hparsed hfield
              rw [Utf8.encode_ascii hrest, List.length_map] at hlong
              rw [Utf8.encode_ascii hrest, ← List.map_drop, ← Utf8.encode_ascii] at h
              · have hbehind : ∀ c ∈ rest.drop length, c.toNat < 128 := fun c hc =>
                  hrest c (List.mem_of_mem_drop hc)
                have hleft : (rest.drop length).length <
                    ('<' :: (tag ++ '>' :: rest)).length := by
                  rw [List.length_drop]
                  omega
                obtain ⟨shown, halike⟩ := ih _ hleft hbehind inHeader true h rfl
                have hsize : (rest.take length).length = length := by
                  rw [List.length_take, min_eq_left hlong]
                refine ⟨shown, ?_⟩
                rw [← List.take_append_drop length rest]
                exact .field (hsize.symm ▸ hname) (fun c hc => hrest c (List.mem_of_mem_take hc))
                  halike
              · exact fun c hc => hrest c (List.mem_of_mem_drop hc)
        · rw [parseFrom_unterminated r (splitTag_open hclosed)] at h
          cases h
      · rw [encode_cons] at h
        obtain ⟨line, hreads⟩ := reads_text (lessThan_not_mem hc) r
        rw [hreads] at h
        obtain ⟨shown, halike⟩ := ih _ (Nat.lt_succ_self _)
          (fun c hc => hascii c (List.mem_cons_of_mem _ hc)) inHeader filled h rfl
        exact ⟨shown, .passed hc halike⟩

/-- The preview of a text that both sides read the same way shows the first record there is, exactly
if no end of a record comes before the first field. Every text in ASCII is such a text. -/
theorem parseFirstAdifRecord_shows_iff {text : String} {first : AdifRecord}
    {records : List AdifRecord} (hparse : parseRecords text = .ok (first :: records)) :
    (∀ shown, ReadAlike shown true false text.toList →
      (Shows (parseFirstAdifRecord text) first.fields ↔ shown = true)) ∧
    ((∀ c ∈ text.toList, c.toNat < 128) → ∃ shown, ReadAlike shown true false text.toList) := by
  constructor
  · intro shown halike
    have hfilled : Reader.Filled {} := fun _ hmem => absurd hmem List.not_mem_nil
    have hfirst := filled_of_parseFrom hfilled hparse first List.mem_cons_self
    exact scanFrom_shows_iff halike matches_start hfirst hparse
  · intro hascii
    exact readAlike_of_ascii hascii true false hparse

end

attribute [local instance] asciiPlatform

/-- A record that ends behind one field. -/
def callText : String := "<CALL:4>W1AW<EOR>"

theorem parseFrom_call (r : Reader) (rest : List UInt8) :
    parseFrom (asBytes "<CALL:4>W1AW" ++ rest) r = parseFrom rest
      (((r.passed (asBytes "CALL:4")).passed (asBytes "W1AW")).field r.line "CALL" "W1AW") := by
  have htext : asBytes "<CALL:4>W1AW" =
      Adif.lessThan :: (asBytes "CALL:4" ++ Adif.greaterThan :: asBytes "W1AW") := by decide
  have hsplit := splitTag_asBytes (show '>' ∉ "CALL:4".toList by decide) (asBytes "W1AW" ++ rest)
  have hparsed : parseTag "CALL:4" = some ("CALL", (asBytes "W1AW").length) := by decide +kernel
  rw [htext, List.cons_append, List.append_assoc, List.cons_append, parseFrom_field r hsplit
    (fromUtf8_asBytes _) (by decide +kernel) (by decide +kernel) hparsed (fromUtf8_asBytes _)
    (by decide)]
  rfl

theorem parseRecords_call : parseRecords callText = .ok [⟨1, [("CALL", "W1AW")]⟩] := by
  have htext : asBytes callText = asBytes "<CALL:4>W1AW" ++
      asBytes ("<" ++ "EOR" ++ ">") ++ [] := by
    decide
  rw [parseRecords, htext, List.append_assoc, parseFrom_call, parseFrom_eor (by decide) (by decide),
    parseFrom]
  rfl

theorem parseFirstAdifRecord_shows_iff_call :
    parseRecords callText = .ok [⟨1, [("CALL", "W1AW")]⟩] ∧
    (Shows (parseFirstAdifRecord callText) [("CALL", "W1AW")] ↔ true = true) := by
  obtain ⟨hshows, hascii⟩ := parseFirstAdifRecord_shows_iff parseRecords_call
  have hsize : LengthText "4".toList 4 :=
    ⟨[], [], ['4'], [], rfl, by decide, Or.inl rfl, by decide, by decide, by decide, rfl, by decide⟩
  have hchars : ∀ c ∈ trimChars "CALL".toList, c.toNat < 128 := by decide
  have hedges : Trimming.EdgesAlike isWhitespace Log73.isWhitespace "CALL".toList :=
    Trimming.edgesAlike_of_count fun a _ => congrArg (List.count a)
      (show Trimming.trimWith isWhitespace _ = Trimming.trimWith Log73.isWhitespace _ by decide)
  have hcall : FieldTag "CALL:4".toList "CALL".toList "W1AW".toList.length :=
    ⟨by decide, ⟨"4".toList, [], rfl, hsize, Or.inl rfl⟩, by decide,
      ⟨'C', List.mem_cons_self, by decide⟩, hedges,
      fun c hc => Or.inl (hchars c hc)⟩
  have heor : MarkerTag "EOR" "EOR".toList := ⟨[], "EOR".toList, [], rfl, by decide, by decide, rfl⟩
  exact ⟨parseRecords_call, hshows true (.field hcall (by decide) (.record heor))⟩

/-- The last letter of the name is two bytes and one code unit. -/
def accentedText : String := "<NAME:5>José<CALL:4>W1AW<EOR>"

theorem parseRecords_accented :
    parseRecords accentedText = .ok [⟨1, [("CALL", "W1AW"), ("NAME", "José")]⟩] := by
  have htext : asBytes accentedText = Adif.lessThan :: (asBytes "NAME:5" ++ Adif.greaterThan ::
      (asBytes "José" ++ (asBytes "<CALL:4>W1AW" ++ (asBytes ("<" ++ "EOR" ++ ">") ++ [])))) := by
    decide
  have hparsed : parseTag "NAME:5" = some ("NAME", (asBytes "José").length) := by decide +kernel
  rw [parseRecords, htext, parseFrom_field {} (splitTag_asBytes (by decide) _) (fromUtf8_asBytes _)
    (by decide +kernel) (by decide +kernel) hparsed (fromUtf8_asBytes _) (by decide),
    parseFrom_call, parseFrom_eor (by decide) (by decide), parseFrom]
  rfl

theorem parseFirstAdifRecord_accented :
    parseFirstAdifRecord accentedText = [("NAME", units "José<".toList)] := by
  have hname : nextTag (units accentedText.toList) =
      some (.field "NAME" 5, units "José<CALL:4>W1AW<EOR>".toList) := by
    decide +kernel
  have heor : nextTag ((units "José<CALL:4>W1AW<EOR>".toList).drop 5) = some (.endRecord, []) := by
    decide +kernel
  rw [parseFirstAdifRecord, scanFrom_field hname, scanFrom_endRecord heor]
  decide +kernel

/-- The preview of a name with an accent takes the bracket of the next tag for its end. -/
theorem not_shows_accented : ∃ first, parseRecords accentedText = .ok [first] ∧
    ¬Shows (parseFirstAdifRecord accentedText) first.fields := by
  refine ⟨_, parseRecords_accented, fun h => ?_⟩
  have hcall := h "CALL"
  rw [parseFirstAdifRecord_accented] at hcall
  cases hcall

end Log73.Frontend.AdifImport
