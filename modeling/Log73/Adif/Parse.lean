import Log73.Adif.Render

/-!
The ADIF reader (`adif.rs`): a scan over the bytes of the text, tag by tag, where a tag
says how many bytes of value follow it. What is not yet read stands for the index.
-/

namespace Log73

open SortedAssoc

def fromUtf8 (bytes : List UInt8) : Option String := (Utf8.decode? bytes).map String.ofList

namespace Adif

structure AdifRecord where
  line : Nat
  fields : AdifFields

/-- The variables of the scan. -/
structure Reader where
  line : Nat := 1
  inHeader : Bool := true
  pending : AdifFields := []
  pendingLine : Option Nat := none
  current : AdifFields := []
  currentLine : Option Nat := none
  records : List AdifRecord := []

def lessThan : UInt8 := 60
def greaterThan : UInt8 := 62
def newline : UInt8 := 10

def newlines (bytes : List UInt8) : Nat := bytes.count newline

namespace Reader

def passed (r : Reader) (bytes : List UInt8) : Reader :=
  { r with line := r.line + newlines bytes }

def endHeader (r : Reader) : Reader :=
  { r with inHeader := false, pending := [], pendingLine := none }

def endRecord (r : Reader) (tagLine : Nat) : Reader :=
  if r.inHeader then
    if r.pending.isEmpty then r
    else { r with
      records := r.records ++ [⟨r.pendingLine.getD tagLine, r.pending⟩]
      pending := [] }
  else if r.current.isEmpty then r
  else { r with
    records := r.records ++ [⟨r.currentLine.getD tagLine, r.current⟩]
    current := []
    currentLine := none }

def field (r : Reader) (tagLine : Nat) (name value : String) : Reader :=
  if r.inHeader then { r with
    pendingLine := if r.pending.isEmpty then some tagLine else r.pendingLine
    pending := insert r.pending name value }
  else { r with
    currentLine := if r.current.isEmpty then some tagLine else r.currentLine
    current := insert r.current name value }

/-- A record that the text does not close is kept. -/
def finish (r : Reader) : List AdifRecord :=
  if !r.current.isEmpty then r.records ++ [⟨r.currentLine.getD r.line, r.current⟩]
  else if r.inHeader && !r.pending.isEmpty then
    r.records ++ [⟨r.pendingLine.getD r.line, r.pending⟩]
  else r.records

end Reader

def parseTag (tag : String) : Option (String × Nat) :=
  match splitOnChar ':' tag.toList with
  | name :: length :: _ =>
      (parseUsize (trim (String.ofList length))).map fun length =>
        (normalizeFieldName (String.ofList name), length)
  | _ => none

/-- The bytes up to the end of a tag and those behind it. -/
def splitTag (bytes : List UInt8) : Option (List UInt8 × List UInt8) :=
  match bytes.dropWhile (· != greaterThan) with
  | [] => none
  | _ :: rest => some (bytes.takeWhile (· != greaterThan), rest)

theorem length_splitTag {bytes tag rest : List UInt8} (h : splitTag bytes = some (tag, rest)) :
    rest.length < bytes.length := by
  rw [splitTag] at h
  split at h
  · cases h
  · next hdrop =>
      cases h
      have hlength := List.length_dropWhile_le (· != greaterThan) bytes
      rw [hdrop, List.length_cons] at hlength
      omega

/-- Where an error is reported. -/
def atLine (line : Nat) (message : String) : String := "line " ++ line.repr ++ ": " ++ message

def parseFrom (bytes : List UInt8) (r : Reader) : Except String (List AdifRecord) :=
  match bytes with
  | [] => .ok r.finish
  | byte :: bytes =>
      if byte ≠ lessThan then parseFrom bytes (r.passed [byte])
      else match _hsplit : splitTag bytes with
        | none => .error (atLine r.line "unterminated ADIF tag")
        | some (tagBytes, rest) =>
            match fromUtf8 tagBytes with
            | none => .error (atLine r.line "ADIF tag is not valid UTF-8")
            | some tag =>
                if toAsciiUppercase (trim tag) = "EOH" then
                  parseFrom rest (r.passed tagBytes).endHeader
                else if toAsciiUppercase (trim tag) = "EOR" then
                  parseFrom rest ((r.passed tagBytes).endRecord r.line)
                else match parseTag tag with
                  | none => .error (atLine r.line ("invalid ADIF tag <" ++ tag ++ ">"))
                  | some (name, length) =>
                      if rest.length < length then
                        .error (atLine r.line ("ADIF field " ++ name ++ " is truncated"))
                      else match fromUtf8 (rest.take length) with
                        | none =>
                            .error (atLine r.line ("ADIF field " ++ name ++ " is not valid UTF-8"))
                        | some text =>
                            if name = "" then .error (atLine r.line "ADIF field name is empty")
                            else parseFrom (rest.drop length)
                              (((r.passed tagBytes).passed (rest.take length)).field r.line name
                                (trim text))
termination_by bytes.length
decreasing_by
  · exact Nat.lt_succ_self _
  · exact Nat.lt_succ_of_lt (length_splitTag _hsplit)
  · exact Nat.lt_succ_of_lt (length_splitTag _hsplit)
  · have hlength := length_splitTag _hsplit
    rw [List.length_drop, List.length_cons]
    omega

def parseRecords (text : String) : Except String (List AdifRecord) := parseFrom (asBytes text) {}

section Tags

variable {bytes tagBytes rest : List UInt8} {tag : String} (r : Reader)

theorem parseFrom_endHeader (hsplit : splitTag bytes = some (tagBytes, rest))
    (htag : fromUtf8 tagBytes = some tag) (hmarker : toAsciiUppercase (trim tag) = "EOH") :
    parseFrom (lessThan :: bytes) r = parseFrom rest (r.passed tagBytes).endHeader := by
  rw [parseFrom, if_neg (fun h => h rfl)]
  split
  · next hnone =>
      rw [hsplit] at hnone
      cases hnone
  · next _ _ hsome =>
      rw [hsplit] at hsome
      cases hsome
      rw [htag]
      exact if_pos hmarker

theorem parseFrom_endRecord (hsplit : splitTag bytes = some (tagBytes, rest))
    (htag : fromUtf8 tagBytes = some tag) (hmarker : toAsciiUppercase (trim tag) = "EOR") :
    parseFrom (lessThan :: bytes) r = parseFrom rest ((r.passed tagBytes).endRecord r.line) := by
  rw [parseFrom, if_neg (fun h => h rfl)]
  split
  · next hnone =>
      rw [hsplit] at hnone
      cases hnone
  · next _ _ hsome =>
      rw [hsplit] at hsome
      cases hsome
      rw [htag]
      exact (if_neg (by rw [hmarker]; decide)).trans (if_pos hmarker)

/-- A tag that ends nothing is that of a field, whose value is behind it. -/
theorem parseFrom_field {value : List UInt8} {name text : String}
    (hsplit : splitTag bytes = some (tagBytes, value ++ rest))
    (htag : fromUtf8 tagBytes = some tag) (hheader : toAsciiUppercase (trim tag) ≠ "EOH")
    (hrecord : toAsciiUppercase (trim tag) ≠ "EOR")
    (hfield : parseTag tag = some (name, value.length)) (htext : fromUtf8 value = some text)
    (hname : name ≠ "") :
    parseFrom (lessThan :: bytes) r =
      parseFrom rest (((r.passed tagBytes).passed value).field r.line name (trim text)) := by
  have hlong : ¬(value ++ rest).length < value.length := by
    rw [List.length_append]
    omega
  rw [parseFrom, if_neg (fun h => h rfl)]
  split
  · next hnone =>
      rw [hsplit] at hnone
      cases hnone
  · next _ _ hsome =>
      rw [hsplit] at hsome
      cases hsome
      rw [htag]
      simp only [if_neg hheader, if_neg hrecord, hfield, if_neg hlong, List.take_left,
        List.drop_left, htext, if_neg hname]

theorem parseFrom_unterminated (hsplit : splitTag bytes = none) :
    parseFrom (lessThan :: bytes) r = .error (atLine r.line "unterminated ADIF tag") := by
  rw [parseFrom, if_neg (fun h => h rfl)]
  split
  · rfl
  · next _ _ hsome =>
      rw [hsplit] at hsome
      cases hsome

/-- A tag that is accepted and ends nothing is that of a field. -/
theorem exists_field_of_parseFrom {records : List AdifRecord}
    (hsplit : splitTag bytes = some (tagBytes, rest)) (htag : fromUtf8 tagBytes = some tag)
    (hheader : toAsciiUppercase (trim tag) ≠ "EOH") (hrecord : toAsciiUppercase (trim tag) ≠ "EOR")
    (h : parseFrom (lessThan :: bytes) r = .ok records) :
    ∃ name length r', parseTag tag = some (name, length) ∧ length ≤ rest.length ∧ name ≠ "" ∧
      parseFrom (rest.drop length) r' = .ok records := by
  rw [parseFrom, if_neg (fun h => h rfl)] at h
  split at h
  · cases h
  · next _ _ hsome =>
      rw [hsplit] at hsome
      cases hsome
      simp only [htag, if_neg hheader, if_neg hrecord] at h
      cases hfield : parseTag tag with
      | none =>
          rw [hfield] at h
          cases h
      | some parsed =>
          obtain ⟨name, length⟩ := parsed
          simp only [hfield] at h
          by_cases hshort : rest.length < length
          · rw [if_pos hshort] at h
            cases h
          · rw [if_neg hshort] at h
            cases htext : fromUtf8 (rest.take length) with
            | none =>
                rw [htext] at h
                cases h
            | some text =>
                simp only [htext] at h
                by_cases hname : name = ""
                · rw [if_pos hname] at h
                  cases h
                · rw [if_neg hname] at h
                  exact ⟨name, length, _, rfl, Nat.le_of_not_lt hshort, hname, h⟩

end Tags

/-- What the turns of the scan keep holds of the reader it ends with. -/
theorem parseFrom_keeps {P : Reader → Prop} (hpassed : ∀ r bytes, P r → P (r.passed bytes))
    (hheader : ∀ r, P r → P r.endHeader) (hrecord : ∀ r line, P r → P (r.endRecord line))
    (hfield : ∀ r line name value, P r → P (r.field line name value)) {bytes : List UInt8}
    {r : Reader} {records : List AdifRecord} (hr : P r) (h : parseFrom bytes r = .ok records) :
    ∃ r', P r' ∧ records = r'.finish := by
  fun_induction parseFrom bytes r with
  | case1 r =>
      cases h
      exact ⟨r, hr, rfl⟩
  | case2 r byte rest hbyte ih => exact ih (hpassed _ _ hr) h
  | case5 r byte tail hbyte tagBytes rest hsplit tag htag hmarker ih =>
      exact ih (hheader _ (hpassed _ _ hr)) h
  | case6 r byte tail hbyte tagBytes rest hsplit tag htag hmarker hmarker' ih =>
      exact ih (hrecord _ _ (hpassed _ _ hr)) h
  | case11 r byte tail hbyte tagBytes rest hsplit tag htag hmarker hmarker' name length
      hfield' hlong
      value htext hname ih =>
      exact ih (hfield _ _ _ _ (hpassed _ _ (hpassed _ _ hr))) h
  | _ => cases h

namespace Reader

theorem prefix_endRecord (r : Reader) (line : Nat) : r.records <+: (r.endRecord line).records := by
  rw [endRecord]
  split_ifs <;> simp

theorem prefix_finish (r : Reader) : r.records <+: r.finish := by
  rw [finish]
  split_ifs <;> simp

theorem records_field (r : Reader) (line : Nat) (name value : String) :
    (r.field line name value).records = r.records := by
  rw [field]
  split <;> rfl

/-- Every record that was read has fields. -/
def Filled (r : Reader) : Prop := ∀ record ∈ r.records, record.fields ≠ []

theorem Filled.push {r : Reader} (h : r.Filled) {line : Nat} {fields : AdifFields}
    (hfields : fields ≠ []) : ∀ record ∈ r.records ++ [⟨line, fields⟩], record.fields ≠ [] := by
  intro record hmem
  rcases List.mem_append.mp hmem with hmem | hmem
  · exact h record hmem
  · rw [List.mem_singleton.mp hmem]
    exact hfields

theorem Filled.endRecord {r : Reader} (h : r.Filled) (line : Nat) : (r.endRecord line).Filled := by
  rw [Reader.endRecord]
  split_ifs with _ hpending hcurrent
  · exact h
  · exact h.push fun hnil => hpending (List.isEmpty_iff.mpr hnil)
  · exact h
  · exact h.push fun hnil => hcurrent (List.isEmpty_iff.mpr hnil)

theorem Filled.finish {r : Reader} (h : r.Filled) : ∀ record ∈ r.finish, record.fields ≠ [] := by
  rw [Reader.finish]
  split_ifs with hcurrent hpending
  · exact h.push fun hnil => by simp [hnil] at hcurrent
  · exact h.push fun hnil => by simp [hnil] at hpending
  · exact h

end Reader

/-- What was read stays read. -/
theorem prefix_of_parseFrom {bytes : List UInt8} {r : Reader} {records : List AdifRecord}
    (h : parseFrom bytes r = .ok records) : r.records <+: records := by
  obtain ⟨r', hprefix, rfl⟩ := parseFrom_keeps (P := fun r' => r.records <+: r'.records)
    (fun _ _ h => h) (fun _ h => h) (fun r' line h => h.trans (r'.prefix_endRecord line))
    (fun r' line name value h => by rwa [r'.records_field line name value]) (List.prefix_refl _) h
  exact hprefix.trans r'.prefix_finish

theorem filled_of_parseFrom {bytes : List UInt8} {r : Reader} {records : List AdifRecord}
    (hr : r.Filled) (h : parseFrom bytes r = .ok records) :
    ∀ record ∈ records, record.fields ≠ [] := by
  obtain ⟨r', hfilled, rfl⟩ := parseFrom_keeps (P := Reader.Filled) (fun _ _ h => h)
    (fun _ h => h) (fun _ line h => h.endRecord line)
    (fun r' line name value h => by rwa [Reader.Filled, r'.records_field line name value]) hr h
  exact hfilled.finish

end Adif

end Log73
