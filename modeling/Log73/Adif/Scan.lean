import Log73.Adif.Parse
import Log73.Library.Ranges

/-!
`parse_records` of `adif.rs` in the arithmetic of the machine: the scan goes over the bytes by
their index, and a sum that does not fit or a slice out of range ends the program (`none`). The
reader of `Parse` is what it computes while the sums fit.
-/

namespace Log73.Adif

/-- Lines are counted byte by byte. -/
def countLine (build : Build) (byte : UInt8) (line : Nat) : Option Nat :=
  if byte = newline then addUsize build line 1 else some line

/-- The inner loop, which goes to the end of a tag; `rest` are the bytes from the index on. -/
def skipTag (build : Build) : List UInt8 → Nat → Nat → Option (Nat × Nat × List UInt8)
  | [], index, line => some (index, line, [])
  | byte :: rest, index, line =>
      if byte = greaterThan then some (index, line, byte :: rest)
      else
        (countLine build byte line).bind fun line =>
          (addUsize build index 1).bind fun index => skipTag build rest index line

theorem length_skipTag {build : Build} {rest rest' : List UInt8} {index line index' line' : Nat}
    (h : skipTag build rest index line = some (index', line', rest')) :
    rest'.length ≤ rest.length := by
  induction rest generalizing index line with
  | nil =>
      cases h
      exact Nat.le_refl _
  | cons byte rest ih =>
      rw [skipTag] at h
      split at h
      · cases h
        exact Nat.le_refl _
      · obtain ⟨_, _, h⟩ := Option.bind_eq_some_iff.mp h
        obtain ⟨_, _, h⟩ := Option.bind_eq_some_iff.mp h
        exact (ih h).trans (Nat.le_succ _)

/-- How one pass through the body of the outer loop ends. -/
inductive Turn where
  | done (result : Except String (List AdifRecord))
  | next (rest : List UInt8) (index : Nat) (r : Reader)

/-- The part of the loop body behind a tag; `rest` are the bytes from the index on. -/
def turnTag (build : Build) (bytes rest : List UInt8) (index line : Nat) (r : Reader)
    (tag : String) : Option Turn :=
  if toAsciiUppercase (trim tag) = "EOH" then
    some (.next rest index { r with line := line }.endHeader)
  else if toAsciiUppercase (trim tag) = "EOR" then
    some (.next rest index ({ r with line := line }.endRecord r.line))
  else
    match parseTag tag with
    | none => some (.done (.error (atLine r.line ("invalid ADIF tag <" ++ tag ++ ">"))))
    | some (name, length) =>
        (addUsize build index length).bind fun stop =>
          if bytes.length < stop then
            some (.done (.error (atLine r.line ("ADIF field " ++ name ++ " is truncated"))))
          else
            (Ranges.slice? bytes index stop).bind fun valueBytes =>
              match fromUtf8 valueBytes with
              | none =>
                  some (.done
                    (.error (atLine r.line ("ADIF field " ++ name ++ " is not valid UTF-8"))))
              | some text =>
                  (addUsize build line (newlines valueBytes)).bind fun line =>
                    if name = "" then
                      some (.done (.error (atLine r.line "ADIF field name is empty")))
                    else
                      some (.next (rest.drop length) stop
                        ({ r with line := line }.field r.line name (trim text)))

/-- The body of the outer loop over the text `bytes`. The index has always moved past the start
of a tag, so the last lines of the body do nothing. -/
def turn (build : Build) (bytes rest : List UInt8) (index : Nat) (r : Reader) : Option Turn :=
  match rest with
  | [] => some (.done (.ok r.finish))
  | byte :: rest =>
      if byte ≠ lessThan then
        (countLine build byte r.line).bind fun line =>
          (addUsize build index 1).map fun index => .next rest index { r with line := line }
      else
        (addUsize build index 1).bind fun tagContentStart =>
          (skipTag build rest tagContentStart r.line).bind fun
            | (_, _, []) => some (.done (.error (atLine r.line "unterminated ADIF tag")))
            | (index, line, _ :: rest) =>
                (Ranges.slice? bytes tagContentStart index).bind fun tagBytes =>
                  match fromUtf8 tagBytes with
                  | none => some (.done (.error (atLine r.line "ADIF tag is not valid UTF-8")))
                  | some tag =>
                      (addUsize build index 1).bind fun index =>
                        turnTag build bytes rest index line r tag

theorem length_turnTag {build : Build} {bytes rest rest' : List UInt8} {index line index' : Nat}
    {r r' : Reader} {tag : String}
    (h : turnTag build bytes rest index line r tag = some (.next rest' index' r')) :
    rest'.length ≤ rest.length := by
  rw [turnTag] at h
  split at h
  · cases h
    exact Nat.le_refl _
  · split at h
    · cases h
      exact Nat.le_refl _
    · split at h
      · cases h
      · obtain ⟨stop, _, h⟩ := Option.bind_eq_some_iff.mp h
        split at h
        · cases h
        · obtain ⟨valueBytes, _, h⟩ := Option.bind_eq_some_iff.mp h
          split at h
          · cases h
          · obtain ⟨line, _, h⟩ := Option.bind_eq_some_iff.mp h
            split at h
            · cases h
            · cases h
              rw [List.length_drop]
              exact Nat.sub_le _ _

/-- Every pass leaves less of the text ahead. -/
theorem length_turn {build : Build} {bytes rest rest' : List UInt8} {index index' : Nat}
    {r r' : Reader} (h : turn build bytes rest index r = some (.next rest' index' r')) :
    rest'.length < rest.length := by
  cases rest with
  | nil => cases h
  | cons byte rest =>
      rw [turn] at h
      split at h
      · obtain ⟨line, _, h⟩ := Option.bind_eq_some_iff.mp h
        obtain ⟨index, _, h⟩ := Option.map_eq_some_iff.mp h
        cases h
        exact Nat.lt_succ_self _
      · obtain ⟨start, _, h⟩ := Option.bind_eq_some_iff.mp h
        obtain ⟨⟨index, line, behind⟩, hskip, h⟩ := Option.bind_eq_some_iff.mp h
        have hbehind := length_skipTag hskip
        cases behind with
        | nil => cases h
        | cons _ behind =>
            obtain ⟨tagBytes, _, h⟩ := Option.bind_eq_some_iff.mp h
            split at h
            · cases h
            · obtain ⟨index, _, h⟩ := Option.bind_eq_some_iff.mp h
              exact Nat.lt_succ_of_le ((length_turnTag h).trans ((Nat.le_succ _).trans hbehind))

def scan (build : Build) (bytes rest : List UInt8) (index : Nat) (r : Reader) :
    Option (Except String (List AdifRecord)) :=
  match _hturn : turn build bytes rest index r with
  | none => none
  | some (.done result) => some result
  | some (.next rest index r) => scan build bytes rest index r
termination_by rest.length
decreasing_by exact length_turn _hturn

def parseRecordsOn (build : Build) (text : String) : Option (Except String (List AdifRecord)) :=
  scan build (asBytes text) (asBytes text) 0 {}

def IsMarker (tag : String) : Prop :=
  toAsciiUppercase (trim tag) = "EOH" ∨ toAsciiUppercase (trim tag) = "EOR"

/-- A field that the scan comes to declares a length that does not fit behind the index: what is
in front of it are bytes outside tags, markers and complete fields. -/
inductive Overflows : Nat → List UInt8 → Prop
  | plain {index : Nat} {byte : UInt8} {bytes : List UInt8} (hbyte : byte ≠ lessThan) :
      Overflows (index + 1) bytes → Overflows index (byte :: bytes)
  | marker {index : Nat} {bytes tagBytes rest : List UInt8} {tag : String}
      (hsplit : splitTag bytes = some (tagBytes, rest)) (htag : fromUtf8 tagBytes = some tag)
      (hmarker : IsMarker tag) :
      Overflows (index + tagBytes.length + 2) rest → Overflows index (lessThan :: bytes)
  | field {index : Nat} {bytes tagBytes rest : List UInt8} {tag name text : String} {length : Nat}
      (hsplit : splitTag bytes = some (tagBytes, rest)) (htag : fromUtf8 tagBytes = some tag)
      (hmarker : ¬IsMarker tag) (hfield : parseTag tag = some (name, length))
      (hlength : length ≤ rest.length) (htext : fromUtf8 (rest.take length) = some text)
      (hname : name ≠ "") :
      Overflows (index + tagBytes.length + 2 + length) (rest.drop length) →
        Overflows index (lessThan :: bytes)
  | here {index : Nat} {bytes tagBytes rest : List UInt8} {tag name : String} {length : Nat}
      (hsplit : splitTag bytes = some (tagBytes, rest)) (htag : fromUtf8 tagBytes = some tag)
      (hmarker : ¬IsMarker tag) (hfield : parseTag tag = some (name, length))
      (hsum : usizeMax < index + tagBytes.length + 2 + length) :
      Overflows index (lessThan :: bytes)

section Sums

variable {build : Build}

theorem addUsize_of_le {a b : Nat} (h : a + b ≤ usizeMax) : addUsize build a b = some (a + b) :=
  if_pos h

theorem countLine_eq {line : Nat} (byte : UInt8) (h : line + 1 ≤ usizeMax) :
    countLine build byte line = some (line + newlines [byte]) := by
  rw [countLine, newlines, List.count_singleton]
  by_cases hbyte : byte = newline
  · rw [if_pos hbyte, addUsize_of_le h, hbyte]
    rfl
  · rw [if_neg hbyte, if_neg (by simpa using hbyte)]
    rfl

theorem newlines_cons (byte : UInt8) (bytes : List UInt8) :
    newlines (byte :: bytes) = newlines [byte] + newlines bytes :=
  (List.count_append : newlines ([byte] ++ bytes) = newlines [byte] + newlines bytes)

theorem skipTag_eq (rest : List UInt8) (index line : Nat) (hindex : index + rest.length ≤ usizeMax)
    (hline : line + rest.length ≤ usizeMax) :
    let tagBytes := rest.takeWhile (· != greaterThan)
    skipTag build rest index line =
      some (index + tagBytes.length, line + newlines tagBytes,
        rest.dropWhile (· != greaterThan)) := by
  induction rest generalizing index line with
  | nil => rfl
  | cons byte rest ih =>
      rw [List.length_cons] at hindex hline
      rw [skipTag, List.takeWhile_cons, List.dropWhile_cons]
      by_cases hbyte : byte = greaterThan
      · rw [if_pos hbyte, hbyte, if_neg (by simp), if_neg (by simp)]
        rfl
      · rw [if_neg hbyte, if_pos (by simpa using hbyte), if_pos (by simpa using hbyte),
          countLine_eq byte (by omega), Option.bind_some, addUsize_of_le (by omega),
          Option.bind_some]
        have hcount : newlines [byte] ≤ 1 := List.count_le_length
        rw [ih _ _ (by omega) (by omega)]
        dsimp only
        rw [Nat.add_assoc line, ← newlines_cons, List.length_cons, Nat.add_right_comm index]
        rfl

end Sums

theorem parseTag_le {tag name : String} {length : Nat} (h : parseTag tag = some (name, length)) :
    length ≤ usizeMax := by
  rw [parseTag] at h
  split at h
  · obtain ⟨value, hvalue, heq⟩ := Option.map_eq_some_iff.mp h
    cases heq
    rw [parseUsize, parseUnsigned, Option.filter_eq_some_iff] at hvalue
    exact of_decide_eq_true hvalue.2
  · cases h

/-- What a tag is cut into. -/
theorem eq_of_splitTag {bytes tagBytes rest : List UInt8}
    (h : splitTag bytes = some (tagBytes, rest)) :
    tagBytes = bytes.takeWhile (· != greaterThan) ∧
      bytes.dropWhile (· != greaterThan) = greaterThan :: rest := by
  rw [splitTag] at h
  split at h
  · cases h
  · next byte _ hdrop =>
      cases h
      have hbyte : byte = greaterThan := by
        have := List.head?_dropWhile_not (· != greaterThan) bytes
        rw [hdrop] at this
        simpa using this
      exact ⟨rfl, hbyte ▸ hdrop⟩

theorem suffix_of_splitTag {bytes tagBytes rest : List UInt8}
    (h : splitTag bytes = some (tagBytes, rest)) (byte : UInt8) : rest <:+ byte :: bytes := by
  have hdrop := List.dropWhile_suffix (l := bytes) (· != greaterThan)
  rw [(eq_of_splitTag h).2] at hdrop
  exact ((List.suffix_cons _ rest).trans hdrop).trans (List.suffix_cons byte bytes)

section Turns

variable {build : Build} {bytes rest : List UInt8} {index : Nat} {r : Reader}

theorem scan_turn :
    scan build bytes rest index r = (turn build bytes rest index r).bind fun
      | .done result => some result
      | .next rest index r => scan build bytes rest index r := by
  rw [scan]
  split <;> next hturn => rw [hturn]; rfl

variable {front : List UInt8} (hfits : bytes.length < usizeMax)
  (hbytes : bytes = front ++ rest) (hline : r.line ≤ front.length + 1)

include hfits hbytes hline

/-- A byte outside a tag is passed. -/
theorem turn_plain {byte : UInt8} {tail : List UInt8} (hrest : rest = byte :: tail)
    (hbyte : byte ≠ lessThan) :
    turn build bytes rest front.length r =
      some (.next tail (front.length + 1) (r.passed [byte])) := by
  have hlength := congrArg List.length hbytes
  rw [hrest, List.length_append, List.length_cons] at hlength
  rw [hrest, turn, if_pos hbyte, countLine_eq byte (by omega), Option.bind_some,
    addUsize_of_le (by omega)]
  rfl

theorem turn_unterminated {tail : List UInt8} (hrest : rest = lessThan :: tail)
    (hsplit : splitTag tail = none) :
    turn build bytes rest front.length r =
      some (.done (.error (atLine r.line "unterminated ADIF tag"))) := by
  have hlength := congrArg List.length hbytes
  rw [hrest, List.length_append, List.length_cons] at hlength
  have hdrop : tail.dropWhile (· != greaterThan) = [] := by
    rw [splitTag] at hsplit
    split at hsplit
    · assumption
    · cases hsplit
  rw [hrest, turn, if_neg (fun h => h rfl), addUsize_of_le (by omega), Option.bind_some,
    skipTag_eq _ _ _ (by omega) (by omega), hdrop]
  rfl

/-- A tag is cut out of the text as it stands there. -/
theorem turn_tag (build : Build) {tail tagBytes behind : List UInt8}
    (hrest : rest = lessThan :: tail)
    (hsplit : splitTag tail = some (tagBytes, behind)) :
    turn build bytes rest front.length r =
      match fromUtf8 tagBytes with
      | none => some (.done (.error (atLine r.line "ADIF tag is not valid UTF-8")))
      | some tag => turnTag build bytes behind (front.length + tagBytes.length + 2)
          (r.line + newlines tagBytes) r tag := by
  obtain ⟨htag, hdrop⟩ := eq_of_splitTag hsplit
  have htail : tail = tagBytes ++ greaterThan :: behind := by
    rw [htag, ← hdrop, List.takeWhile_append_dropWhile]
  have hcut : bytes = (front ++ [lessThan]) ++ (tagBytes ++ greaterThan :: behind) := by
    rw [hbytes, hrest, htail, List.append_assoc, List.singleton_append]
  have hlength := congrArg List.length hcut
  rw [List.length_append, List.length_append, List.length_append, List.length_singleton,
    List.length_cons] at hlength
  have hskip : skipTag build tail (front.length + 1) r.line = _ :=
    skipTag_eq _ _ _ (by rw [htail, List.length_append, List.length_cons]; omega)
      (by rw [htail, List.length_append, List.length_cons]; omega)
  rw [← htag, hdrop] at hskip
  have hslice := Ranges.slice?_append (front ++ [lessThan]) tagBytes (greaterThan :: behind)
  rw [← hcut, List.length_append, List.length_singleton] at hslice
  rw [hrest, turn, if_neg (fun h => h rfl), addUsize_of_le (by omega), Option.bind_some, hskip,
    Option.bind_some]
  dsimp only
  rw [hslice, Option.bind_some]
  cases fromUtf8 tagBytes with
  | none => rfl
  | some tag =>
      dsimp only
      rw [addUsize_of_le (by omega), Option.bind_some, Nat.add_right_comm front.length]

omit hfits hbytes hline in
theorem turnTag_marker {index line : Nat} {tag : String} (hmarker : ¬IsMarker tag) :
    turnTag build bytes rest index line r tag =
      match parseTag tag with
      | none => some (.done (.error (atLine r.line ("invalid ADIF tag <" ++ tag ++ ">"))))
      | some (name, length) =>
          (addUsize build index length).bind fun stop =>
            if bytes.length < stop then
              some (.done (.error (atLine r.line ("ADIF field " ++ name ++ " is truncated"))))
            else
              (Ranges.slice? bytes index stop).bind fun valueBytes =>
                match fromUtf8 valueBytes with
                | none =>
                    some (.done
                      (.error (atLine r.line ("ADIF field " ++ name ++ " is not valid UTF-8"))))
                | some text =>
                    (addUsize build line (newlines valueBytes)).bind fun line =>
                      if name = "" then
                        some (.done (.error (atLine r.line "ADIF field name is empty")))
                      else
                        some (.next (rest.drop length) stop
                          ({ r with line := line }.field r.line name (trim text))) := by
  rw [turnTag, if_neg fun h => hmarker (Or.inl h), if_neg fun h => hmarker (Or.inr h)]

omit hfits hbytes hline in
/-- A length that does not fit: a debug build stops at the sum, a release build at the slice,
whose end has come round to in front of its start. -/
theorem turnTag_overflow {index line length : Nat} {tag name : String}
    (hindex : index ≤ bytes.length) (_hfits : bytes.length < usizeMax) (hmarker : ¬IsMarker tag)
    (hfield : parseTag tag = some (name, length)) (hsum : usizeMax < index + length) :
    turnTag build bytes rest index line r tag = none := by
  have hle := parseTag_le hfield
  rw [turnTag_marker hmarker, hfield]
  dsimp only
  cases build with
  | debug =>
      rw [show addUsize .debug index length = none from if_neg (Nat.not_le_of_lt hsum)]
      rfl
  | release =>
      rw [show addUsize .release index length = some (index + length - (usizeMax + 1)) from
        if_neg (Nat.not_le_of_lt hsum), Option.bind_some, if_neg (by omega),
        Ranges.slice?_eq_none (by omega)]
      rfl

end Turns

/-- A length that fits: the value is cut out of the bytes behind the tag. -/
theorem turnTag_field (build : Build) {front behind : List UInt8} (r : Reader) {line length : Nat}
    {tag name : String} (hfits : (front ++ behind).length < usizeMax) (hline : line ≤ front.length)
    (hmarker : ¬IsMarker tag) (hfield : parseTag tag = some (name, length))
    (hsum : front.length + length ≤ usizeMax) :
    turnTag build (front ++ behind) behind front.length line r tag =
      if behind.length < length then
        some (.done (.error (atLine r.line ("ADIF field " ++ name ++ " is truncated"))))
      else match fromUtf8 (behind.take length) with
        | none =>
            some (.done (.error (atLine r.line ("ADIF field " ++ name ++ " is not valid UTF-8"))))
        | some text =>
            if name = "" then some (.done (.error (atLine r.line "ADIF field name is empty")))
            else some (.next (behind.drop length) (front.length + length)
              ({ r with line := line + newlines (behind.take length) }.field r.line name
                (trim text))) := by
  rw [List.length_append] at hfits
  rw [turnTag_marker hmarker, hfield]
  dsimp only
  rw [addUsize_of_le hsum, Option.bind_some, List.length_append]
  by_cases hshort : behind.length < length
  · rw [if_pos hshort, if_pos (by omega)]
  · have hvalue := Ranges.slice?_append front (behind.take length) (behind.drop length)
    rw [List.take_append_drop, List.length_take,
      Nat.min_eq_left (Nat.le_of_not_lt hshort)] at hvalue
    rw [if_neg hshort, if_neg (by omega), hvalue, Option.bind_some]
    cases fromUtf8 (behind.take length) with
    | none => rfl
    | some text =>
        have hcount : newlines (behind.take length) ≤ (behind.take length).length :=
          List.count_le_length
        rw [List.length_take] at hcount
        dsimp only
        rw [addUsize_of_le (by omega), Option.bind_some]

/-- What an overflow is at a tag that can be read. -/
theorem overflows_tag_iff {index : Nat} {bytes tagBytes rest : List UInt8} {tag : String}
    (hsplit : splitTag bytes = some (tagBytes, rest)) (htag : fromUtf8 tagBytes = some tag) :
    Overflows index (lessThan :: bytes) ↔
      (IsMarker tag ∧ Overflows (index + tagBytes.length + 2) rest) ∨
        (¬IsMarker tag ∧ ∃ name length, parseTag tag = some (name, length) ∧
          (usizeMax < index + tagBytes.length + 2 + length ∨
            (length ≤ rest.length ∧ name ≠ "" ∧ (fromUtf8 (rest.take length)).isSome ∧
              Overflows (index + tagBytes.length + 2 + length) (rest.drop length)))) := by
  constructor
  · intro h
    cases h with
    | plain hbyte => exact absurd rfl hbyte
    | marker hsplit' htag' hmarker h =>
        rw [hsplit] at hsplit'
        cases hsplit'
        rw [htag] at htag'
        cases htag'
        exact Or.inl ⟨hmarker, h⟩
    | field hsplit' htag' hmarker hfield hlength htext hname h =>
        rw [hsplit] at hsplit'
        cases hsplit'
        rw [htag] at htag'
        cases htag'
        exact Or.inr ⟨hmarker, _, _, hfield, Or.inr ⟨hlength, hname, by rw [htext]; rfl, h⟩⟩
    | here hsplit' htag' hmarker hfield hsum =>
        rw [hsplit] at hsplit'
        cases hsplit'
        rw [htag] at htag'
        cases htag'
        exact Or.inr ⟨hmarker, _, _, hfield, Or.inl hsum⟩
  · rintro (⟨hmarker, h⟩ | ⟨hmarker, name, length, hfield, hsum | ⟨hlength, hname, htext, h⟩⟩)
    · exact .marker hsplit htag hmarker h
    · exact .here hsplit htag hmarker hfield hsum
    · obtain ⟨text, htext⟩ := Option.isSome_iff_exists.mp htext
      exact .field hsplit htag hmarker hfield hlength htext hname h

/-- The scan ends the program where a length overflows, and returns `result` elsewhere. -/
def Agrees (build : Build) (bytes rest : List UInt8) (index : Nat) (r : Reader)
    (result : Except String (List AdifRecord)) : Prop :=
  (Overflows index rest → scan build bytes rest index r = none) ∧
    (¬Overflows index rest → scan build bytes rest index r = some result)

namespace Agrees

variable {build : Build} {bytes rest rest' : List UInt8} {index index' : Nat} {r r' : Reader}
  {result : Except String (List AdifRecord)}

theorem of_done (hturn : turn build bytes rest index r = some (.done result))
    (hno : ¬Overflows index rest) : Agrees build bytes rest index r result :=
  ⟨fun h => absurd h hno, fun _ => by rw [scan_turn, hturn]; rfl⟩

theorem of_next (h : Agrees build bytes rest' index' r' result)
    (hturn : turn build bytes rest index r = some (.next rest' index' r'))
    (hiff : Overflows index rest ↔ Overflows index' rest') :
    Agrees build bytes rest index r result := by
  rw [Agrees, scan_turn, hturn, hiff]
  exact h

theorem of_none (hturn : turn build bytes rest index r = none) (hover : Overflows index rest) :
    Agrees build bytes rest index r result :=
  ⟨fun _ => by rw [scan_turn, hturn]; rfl, fun hno => absurd hover hno⟩

end Agrees

theorem Overflows.tag {index : Nat} {bytes : List UInt8} (h : Overflows index (lessThan :: bytes)) :
    ∃ tagBytes rest tag, splitTag bytes = some (tagBytes, rest) ∧
      fromUtf8 tagBytes = some tag := by
  cases h with
  | plain hbyte => exact absurd rfl hbyte
  | marker hsplit htag => exact ⟨_, _, _, hsplit, htag⟩
  | field hsplit htag => exact ⟨_, _, _, hsplit, htag⟩
  | here hsplit htag => exact ⟨_, _, _, hsplit, htag⟩

theorem overflows_plain_iff {index : Nat} {byte : UInt8} {bytes : List UInt8}
    (hbyte : byte ≠ lessThan) :
    Overflows index (byte :: bytes) ↔ Overflows (index + 1) bytes := by
  constructor
  · intro h
    cases h with
    | plain _ h => exact h
    | marker | field | here => exact absurd rfl hbyte
  · exact .plain hbyte

theorem Reader.endRecord_line (r : Reader) (tagLine : Nat) :
    (r.endRecord tagLine).line = r.line := by
  rw [Reader.endRecord]
  split_ifs <;> rfl

theorem Reader.field_line (r : Reader) (tagLine : Nat) (name value : String) :
    (r.field tagLine name value).line = r.line := by
  rw [Reader.field]
  split_ifs <;> rfl

/-- Where the scan stands behind a tag. -/
theorem behind_tag (front : List UInt8) {tail tagBytes rest : List UInt8}
    (hsplit : splitTag tail = some (tagBytes, rest)) :
    front ++ lessThan :: tail = (front ++ lessThan :: tagBytes ++ [greaterThan]) ++ rest ∧
      (front ++ lessThan :: tagBytes ++ [greaterThan]).length =
        front.length + tagBytes.length + 2 := by
  obtain ⟨htag, hdrop⟩ := eq_of_splitTag hsplit
  constructor
  · have htail : tail = tagBytes ++ greaterThan :: rest := by
      rw [htag, ← hdrop, List.takeWhile_append_dropWhile]
    simp [htail]
  · simp [Nat.add_assoc]

theorem sum_le_of_field {bytes front tail tagBytes rest : List UInt8} {length : Nat}
    (hfits : bytes.length < usizeMax) (hbytes : bytes = front ++ lessThan :: tail)
    (hsplit : splitTag tail = some (tagBytes, rest)) (hlength : length ≤ rest.length) :
    front.length + tagBytes.length + 2 + length ≤ usizeMax := by
  obtain ⟨hcut, hfront⟩ := behind_tag front hsplit
  rw [hbytes, hcut, List.length_append, hfront] at hfits
  omega

/-- A field that the scan comes to, its length fitting. -/
theorem turn_field (build : Build) {bytes front tail tagBytes rest : List UInt8} {r : Reader}
    {tag name : String} {length : Nat} (hfits : bytes.length < usizeMax)
    (hbytes : bytes = front ++ lessThan :: tail) (hline : r.line ≤ front.length + 1)
    (hsplit : splitTag tail = some (tagBytes, rest)) (htag : fromUtf8 tagBytes = some tag)
    (hmarker : ¬IsMarker tag) (hfield : parseTag tag = some (name, length))
    (hsum : front.length + tagBytes.length + 2 + length ≤ usizeMax) :
    turn build bytes (lessThan :: tail) front.length r =
      if rest.length < length then
        some (.done (.error (atLine r.line ("ADIF field " ++ name ++ " is truncated"))))
      else match fromUtf8 (rest.take length) with
        | none =>
            some (.done (.error (atLine r.line ("ADIF field " ++ name ++ " is not valid UTF-8"))))
        | some text =>
            if name = "" then some (.done (.error (atLine r.line "ADIF field name is empty")))
            else some (.next (rest.drop length) (front.length + tagBytes.length + 2 + length)
              (((r.passed tagBytes).passed (rest.take length)).field r.line name
                (trim text))) := by
  obtain ⟨hcut, hlength⟩ := behind_tag front hsplit
  have hcount : newlines tagBytes ≤ tagBytes.length := List.count_le_length
  have hcount' : r.line + newlines tagBytes ≤
      (front ++ lessThan :: tagBytes ++ [greaterThan]).length := by omega
  have hend := turnTag_field build r (by rw [← hcut, ← hbytes]; exact hfits) hcount' hmarker hfield
    (by omega)
  rw [← hcut, ← hbytes, hlength] at hend
  rw [turn_tag hfits hbytes hline build rfl hsplit, htag]
  exact hend

/-! ### A pass at a tag -/

section Tags

variable {build : Build} {bytes front tail tagBytes rest : List UInt8} {r r' : Reader}
  {tag name text : String} {length : Nat} {result : Except String (List AdifRecord)}

theorem line_behind_tag (hline : r.line ≤ front.length + 1) :
    (r.passed tagBytes).line ≤ (front ++ lessThan :: tagBytes ++ [greaterThan]).length + 1 := by
  have hcount : newlines tagBytes ≤ tagBytes.length := List.count_le_length
  have hlength : (front ++ lessThan :: tagBytes ++ [greaterThan]).length =
      front.length + tagBytes.length + 2 := by simp [Nat.add_assoc]
  show r.line + newlines tagBytes ≤ _
  omega

theorem agrees_unterminated (hfits : bytes.length < usizeMax)
    (hbytes : bytes = front ++ lessThan :: tail) (hline : r.line ≤ front.length + 1)
    (hsplit : splitTag tail = none) :
    Agrees build bytes (lessThan :: tail) front.length r
      (.error (atLine r.line "unterminated ADIF tag")) := by
  refine .of_done (turn_unterminated hfits hbytes hline rfl hsplit) fun h => ?_
  obtain ⟨_, _, _, hsplit', _⟩ := h.tag
  rw [hsplit] at hsplit'
  cases hsplit'

variable (hfits : bytes.length < usizeMax) (hbytes : bytes = front ++ lessThan :: tail)
  (hline : r.line ≤ front.length + 1) (hsplit : splitTag tail = some (tagBytes, rest))
include hfits hbytes hline hsplit

theorem agrees_notUtf8 (htag : fromUtf8 tagBytes = none) :
    Agrees build bytes (lessThan :: tail) front.length r
      (.error (atLine r.line "ADIF tag is not valid UTF-8")) := by
  refine .of_done (by rw [turn_tag hfits hbytes hline build rfl hsplit, htag]) fun h => ?_
  obtain ⟨_, _, _, hsplit', htag'⟩ := h.tag
  rw [hsplit] at hsplit'
  cases hsplit'
  rw [htag] at htag'
  cases htag'

/-- The scan goes on behind a marker. -/
theorem agrees_marker (htag : fromUtf8 tagBytes = some tag) (hmarker : IsMarker tag)
    (hend : turnTag build bytes rest (front.length + tagBytes.length + 2)
      (r.line + newlines tagBytes) r tag =
        some (.next rest (front.length + tagBytes.length + 2) r'))
    (hnext : Agrees build bytes rest (front ++ lessThan :: tagBytes ++ [greaterThan]).length r'
      result) : Agrees build bytes (lessThan :: tail) front.length r result := by
  rw [(behind_tag front hsplit).2] at hnext
  refine hnext.of_next ?_ ?_
  · rw [turn_tag hfits hbytes hline build rfl hsplit, htag]
    exact hend
  · rw [overflows_tag_iff hsplit htag]
    simp only [hmarker, true_and, not_true, false_and, or_false]

variable (htag : fromUtf8 tagBytes = some tag) (hmarker : ¬IsMarker tag)
include htag hmarker

theorem agrees_noField (hfield : parseTag tag = none) :
    Agrees build bytes (lessThan :: tail) front.length r
      (.error (atLine r.line ("invalid ADIF tag <" ++ tag ++ ">"))) := by
  refine .of_done ?_ ?_
  · rw [turn_tag hfits hbytes hline build rfl hsplit, htag]
    dsimp only
    rw [turnTag_marker hmarker, hfield]
  · rw [overflows_tag_iff hsplit htag]
    simp [hmarker, hfield]

variable (hfield : parseTag tag = some (name, length))
include hfield

/-- A value that the text is too short for, whether the sum of its bounds fits or not. -/
theorem agrees_truncated (hshort : rest.length < length) :
    Agrees build bytes (lessThan :: tail) front.length r
      (.error (atLine r.line ("ADIF field " ++ name ++ " is truncated"))) := by
  by_cases hsum : usizeMax < front.length + tagBytes.length + 2 + length
  · obtain ⟨hcut, hlength⟩ := behind_tag front hsplit
    have hturn := turn_tag hfits hbytes hline build rfl hsplit
    rw [htag] at hturn
    refine .of_none (hturn.trans ?_) (.here hsplit htag hmarker hfield hsum)
    refine turnTag_overflow ?_ hfits hmarker hfield hsum
    rw [hbytes, hcut, List.length_append, hlength]
    exact Nat.le_add_right _ _
  · have hturn := turn_field build hfits hbytes hline hsplit htag hmarker hfield
      (Nat.le_of_not_lt hsum)
    rw [if_pos hshort] at hturn
    refine .of_done hturn ?_
    rw [overflows_tag_iff hsplit htag]
    simp [hmarker, hfield, hsum, Nat.not_le_of_lt hshort]

variable (hlong : length ≤ rest.length)
include hlong

theorem agrees_valueNotUtf8 (htext : fromUtf8 (rest.take length) = none) :
    Agrees build bytes (lessThan :: tail) front.length r
      (.error (atLine r.line ("ADIF field " ++ name ++ " is not valid UTF-8"))) := by
  have hsum := sum_le_of_field hfits hbytes hsplit hlong
  have hturn := turn_field build hfits hbytes hline hsplit htag hmarker hfield hsum
  rw [if_neg (Nat.not_lt_of_le hlong), htext] at hturn
  refine .of_done hturn ?_
  rw [overflows_tag_iff hsplit htag]
  simp [hmarker, hfield, htext, Nat.not_lt_of_le hsum]

variable (htext : fromUtf8 (rest.take length) = some text)
include htext

theorem agrees_unnamed (hname : name = "") :
    Agrees build bytes (lessThan :: tail) front.length r
      (.error (atLine r.line "ADIF field name is empty")) := by
  have hsum := sum_le_of_field hfits hbytes hsplit hlong
  have hturn := turn_field build hfits hbytes hline hsplit htag hmarker hfield hsum
  rw [if_neg (Nat.not_lt_of_le hlong), htext] at hturn
  dsimp only at hturn
  rw [if_pos hname] at hturn
  refine .of_done hturn ?_
  rw [overflows_tag_iff hsplit htag]
  simp [hmarker, hfield, hname, Nat.not_lt_of_le hsum]

/-- The scan goes on behind the value of a field. -/
theorem agrees_field (hname : name ≠ "")
    (hnext : Agrees build bytes (rest.drop length)
      (front ++ lessThan :: tagBytes ++ [greaterThan] ++ rest.take length).length
      (((r.passed tagBytes).passed (rest.take length)).field r.line name (trim text)) result) :
    Agrees build bytes (lessThan :: tail) front.length r result := by
  have hsum := sum_le_of_field hfits hbytes hsplit hlong
  have hturn := turn_field build hfits hbytes hline hsplit htag hmarker hfield hsum
  rw [if_neg (Nat.not_lt_of_le hlong), htext] at hturn
  dsimp only at hturn
  rw [if_neg hname] at hturn
  rw [List.length_append, (behind_tag front hsplit).2, List.length_take,
    Nat.min_eq_left hlong] at hnext
  refine hnext.of_next hturn ?_
  rw [overflows_tag_iff hsplit htag]
  simp [hmarker, hfield, htext, hname, hlong, Nat.not_lt_of_le hsum]

end Tags

/-- In every build the scan is that of the reader, unless it comes to a length that does not
fit; the induction follows the reader, whose index is where `front` ends. -/
theorem agrees_parseFrom (build : Build) {bytes : List UInt8} (hfits : bytes.length < usizeMax)
    (rest : List UInt8) (r : Reader) (front : List UInt8) (hbytes : bytes = front ++ rest)
    (hline : r.line ≤ front.length + 1) :
    Agrees build bytes rest front.length r (parseFrom rest r) := by
  fun_induction parseFrom rest r generalizing front with
  | case1 r =>
      exact .of_done (by rw [turn]) fun h => (by cases h)
  | case2 r byte rest hbyte ih =>
      have hcount : newlines [byte] ≤ 1 := List.count_le_length
      have hnext := ih (front ++ [byte]) (by rw [hbytes, List.append_assoc]; rfl) (by
        rw [List.length_append, List.length_singleton]
        show r.line + newlines [byte] ≤ _
        omega)
      rw [List.length_append, List.length_singleton] at hnext
      exact hnext.of_next (turn_plain hfits hbytes hline rfl hbyte) (overflows_plain_iff hbyte)
  | case3 r byte tail hbyte hsplit =>
      obtain rfl := Decidable.not_not.mp hbyte
      exact agrees_unterminated hfits hbytes hline hsplit
  | case4 r byte tail hbyte tagBytes rest hsplit htag =>
      obtain rfl := Decidable.not_not.mp hbyte
      exact agrees_notUtf8 hfits hbytes hline hsplit htag
  | case5 r byte tail hbyte tagBytes rest hsplit tag htag hmarker ih =>
      obtain rfl := Decidable.not_not.mp hbyte
      refine agrees_marker hfits hbytes hline hsplit htag (.inl hmarker) ?_
        (ih _ (hbytes.trans (behind_tag front hsplit).1) (line_behind_tag hline))
      rw [turnTag, if_pos hmarker]
      rfl
  | case6 r byte tail hbyte tagBytes rest hsplit tag htag hmarker hmarker' ih =>
      obtain rfl := Decidable.not_not.mp hbyte
      refine agrees_marker hfits hbytes hline hsplit htag (.inr hmarker') ?_
        (ih _ (hbytes.trans (behind_tag front hsplit).1) ?_)
      · rw [turnTag, if_neg hmarker, if_pos hmarker']
        rfl
      · rw [Reader.endRecord_line]
        exact line_behind_tag hline
  | case7 r byte tail hbyte tagBytes rest hsplit tag htag hmarker hmarker' hfield =>
      obtain rfl := Decidable.not_not.mp hbyte
      exact agrees_noField hfits hbytes hline hsplit htag (not_or.mpr ⟨hmarker, hmarker'⟩) hfield
  | case8 r byte tail hbyte tagBytes rest hsplit tag htag hmarker hmarker' name length hfield
      hshort =>
      obtain rfl := Decidable.not_not.mp hbyte
      exact agrees_truncated hfits hbytes hline hsplit htag (not_or.mpr ⟨hmarker, hmarker'⟩) hfield
        hshort
  | case9 r byte tail hbyte tagBytes rest hsplit tag htag hmarker hmarker' name length hfield hlong
      htext =>
      obtain rfl := Decidable.not_not.mp hbyte
      exact agrees_valueNotUtf8 hfits hbytes hline hsplit htag (not_or.mpr ⟨hmarker, hmarker'⟩)
        hfield (Nat.le_of_not_lt hlong) htext
  | case10 r byte tail hbyte tagBytes rest hsplit tag htag hmarker hmarker' length hlong text htext
      hfield =>
      obtain rfl := Decidable.not_not.mp hbyte
      exact agrees_unnamed hfits hbytes hline hsplit htag (not_or.mpr ⟨hmarker, hmarker'⟩) hfield
        (Nat.le_of_not_lt hlong) htext rfl
  | case11 r byte tail hbyte tagBytes rest hsplit tag htag hmarker hmarker' name length hfield hlong
      text htext hname ih =>
      obtain rfl := Decidable.not_not.mp hbyte
      have hfit := Nat.le_of_not_lt hlong
      refine agrees_field hfits hbytes hline hsplit htag
        (not_or.mpr ⟨hmarker, hmarker'⟩) hfield hfit
        htext hname (ih _ ?_ ?_)
      · rw [List.append_assoc, List.take_append_drop, ← (behind_tag front hsplit).1, hbytes]
      · have hpassed : (r.passed tagBytes).line ≤ _ := line_behind_tag hline
        have hcount : newlines (rest.take length) ≤ (rest.take length).length :=
          List.count_le_length
        rw [Reader.field_line, List.length_append]
        show (r.passed tagBytes).line + newlines (rest.take length) ≤ _
        omega

/-- The values of the fields are cut out of the text. -/
def FromText (text : String) (fields : AdifFields) : Prop :=
  ∀ entry ∈ fields, entry.2.toList <:+: text.toList

section Values

variable {text : String}

theorem FromText.insert {fields : AdifFields} (h : FromText text fields) (name : String)
    {value : String} (hvalue : value.toList <:+: text.toList) :
    FromText text (SortedAssoc.insert fields name value) := by
  intro entry hentry
  rcases SortedAssoc.mem_of_mem_insert hentry with rfl | hentry
  · exact hvalue
  · exact h entry hentry

theorem trim_isInfix (s : String) : (trim s).toList <:+: s.toList := by
  obtain ⟨front, back, _, _, heq⟩ := exists_trimChars s.toList
  rw [trim, String.toList_ofList]
  exact ⟨front, back, by rw [List.append_assoc, ← heq]⟩

/-- Bytes that stand in the text are text of it when they are text at all. -/
theorem infix_of_fromUtf8 {bytes rest : List UInt8} {value : String}
    (h : fromUtf8 bytes = some value) (hbytes : bytes ++ rest <:+ asBytes text) :
    value.toList <:+: text.toList := by
  obtain ⟨cs, hcs, rfl⟩ := Option.map_eq_some_iff.mp h
  obtain ⟨front, hfront⟩ := hbytes
  rw [← Utf8.encode_of_decode? hcs] at hfront
  rw [String.toList_ofList]
  exact Utf8.infix_of_encode hfront.symm

/-- All that the reader holds is cut out of the text. -/
structure Reader.FromText (text : String) (r : Reader) : Prop where
  pending : Adif.FromText text r.pending
  current : Adif.FromText text r.current
  records : ∀ record ∈ r.records, Adif.FromText text record.fields

namespace Reader.FromText

variable {r : Reader}

theorem passed (h : r.FromText text) (bytes : List UInt8) : (r.passed bytes).FromText text :=
  ⟨h.pending, h.current, h.records⟩

theorem endHeader (h : r.FromText text) : r.endHeader.FromText text :=
  ⟨fun _ hentry => absurd hentry List.not_mem_nil, h.current, h.records⟩

theorem push (h : r.FromText text) {line : Nat} {fields : AdifFields}
    (hfields : Adif.FromText text fields) :
    ∀ record ∈ r.records ++ [⟨line, fields⟩], Adif.FromText text record.fields := by
  intro record hrecord
  rcases List.mem_append.mp hrecord with hrecord | hrecord
  · exact h.records record hrecord
  · rw [List.mem_singleton.mp hrecord]
    exact hfields

theorem endRecord (h : r.FromText text) (tagLine : Nat) :
    (r.endRecord tagLine).FromText text := by
  rw [Reader.endRecord]
  split_ifs
  · exact h
  · exact ⟨fun _ hentry => absurd hentry List.not_mem_nil, h.current, h.push h.pending⟩
  · exact h
  · exact ⟨h.pending, fun _ hentry => absurd hentry List.not_mem_nil, h.push h.current⟩

theorem field (h : r.FromText text) (tagLine : Nat) (name : String) {value : String}
    (hvalue : value.toList <:+: text.toList) : (r.field tagLine name value).FromText text := by
  rw [Reader.field]
  by_cases hheader : r.inHeader = true
  · rw [if_pos hheader]
    exact ⟨h.pending.insert name hvalue, h.current, h.records⟩
  · rw [if_neg hheader]
    exact ⟨h.pending, h.current.insert name hvalue, h.records⟩

theorem finish (h : r.FromText text) : ∀ record ∈ r.finish, Adif.FromText text record.fields := by
  rw [Reader.finish]
  split_ifs
  · exact h.push h.current
  · exact h.push h.pending
  · exact h.records

end Reader.FromText

theorem fromText_of_parseFrom {rest : List UInt8} {r : Reader} (hrest : rest <:+ asBytes text)
    (hr : r.FromText text) {records : List AdifRecord} (h : parseFrom rest r = .ok records) :
    ∀ record ∈ records, FromText text record.fields := by
  fun_induction parseFrom rest r with
  | case1 r =>
      cases h
      exact hr.finish
  | case2 r byte rest hbyte ih =>
      exact ih ((List.suffix_cons byte rest).trans hrest) (hr.passed _) h
  | case5 r byte tail hbyte tagBytes rest hsplit tag htag hmarker ih =>
      exact ih ((suffix_of_splitTag hsplit byte).trans hrest) (hr.passed _).endHeader h
  | case6 r byte tail hbyte tagBytes rest hsplit tag htag hmarker hmarker' ih =>
      exact ih ((suffix_of_splitTag hsplit byte).trans hrest) ((hr.passed _).endRecord _) h
  | case11 r byte tail hbyte tagBytes rest hsplit tag htag hmarker hmarker' name length hfield hlong
      value htext hname ih =>
      have hbehind := (suffix_of_splitTag hsplit byte).trans hrest
      have hvalue := infix_of_fromUtf8 htext
        (by rwa [List.take_append_drop] : rest.take length ++ rest.drop length <:+ asBytes text)
      exact ih ((List.drop_suffix length rest).trans hbehind)
        (((hr.passed _).passed _).field _ name ((trim_isInfix value).trans hvalue)) h
  | _ => cases h

end Values

/-- The program goes through the text, and what it returns is an error or records whose values
are cut out of the text. -/
def ParsesSafely (build : Build) (text : String) : Prop :=
  ∃ result, parseRecordsOn build text = some result ∧
    ∀ records, result = .ok records → ∀ record ∈ records, FromText text record.fields

theorem parseRecordsOn_eq (build : Build) {text : String}
    (hlength : (asBytes text).length ≤ isizeMax) :
    (Overflows 0 (asBytes text) → parseRecordsOn build text = none) ∧
      (¬Overflows 0 (asBytes text) → parseRecordsOn build text = some (parseRecords text)) :=
  agrees_parseFrom build (hlength.trans_lt (by decide)) (asBytes text) {} [] rfl (Nat.le_refl 1)

theorem parsesSafely_iff (build : Build) {text : String}
    (hlength : (asBytes text).length ≤ isizeMax) :
    ParsesSafely build text ↔ ¬Overflows 0 (asBytes text) := by
  obtain ⟨hover, hfits⟩ := parseRecordsOn_eq build hlength
  constructor
  · rintro ⟨result, hresult, -⟩ h
    rw [hover h] at hresult
    cases hresult
  · intro h
    refine ⟨_, hfits h, fun records hrecords => ?_⟩
    have hnone : FromText text [] := fun _ hentry => absurd hentry List.not_mem_nil
    exact fromText_of_parseFrom (List.suffix_refl _)
      ⟨hnone, hnone, fun _ hrecord => absurd hrecord List.not_mem_nil⟩ hrecords

theorem parsesSafely_iff_call :
    ParsesSafely .debug "<CALL:4>K1AB<EOR>" ↔ ¬Overflows 0 (asBytes "<CALL:4>K1AB<EOR>") :=
  parsesSafely_iff .debug (by decide)

/-- The greatest length there is, behind a tag of 24 bytes. -/
theorem overflows_greatest : Overflows 0 (asBytes "<A:18446744073709551615>") := by
  have hsplit : splitTag (asBytes "A:18446744073709551615>") =
      some (asBytes "A:18446744073709551615", []) := by decide
  have htag : fromUtf8 (asBytes "A:18446744073709551615") = some "A:18446744073709551615" := by
    decide
  have hmarker : ¬IsMarker "A:18446744073709551615" := by
    unfold IsMarker
    decide
  have hfield : parseTag "A:18446744073709551615" = some ("A", usizeMax) := by decide
  exact .here hsplit htag hmarker hfield (by decide)

/-- Such a tag ends the program in every build: a debug build at the sum, a release build at the
slice. -/
theorem not_parsesSafely_greatest :
    ¬ParsesSafely .debug "<A:18446744073709551615>"
      ∧ ¬ParsesSafely .release "<A:18446744073709551615>" := by
  have hnever (build : Build) : ¬ParsesSafely build "<A:18446744073709551615>" := by
    rintro ⟨result, hresult, -⟩
    rw [(parseRecordsOn_eq build (by decide)).1 overflows_greatest] at hresult
    cases hresult
  exact ⟨hnever .debug, hnever .release⟩

end Log73.Adif
