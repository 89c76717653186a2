import Mathlib.Algebra.Order.Ring.Nat
import Log73.Json

/-!
The payloads of requests in the debug log (`main.rs`): what a field holds that is private is
replaced by a note, a long text by its length, and the text of the whole is cut off where it is
too long. Payloads that differ in what is private only are logged alike.
-/

namespace Log73.DebugLog

def maxDebugPayloadLogLength : Nat := 4096
def maxDebugLogStringLength : Nat := 256

def summarizedFields : List String :=
  ["adif", "contest_params", "cw_messages", "digital_messages", "voice_messages",
    "dxcluster_commands"]

def hiddenFields : List String :=
  ["call", "station_callsign", "dxcluster_callsign", "tcp_host", "dxcluster_host", "serial_port",
    "winkeyer_serial_port", "cw_serial_port", "sessionid", "session_id", "password", "passwd",
    "password_hash", "login_password", "login_password_change", "login_password_confirm"]

def shouldFullyRedactDebugField (key : String) : Bool :=
  summarizedFields.contains (toAsciiLowercase key)

def shouldRedactDebugStringField (key : String) : Bool :=
  hiddenFields.contains (toAsciiLowercase key)

def redactedDebugValueSummary : Value → String
  | .string text => s!"<redacted string length={text.length}>"
  | .array items => s!"<redacted array length={items.length}>"
  | .object entries => s!"<redacted object keys={entries.length}>"
  | .null => "<redacted null>"
  | .bool _ => "<redacted bool>"
  | .number _ => "<redacted number>"

/-- What stands for the value of a field that is redacted. -/
def redactedDebugField (key : String) (value : Value) : Option Value :=
  if shouldFullyRedactDebugField key then some (.string (redactedDebugValueSummary value))
  else if shouldRedactDebugStringField key then some (.string "<redacted>")
  else none

mutual

/-- A value that is not redacted as a whole. -/
def sanitizeContent : Value → Value
  | .object entries => .object (sanitizeEntries entries)
  | .array items => .array (sanitizeItems items)
  | .string text =>
      if maxDebugLogStringLength < text.length then .string s!"<string length={text.length}>"
      else .string text
  | .null => .null
  | .bool b => .bool b
  | .number n => .number n

def sanitizeItems : List Value → List Value
  | [] => []
  | item :: items => sanitizeContent item :: sanitizeItems items

def sanitizeEntries : List (String × Value) → List (String × Value)
  | [] => []
  | (key, value) :: entries =>
      (key, (redactedDebugField key value).getD (sanitizeContent value)) :: sanitizeEntries entries

end

def sanitizeDebugPayloadValue (key : Option String) (value : Value) : Value :=
  (key.bind fun key => redactedDebugField key value).getD (sanitizeContent value)

def truncateDebugLogText (text : String) (maxLen : Nat) : String :=
  if text.length ≤ maxLen then text
  else
    let suffix := s!"…<truncated total_chars={text.length}>"
    String.ofList (text.toList.take (maxLen - suffix.length)) ++ suffix

def debugPayloadLog [Platform] (payload : Value) : String :=
  truncateDebugLogText (sanitizeDebugPayloadValue none payload).toText maxDebugPayloadLogLength

/-- Of a redacted value only its type and size are told. -/
inductive SameSize : Value → Value → Prop where
  | string {a b : String} (h : a.length = b.length) : SameSize (.string a) (.string b)
  | array {a b : List Value} (h : a.length = b.length) : SameSize (.array a) (.array b)
  | object {a b : List (String × Value)} (h : a.length = b.length) :
      SameSize (.object a) (.object b)
  | null : SameSize .null .null
  | bool (a b : Bool) : SameSize (.bool a) (.bool b)
  | number (a b : Number) : SameSize (.number a) (.number b)

mutual

/-- Two values that differ in what is private only: in all that stands under a field with an
identity or a credential, in what the fields with messages and contacts hold, as long as its
type and size are the same, and in texts that are too long to be shown. -/
inductive Alike : Option String → Value → Value → Prop where
  | hidden {key : String} (h : shouldRedactDebugStringField key = true) (a b : Value) :
      Alike (some key) a b
  | summarized {key : String} {a b : Value} (h : shouldFullyRedactDebugField key = true)
      (hsize : SameSize a b) : Alike (some key) a b
  | long {key : Option String} {a b : String} (h : maxDebugLogStringLength < a.length)
      (hlength : a.length = b.length) : Alike key (.string a) (.string b)
  | same (key : Option String) (a : Value) : Alike key a a
  | array {key : Option String} {a b : List Value} (h : AlikeItems a b) :
      Alike key (.array a) (.array b)
  | object {key : Option String} {a b : List (String × Value)} (h : AlikeEntries a b) :
      Alike key (.object a) (.object b)

inductive AlikeItems : List Value → List Value → Prop where
  | nil : AlikeItems [] []
  | cons {a b : Value} {as bs : List Value} (h : Alike none a b) (hrest : AlikeItems as bs) :
      AlikeItems (a :: as) (b :: bs)

inductive AlikeEntries : List (String × Value) → List (String × Value) → Prop where
  | nil : AlikeEntries [] []
  | cons {key : String} {a b : Value} {as bs : List (String × Value)} (h : Alike (some key) a b)
      (hrest : AlikeEntries as bs) : AlikeEntries ((key, a) :: as) ((key, b) :: bs)

end

/-- No field is both hidden and summarized, so that it does not count which test comes first. -/
theorem not_summarized_of_hidden {key : String} (h : shouldRedactDebugStringField key = true) :
    shouldFullyRedactDebugField key = false := by
  have hapart : ∀ field ∈ hiddenFields, summarizedFields.contains field = false := by decide
  exact hapart _ (List.contains_iff_mem.mp h)

theorem SameSize.summary {a b : Value} :
    SameSize a b → redactedDebugValueSummary a = redactedDebugValueSummary b
  | .string h => congrArg (fun length : Nat => s!"<redacted string length={length}>") h
  | .array h => congrArg (fun length : Nat => s!"<redacted array length={length}>") h
  | .object h => congrArg (fun length : Nat => s!"<redacted object keys={length}>") h
  | .null => rfl
  | .bool _ _ => rfl
  | .number _ _ => rfl

theorem AlikeItems.length_eq {as bs : List Value} : AlikeItems as bs → as.length = bs.length
  | .nil => rfl
  | .cons _ hrest => congrArg (· + 1) hrest.length_eq

theorem AlikeEntries.length_eq {as bs : List (String × Value)} :
    AlikeEntries as bs → as.length = bs.length
  | .nil => rfl
  | .cons _ hrest => congrArg (· + 1) hrest.length_eq

/-- Values of one size that are written alike are written alike under every key. -/
theorem sanitize_congr {a b : Value} (hsize : SameSize a b)
    (hcontent : sanitizeContent a = sanitizeContent b) (key : Option String) :
    sanitizeDebugPayloadValue key a = sanitizeDebugPayloadValue key b := by
  cases key with
  | none => exact hcontent
  | some key =>
      simp only [sanitizeDebugPayloadValue, redactedDebugField, Option.bind_some, hsize.summary,
        hcontent]

mutual

theorem Alike.sanitize {key : Option String} {a b : Value} :
    Alike key a b → sanitizeDebugPayloadValue key a = sanitizeDebugPayloadValue key b
  | .hidden h a b => by
      simp only [sanitizeDebugPayloadValue, redactedDebugField, Option.bind_some,
        not_summarized_of_hidden h, h, Bool.false_eq_true, if_false, if_true, Option.getD_some]
  | .summarized h hsize => by
      simp only [sanitizeDebugPayloadValue, redactedDebugField, Option.bind_some, h, if_true,
        hsize.summary, Option.getD_some]
  | .long h hlength => by
      refine sanitize_congr (.string hlength) ?_ key
      simp only [sanitizeContent, if_pos (hlength ▸ h), hlength]
  | .same key a => rfl
  | .array h => by
      refine sanitize_congr (.array h.length_eq) ?_ key
      rw [sanitizeContent, sanitizeContent, h.sanitize]
  | .object h => by
      refine sanitize_congr (.object h.length_eq) ?_ key
      rw [sanitizeContent, sanitizeContent, h.sanitize]

theorem AlikeItems.sanitize {as bs : List Value} :
    AlikeItems as bs → sanitizeItems as = sanitizeItems bs
  | .nil => rfl
  | .cons h hrest => by
      have hitem := h.sanitize
      simp only [sanitizeDebugPayloadValue, Option.bind_none, Option.getD_none] at hitem
      rw [sanitizeItems, sanitizeItems, hitem, hrest.sanitize]

theorem AlikeEntries.sanitize {as bs : List (String × Value)} :
    AlikeEntries as bs → sanitizeEntries as = sanitizeEntries bs
  | .nil => rfl
  | .cons h hrest => by
      have hvalue := h.sanitize
      simp only [sanitizeDebugPayloadValue, Option.bind_some] at hvalue
      rw [sanitizeEntries, sanitizeEntries, hvalue, hrest.sanitize]

end

/-- Nothing that is private gets into the debug log: payloads that differ in nothing else are
logged with the same text, however deep it stands and however its field is spelled. -/
theorem debugPayloadLog_of_alike [Platform] {payload other : Value}
    (h : Alike none payload other) : debugPayloadLog payload = debugPayloadLog other := by
  rw [debugPayloadLog, debugPayloadLog, h.sanitize]

/-- Two attempts to log in, the second with an object where a text belongs. -/
theorem debugPayloadLog_of_alike_passwords :
    @debugPayloadLog asciiPlatform
        (.object [("attempts", .array [.object [("PassWd", .string "first")]]), ("name", .null)]) =
      @debugPayloadLog asciiPlatform
        (.object [("attempts", .array [.object [("PassWd", .object [("Set", .string "other")])]]),
          ("name", .null)]) := by
  have hpassword : Alike (some "PassWd") (.string "first") (.object [("Set", .string "other")]) :=
    .hidden (by decide) _ _
  exact @debugPayloadLog_of_alike asciiPlatform _ _ <| .object <|
    .cons (.array <| .cons (.object <| .cons hpassword .nil) .nil) <| .cons (.same _ _) .nil

end Log73.DebugLog
