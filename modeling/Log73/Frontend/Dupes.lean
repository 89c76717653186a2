import Log73.Frontend.Callsign
import Log73.Contact

/-!
Duplicate keys of the frontend (`dupes.js`), the mirror of `dupe_key_for` of the backend.
-/

namespace Log73.Frontend

open SortedAssoc

section Values

variable [Browser]

/-- Integers that a double holds exact print as they are. -/
def numberText : Number → String
  | .int value =>
      if value.natAbs ≤ 9007199254740992 then toString value else Browser.numberText (.int value)
  | .float value => Browser.numberText (.float value)

def jsonString : Option Value → Option String
  | some (.string s) => some s
  | some (.number n) => some (numberText n)
  | some (.bool b) => some (toString b)
  | _ => none

end Values

variable [Platform]

/-- `normalizeLoggerMode` of `modes.js`, which reads a missing value as empty. -/
def normalizeLoggerMode (mode : Option String) : String := toUpperCase (trim (mode.getD ""))

def dupeModeKey (mode : Option String) : String :=
  let normalized := normalizeLoggerMode mode
  if normalized = "" then ""
  else if normalized = "CW" ∨ normalized = "CW-R" then "CW"
  else if normalized = "SSB" then "SSB"
  else if normalized = "FM" then "FM"
  else "DATA"

def modeClassKey (mode : Option String) : String :=
  let normalized := normalizeLoggerMode mode
  if normalized = "CW" ∨ normalized = "CW-R" then "CW"
  else if normalized = "SSB" ∨ normalized = "FM" ∨ normalized = "AM" then "PHONE"
  else normalized

def normalizedFieldValue (field value : String) : String :=
  let normalized := normalizeLoggerMode (some value)
  if toUpperCase field = "CALL" then dupeIdentity normalized else normalized

/-- `adif[field]`, under the very name asked for. -/
def adifProperty (contact : Contact) (field : String) : Option Value :=
  (contactAdif contact).bind fun adif => get? adif field

variable [Browser]

def contactFieldValue (contact : Contact) (field : String) : String :=
  if toUpperCase field = "MODE_CLASS" then modeClassKey (jsonString (adifProperty contact "MODE"))
  else if toUpperCase field = "MODE" then dupeModeKey (jsonString (adifProperty contact "MODE"))
  else
    match jsonString (adifProperty contact field) with
    | some directValue => normalizedFieldValue field directValue
    | none => ""

/-- The key of a contact under the fields of the contest's `dupe_key`. -/
def dupeKey (dupeFields : List String) (contact : Contact) : String :=
  joinWith "|" (dupeFields.map (contactFieldValue contact))

end Log73.Frontend
