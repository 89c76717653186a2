import Log73.Callsign
import Log73.ContestRules
import Log73.Contact

/-!
How the scorer reads a contact (`scoring.rs`): normalized field values, the
derived fields, and the conditions of scoring rules.
-/

namespace Log73

variable [Platform]

/-- `parse_utc_minute` of `qso_time.rs`. -/
def parseUtcMinute (value : String) : Option Nat :=
  let cs := (trim value).toList
  if cs.contains ':' then
    let hourText := cs.takeWhile (· != ':')
    let minuteText := (cs.dropWhile (· != ':')).drop 1
    (parseU16 (String.ofList hourText)).bind fun hour =>
      (parseU16 (String.ofList minuteText)).bind fun minute =>
        if hour < 24 ∧ minute < 60 then some (hour * 60 + minute) else none
  else none

def letterIndex (c : Char) : Option ℚ :=
  if 'A' ≤ c ∧ c ≤ 'R' then some ((c.toNat - 65 : Nat) : ℚ) else none

def digitIndex (c : Char) : Option ℚ :=
  if isAsciiDigit c then some ((c.toNat - 48 : Nat) : ℚ) else none

/-- Latitude and longitude of the centre of a four-character grid square. -/
def fourCharacterGridCenter (locator : String) : Option (ℚ × ℚ) :=
  match (toAsciiUppercase (trim locator)).toList with
  | a :: b :: c :: d :: _ => do
      let fieldLongitude ← letterIndex a
      let fieldLatitude ← letterIndex b
      let squareLongitude ← digitIndex c
      let squareLatitude ← digitIndex d
      some (-90 + fieldLatitude * 10 + squareLatitude + 1 / 2,
        -180 + fieldLongitude * 20 + squareLongitude * 2 + 1)
  | _ => none

def gridDistanceKilometers (station contact : String) : Option ℚ :=
  (fourCharacterGridCenter station).bind fun first =>
    (fourCharacterGridCenter contact).map fun second =>
      Platform.haversineKilometers first second

def contactPrefix (contact : Contact) : Option String :=
  (((jsonString (contactAdifValue contact "PFX")).map fun text => toUppercase (trim text)).filter
    fun text => !text.isEmpty).or
      ((jsonString (contactAdifValue contact "CALL")).bind Dxcc.callsignPrefix)

def isJarlJapanesePrefix (pfx : String) : Bool :=
  ["JA", "JE", "JF", "JG", "JH", "JI", "JJ", "JK", "JL", "JM", "JN", "JO", "JP", "JQ", "JR",
    "JS", "7J", "7K", "7L", "7M", "8J"].contains (String.ofList (pfx.toList.take 2))

def isJarlUsMainlandPrefix (pfx : String) : Bool :=
  match pfx.toList with
  | 'K' :: _ | 'N' :: _ | 'W' :: _ => true
  | 'A' :: c :: _ => 'A' ≤ c && c ≤ 'L'
  | _ => false

def isJarlCanadianPrefix (pfx : String) : Bool :=
  ["VA", "VE", "VO", "VY", "CY"].any (startsWith pfx)

def isJarlAustralianPrefix (pfx : String) : Bool :=
  ["AX", "VI", "VK"].any (startsWith pfx)

def jarlCallArea (contact : Contact) : Option String := do
  let callsign ← jsonString (contactAdifValue contact "CALL")
  let pfx ← Dxcc.callsignPrefix callsign
  let area := String.singleton ((pfx.toList.reverse.find? isAsciiDigit).getD '0')
  let dxcc := (jsonString (contactAdifValue contact "DXCC")).bind fun text => parseU16 (trim text)
  match dxcc with
  | some 339 => if startsWith pfx "JD1" then none else some ("JA" ++ area)
  | some 291 => if isJarlUsMainlandPrefix pfx then some ("W" ++ area) else none
  | some 1 => if isJarlCanadianPrefix pfx then some ("VE" ++ area) else none
  | some 150 => if isJarlAustralianPrefix pfx then some ("VK" ++ area) else none
  | some _ => none
  | none =>
      if isJarlJapanesePrefix pfx && !startsWith pfx "JD1" then some ("JA" ++ area)
      else if isJarlUsMainlandPrefix pfx then some ("W" ++ area)
      else if isJarlCanadianPrefix pfx then some ("VE" ++ area)
      else if isJarlAustralianPrefix pfx then some ("VK" ++ area)
      else none

def sacCountry : Nat → Option String
  | 259 => some "JW"
  | 118 => some "JX"
  | 266 => some "LA"
  | 224 => some "OH"
  | 237 => some "OX"
  | 222 => some "OY"
  | 221 => some "OZ"
  | 284 => some "SM"
  | 242 => some "TF"
  | _ => none

/-- The entity number is parsed here without trimming, unlike in `jarlCallArea`. -/
def sacArea (contact : Contact) : Option String := do
  let text ← jsonString (contactAdifValue contact "DXCC")
  let dxcc ← parseU16 text
  let country ← sacCountry dxcc
  let area := (((contactPrefix contact).bind fun pfx => pfx.toList.find? isAsciiDigit)).getD '0'
  some (country ++ String.singleton area)

def normalizedFieldValue (field value : String) : String :=
  let normalized := toUppercase (trim value)
  if eqIgnoreAsciiCase field "CALL" then Callsign.dupeIdentity normalized else normalized

/-- A field the contact carries itself: ADIF first, then metadata. -/
def plainFieldValue (contact : Contact) (field : String) : Option String :=
  (((jsonString (contactAdifValue contact field)).or
    (jsonString (contactMetaValue contact field))).map (normalizedFieldValue field)).filter
      fun value => !value.isEmpty

def fieldValue (contact : Contact) (field : String) : Option String :=
  if eqIgnoreAsciiCase field "MODE_CLASS" then
    (jsonString (contactAdifValue contact "MODE")).map fun mode =>
      match toUppercase (trim mode) with
      | "CW" | "CW-R" => "CW"
      | "SSB" | "FM" | "AM" => "PHONE"
      | other => other
  else if eqIgnoreAsciiCase field "WPX_PREFIX" then contactPrefix contact
  else if eqIgnoreAsciiCase field "GRID_FIELD" then
    (jsonString (contactAdifValue contact "GRIDSQUARE")).bind fun grid =>
      let cs := (toUppercase (trim grid)).toList
      if 2 ≤ cs.length then some (String.ofList (cs.take 2)) else none
  else if eqIgnoreAsciiCase field "JARL_CALL_AREA" then jarlCallArea contact
  else if eqIgnoreAsciiCase field "JARL_ENTITY" then
    if (jarlCallArea contact).isNone then
      ((jsonString (contactAdifValue contact "DXCC")).map fun text =>
        toUppercase (trim text)).filter
        fun value => !value.isEmpty
    else none
  else if eqIgnoreAsciiCase field "DOK_AREA" then
    ((jsonString (contactAdifValue contact "SRX_STRING")).or
      (jsonString (contactAdifValue contact "SRX"))).bind fun exchange =>
        (exchange.toList.find? isAsciiAlphabetic).map fun c => String.singleton c.toUpper
  else if eqIgnoreAsciiCase field "SAC_AREA" then sacArea contact
  else plainFieldValue contact field

def scoringKey (contact : Contact) (fields : List String) : String :=
  joinWith "|" (fields.map fun field => (fieldValue contact field).getD "")

def dupeModeClass (contact : Contact) : Option String :=
  (fieldValue contact "MODE").map fun mode =>
    match mode with
    | "CW" | "CW-R" => "CW"
    | "SSB" => "SSB"
    | "FM" => "FM"
    | _ => "DATA"

def dupeScoringKey (contact : Contact) (fields : List String) : String :=
  joinWith "|" (fields.map fun field =>
    if eqIgnoreAsciiCase field "MODE" then (dupeModeClass contact).getD ""
    else (fieldValue contact field).getD "")

/-- Another field must be there and compare as asked. -/
def comparesWith (contact : Contact) (value : String) (expected : Bool) : Option String → Bool
  | none => true
  | some otherField =>
      match fieldValue contact otherField with
      | none => false
      | some otherValue => eqIgnoreAsciiCase value otherValue == expected

def conditionMatches (condition : ScoringCondition) (contact : Contact) : Bool :=
  match fieldValue contact condition.field with
  | none => false
  | some value =>
      comparesWith contact value true condition.matchesField
        && comparesWith contact value false condition.notMatchesField
        &&
        let suffixValue := (((jsonString (contactAdifValue contact condition.field)).or
          (jsonString (contactMetaValue contact condition.field))).map
            fun text => toUppercase (trim text)).getD value
        let endsWithSuffix := fun suffix => endsWith suffixValue (toUppercase (trim suffix))
        let validValues := condition.values.map toUppercase
        let excludedValues := condition.excludeValues.map toUppercase
        (validValues.isEmpty || validValues.contains value)
          && !excludedValues.contains value
          && (condition.suffixes.isEmpty || condition.suffixes.any endsWithSuffix)
          && !condition.excludeSuffixes.any endsWithSuffix

def allConditionsMatch (when? : Option ScoringCondition) (whenAll : List ScoringCondition)
    (contact : Contact) : Bool :=
  when?.all (conditionMatches · contact) && whenAll.all (conditionMatches · contact)

end Log73
