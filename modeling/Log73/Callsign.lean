import Log73.Text

/-!
Callsign parsing (`callsign.rs`) and DXCC resolution (`dxcc.rs`): the station
identity used for duplicates, the WPX prefix, and the entity of a callsign.
-/

namespace Log73

variable [Platform]

namespace Callsign

def normalize (input : String) : String := toUppercase (trim input)

/-- A digit in the second or third character. -/
def isCallsignLike (component : List Char) : Bool :=
  isAsciiDigit (component.getD 1 '\x00') || isAsciiDigit (component.getD 2 '\x00')

inductive Slash where
  | none
  | pair (left right : List Char)
  | invalid

def splitMiddleSlash (normalized : List Char) : Slash :=
  match splitOnChar '/' normalized with
  | [] => .invalid
  | [_] => .none
  | [first, second] =>
      if first.isEmpty || second.isEmpty then .invalid else .pair first second
  | _ => .invalid

/-- The station identity among two slash components. -/
def resolvePair (left right : List Char) : Option (List Char) :=
  match isCallsignLike left, isCallsignLike right with
  | false, true => some right
  | true, false => some left
  | true, true => if right.length < left.length then some left else some right
  | false, false => none

def parseBase (normalized : List Char) : Option (List Char) :=
  match splitMiddleSlash normalized with
  | .none => some normalized
  | .pair left right => resolvePair left right
  | .invalid => none

/-- Structural validation failure of a normalized callsign. -/
inductive StructureError where
  | invalidCharacter
  | tooManySlashes
  | edgeSlash

/-- Charset and slash placement. A query may also hold `?`. -/
def checkStructure (normalized : String) (allowQuery : Bool) : Except StructureError Unit :=
  if !normalized.toList.all fun c =>
      isAsciiUppercase c || isAsciiDigit c || c = '/' || (allowQuery && c = '?') then
    .error .invalidCharacter
  else if 1 < normalized.toList.count '/' then .error .tooManySlashes
  else if startsWith normalized "/" || endsWith normalized "/" then .error .edgeSlash
  else .ok ()

/-- The resolved base when there is one, else the whole normalized input. -/
def dupeIdentity (input : String) : String :=
  let normalized := (normalize input).toList
  String.ofList ((parseBase normalized).getD normalized)

end Callsign

namespace Dxcc

def isNonPrefixCallsignDesignator (value : String) : Bool :=
  ["MM", "M", "AM", "A", "E", "J", "P", "QRP", "QRPP", "AG", "AE", "KT"].contains value

def isPrefixLikeCallsignComponent (value : List Char) : Bool :=
  !value.any isAsciiDigit || value.getLast?.any isAsciiDigit

/-- The part of a component up to and including its last digit. -/
def throughLastDigit (component : List Char) : List Char :=
  (component.reverse.dropWhile fun c => !isAsciiDigit c).reverse

def portableNumericPrefix (base number : List Char) : Option (List Char) :=
  if base.any isAsciiDigit then
    let stem := ((throughLastDigit base).reverse.dropWhile isAsciiDigit).reverse
    if stem.isEmpty then none else some (stem ++ number)
  else none

def prefixFromComponent (component : List Char) : Option (List Char) :=
  if component.isEmpty || !component.all isAsciiAlphanumeric then none
  else if component.any isAsciiDigit then some (throughLastDigit component)
  else
    let letters := (component.filter isAsciiAlphabetic).take 2
    if letters.length = 2 then some (letters ++ ['0']) else none

/-- The component of a callsign its WPX prefix is taken from. -/
def prefixSource (normalized : List Char) : Option (List Char) :=
  match splitOnChar '/' normalized with
  | [_] => some normalized
  | [left, right] =>
      if left.isEmpty || right.isEmpty then none
      else if isNonPrefixCallsignDesignator (String.ofList right) then some left
      else if right.all isAsciiDigit then portableNumericPrefix left right
      else
        match isPrefixLikeCallsignComponent left, isPrefixLikeCallsignComponent right with
        | true, false => some left
        | false, true => some right
        | _, _ => if left.length < right.length then some left else some right
  | _ => none

def callsignPrefix (callsign : String) : Option String :=
  let normalized := (Callsign.normalize callsign).toList
  if normalized.isEmpty || !normalized.all (fun c => isAsciiAlphanumeric c || c == '/') then none
  else ((prefixSource normalized).bind prefixFromComponent).map String.ofList

end Dxcc

structure DxccEntity where
  countryName : String
  adif : Nat
  cqZone : Nat
  ituZone : Nat
  continent : String
  latitude : ℚ
  longitude : ℚ
  utcOffset : ℚ
  primaryPrefix : String
  waedcCqList : Bool

structure DxccRule where
  pattern : String
  exact : Bool
  entityIndex : Nat
  cqZone : Option Nat
  ituZone : Option Nat
  continent : Option String
  latitude : Option ℚ
  longitude : Option ℚ
  utcOffset : Option ℚ

structure DxccInfo where
  countryName : String
  adif : Nat
  cqZone : Nat
  ituZone : Nat
  continent : String
  latitude : ℚ
  longitude : ℚ
  utcOffset : ℚ
  primaryPrefix : String
  waedcCqList : Bool
  deriving DecidableEq

structure DxccDatabase where
  entities : List DxccEntity
  rules : List DxccRule

namespace DxccDatabase

variable (database : DxccDatabase)

/-- Each rule of a parsed database points at an entity; an index without one has none. -/
def infoForRule (rule : DxccRule) : Option DxccInfo :=
  database.entities[rule.entityIndex]?.map fun entity =>
    { countryName := entity.countryName
      adif := entity.adif
      cqZone := rule.cqZone.getD entity.cqZone
      ituZone := rule.ituZone.getD entity.ituZone
      continent := rule.continent.getD entity.continent
      latitude := rule.latitude.getD entity.latitude
      longitude := rule.longitude.getD entity.longitude
      utcOffset := rule.utcOffset.getD entity.utcOffset
      primaryPrefix := entity.primaryPrefix
      waedcCqList := entity.waedcCqList }

def ruleIsWaedcCq (rule : DxccRule) : Bool :=
  database.entities[rule.entityIndex]?.any (·.waedcCqList)

/-- The first exact rule, unless a later one is the first on the WAEDC list. -/
def lookupExact (normalizedCallsign : String) : Option DxccInfo :=
  let best := database.rules.foldl (fun (best : Option DxccRule) rule =>
    if !rule.exact || rule.pattern != normalizedCallsign then best
    else
      match best with
      | none => some rule
      | some current =>
          if database.ruleIsWaedcCq rule && !database.ruleIsWaedcCq current then some rule
          else best) none
  best.bind database.infoForRule

/-- The exact rule, else the last of the longest prefix rules. -/
def lookupDirect (callsign : String) : Option DxccInfo :=
  let normalizedCallsign := Callsign.normalize callsign
  (database.lookupExact normalizedCallsign).or <|
    (Dxcc.callsignPrefix normalizedCallsign).bind fun _ =>
      let best := database.rules.foldl (fun (best : Option DxccRule) rule =>
        if rule.exact || !startsWith normalizedCallsign rule.pattern then best
        else
          match best with
          | none => some rule
          | some current =>
              if current.pattern.utf8ByteSize ≤ rule.pattern.utf8ByteSize then some rule
              else best) none
      best.bind database.infoForRule

def isIgnoredSlashSuffix (part : String) : Bool :=
  ["M", "P", "MM", "QRP"].contains part
    || (part.utf8ByteSize = 1 && part.toList.all isAsciiDigit)

def lookup (callsign : String) : Option DxccInfo :=
  let normalizedCallsign := Callsign.normalize callsign
  if normalizedCallsign.isEmpty then none
  else
    (database.lookupExact normalizedCallsign).or <|
      match Callsign.splitMiddleSlash normalizedCallsign.toList with
      | .pair left right =>
          let left := String.ofList left
          let right := String.ofList right
          if left.utf8ByteSize < right.utf8ByteSize then database.lookupDirect left
          else if isIgnoredSlashSuffix right then database.lookupDirect left
          else (database.lookupDirect right).or (database.lookupDirect left)
      | _ => database.lookupDirect normalizedCallsign

end DxccDatabase

end Log73
