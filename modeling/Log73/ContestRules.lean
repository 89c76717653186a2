import Log73.Json

/-!
The parts of a contest definition (`contest_rules.rs`) that scoring, contact validation
and the Cabrillo export read. A sorted map of the source is the list of its entries in
order.
-/

namespace Log73

structure ScoringCondition where
  field : String
  matchesField : Option String := none
  notMatchesField : Option String := none
  values : List String := []
  excludeValues : List String := []
  suffixes : List String := []
  excludeSuffixes : List String := []

structure QsoPointRule where
  id : String
  when? : Option ScoringCondition := none
  whenAll : List ScoringCondition := []
  points : Int64

structure TimeBonusPointRule where
  startUtc : String
  endUtc : String
  points : Int64

structure GridDistanceQsoPoints where
  stationGridField : String
  contactGridField : String
  basePoints : Int64
  kilometersPerPoint : Int64
  minimumDistancePoints : Int64

inductive GeographyPointValue where
  | fixed (points : Int64)
  | byBand (default : Int64) (byBand : List (String × Int64))

structure GeographyQsoPoints where
  countryField : String
  stationCountryField : String
  continentField : String
  stationContinentField : String
  sameCountry : GeographyPointValue
  differentCountryNorthAmerica : GeographyPointValue
  differentCountrySameContinent : GeographyPointValue
  differentContinent : GeographyPointValue
  unresolved : GeographyPointValue := .fixed 0

structure QsoPoints where
  points : Option Int64 := none
  rules : List QsoPointRule := []
  timeBonusPoints : List TimeBonusPointRule := []
  geography : Option GeographyQsoPoints := none
  gridDistance : Option GridDistanceQsoPoints := none
  categoryBandParam : Option String := none

structure MultiplierRule where
  id : String
  name : String
  field : String
  key : List String := []
  values : List String := []
  when? : Option ScoringCondition := none
  whenAll : List ScoringCondition := []
  excludeCallSuffixes : List String := []
  excludeValues : List String := []
  fixedKey : Option String := none
  maxCount : Option Nat := none
  capGroup : Option String := none

structure BonusPointRule where
  name : String
  field : String
  key : List String := []
  values : List (String × Int64)

structure ParamMultiplierRule where
  param : String
  values : List (String × Int64)

structure MultiplierCountBonusRule where
  multiplier : String
  thresholds : List (Nat × Int64)

structure QsoCountBonusRule where
  id : String
  field : String
  param : Option String := none
  values : List String := []
  thresholds : List (Nat × Int64)

structure ScoringRules where
  qsoPoints : Option QsoPoints := none
  minimumMultiplierCount : Int64 := 0
  dupeKey : List String := []
  multipliers : List MultiplierRule := []
  bonusPoints : List BonusPointRule := []
  paramMultipliers : List ParamMultiplierRule := []
  multiplierCountBonusPoints : List MultiplierCountBonusRule := []
  qsoCountBonusPoints : List QsoCountBonusRule := []

inductive FieldInputKind where
  | string | rst | numeric | serial
  deriving DecidableEq

structure FieldInput where
  kind : FieldInputKind
  maxLength : Option Nat := none

inductive ValidationMatch where
  | all | any
  deriving DecidableEq

structure FieldValidation where
  required : Bool := true
  pattern : Option String := none
  values : List String := []
  matchMode : ValidationMatch := .all

inductive ExchangeDirection where
  | sent | received
  deriving DecidableEq

inductive SerialScope where
  | global | band | categoryTransmitter
  deriving DecidableEq

structure ExchangeField where
  label : String
  input : FieldInput
  adif : String
  direction : ExchangeDirection
  validation : FieldValidation := {}
  default : Option Value := none
  source : Option String := none
  onlyWhen : Option ScoringCondition := none
  serialScope : SerialScope := .global

structure SetupField where
  key : String
  default : Option Value := none
  maxLines : Option Nat := none
  preserveCase : Bool := false
  cabrilloHeader : Option String := none
  multiSingleHasMultTransmitter : Bool := false
  validation : FieldValidation := {}

structure CabrilloFixedHeader where
  name : String
  value : String

structure CabrilloRules where
  fixedHeaders : List CabrilloFixedHeader := []
  exportFields : List SetupField := []

structure ContestRules where
  id : String
  bands : List String := []
  modes : List String := []
  excludedModes : List String := []
  setupFields : List SetupField := []
  exchange : List ExchangeField := []
  scoring : ScoringRules := {}
  cabrillo : Option CabrilloRules := none

namespace GeographyPointValue

def forBand : GeographyPointValue → Option String → Int64
  | .fixed points, _ => points
  | .byBand default points, band =>
      (band.bind fun band =>
        (points.find? fun entry => eqIgnoreAsciiCase entry.1 band).map Prod.snd).getD default

end GeographyPointValue

end Log73
