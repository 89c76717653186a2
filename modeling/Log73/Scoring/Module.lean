import Log73.Library.MachineInt
import Log73.Scoring.Fields

/-!
`ContestScoringModule` of `scoring.rs`: what one contact is worth under the rules
of a contest, and the totals that depend on counts only.
-/

namespace Log73

open SortedAssoc

structure ScoreTotals where
  qsoCount : Nat := 0
  qsoPoints : Int64 := 0
  multipliers : Int64 := 0
  bonusPoints : Int64 := 0
  score : Int64 := 0
  deriving DecidableEq

structure MultiplierCandidate where
  id : String
  capGroup : Option String
  key : String
  maxCount : Option Nat

structure ContestScoringModule where
  rules : ContestRules
  contestParams : Value
  scoreFactor : Int64

/-- The entry of a map whose key matches ignoring ASCII case, as trimmed text. -/
def selectedParam (contestParams : Value) (param : String) : Option String :=
  contestParams.asObject.bind fun params =>
    ((params.find? fun entry => eqIgnoreAsciiCase entry.1 param).bind fun entry =>
      entry.2.asStr).map trim

def scoreFactorFor (rules : ContestRules) (contestParams : Value) : Int64 :=
  (rules.scoring.paramMultipliers.map fun multiplier =>
    match selectedParam contestParams multiplier.param with
    | none => 1
    | some selected =>
        ((multiplier.values.find? fun entry => eqIgnoreAsciiCase entry.1 selected).map
          Prod.snd).getD 1).foldl (· * ·) 1

/-- The points of the highest threshold a count reaches; thresholds are in ascending order. -/
def thresholdPoints (thresholds : List (Nat × Int64)) (count : Nat) : Int64 :=
  ((thresholds.reverse.find? fun entry => entry.1 ≤ count).map Prod.snd).getD 0

/-- `*counts.entry(key).or_default() += 1`. -/
def bump (counts : KeyMap Nat) (key : String) : KeyMap Nat :=
  counts.insert key (counts[key]?.getD 0 + 1)

/-- `value as i64` for a double: rounding is done, the range saturates. -/
def saturateI64 (value : Int) : Int64 := Int64.ofInt (max i64Min (min i64Max value))

section Points

variable [Platform]

def timeBonusPoints (qsoPoints : QsoPoints) (contact : Contact) : Int64 :=
  match (contactAdifValue contact "QSO_DATE_TIME_ON").bind Value.asI64 with
  | none => 0
  | some timestamp =>
      let minute := (timestamp % (24 * 60 * 60)).toNat / 60
      (qsoPoints.timeBonusPoints.filterMap fun rule =>
        (parseUtcMinute rule.startUtc).bind fun start =>
          (parseUtcMinute rule.endUtc).bind fun finish =>
            let inside :=
              if start = finish then true
              else if start < finish then decide (start ≤ minute) && decide (minute < finish)
              else decide (start ≤ minute) || decide (minute < finish)
            if inside then some rule.points else none).sum

def gridDistancePoints (rule : GridDistanceQsoPoints) (contact : Contact) : Option Int64 :=
  (fieldValue contact rule.stationGridField).bind fun stationGrid =>
    (fieldValue contact rule.contactGridField).bind fun contactGrid =>
      (gridDistanceKilometers stationGrid contactGrid).map fun distance =>
        rule.basePoints + max
          (saturateI64 (distance / (rule.kilometersPerPoint.toInt : ℚ)).ceil)
          rule.minimumDistancePoints

/-- A contact that misses one of the four places is unresolved. -/
def geographyPoints (geography : GeographyQsoPoints) (contact : Contact) : Int64 :=
  let band := fieldValue contact "BAND"
  match fieldValue contact geography.countryField,
      fieldValue contact geography.stationCountryField,
      fieldValue contact geography.continentField,
      fieldValue contact geography.stationContinentField with
  | some country, some stationCountry, some continent, some stationContinent =>
      if country = stationCountry then geography.sameCountry.forBand band
      else if continent ≠ stationContinent then geography.differentContinent.forBand band
      else if continent = "NA" then geography.differentCountryNorthAmerica.forBand band
      else geography.differentCountrySameContinent.forBand band
  | _, _, _, _ => geography.unresolved.forBand band

def rulePoints (rules : List QsoPointRule) (contact : Contact) : Option Int64 :=
  (rules.find? fun rule => allConditionsMatch rule.when? rule.whenAll contact).map (·.points)

def scoreQsoPoints (qsoPoints : QsoPoints) (contact : Contact) : Option Int64 :=
  let basePoints :=
    match qsoPoints.gridDistance, qsoPoints.geography, qsoPoints.points with
    | some gridDistance, _, _ => gridDistancePoints gridDistance contact
    | none, some geography, _ => some (geographyPoints geography contact)
    | none, none, some points => some points
    | none, none, none => rulePoints qsoPoints.rules contact
  basePoints.map fun basePoints => basePoints + timeBonusPoints qsoPoints contact

def multiplierMatches (multiplier : MultiplierRule) (contact : Contact) : Bool :=
  let call := toUppercase (trim ((jsonString (contactAdifValue contact "CALL")).getD ""))
  !multiplier.excludeCallSuffixes.any (fun suffix => endsWith call (toUppercase (trim suffix)))
    && allConditionsMatch multiplier.when? multiplier.whenAll contact
    &&
    match fieldValue contact multiplier.field with
    | none => false
    | some value =>
        !multiplier.excludeValues.any (eqIgnoreAsciiCase · value)
          && (multiplier.values.isEmpty || multiplier.values.any (eqIgnoreAsciiCase · value))

/-- The band of the entry category admits the contact. -/
def contactInCategoryBand (rules : ContestRules) (contestParams : Value) (contact : Contact) :
    Bool :=
  match rules.scoring.qsoPoints.bind (·.categoryBandParam) with
  | none => true
  | some paramName =>
      match (((contestParams.asObject.bind (get? · paramName)).bind Value.asStr).map trim).filter
          (fun value => !value.isEmpty) with
      | none => true
      | some categoryBand =>
          eqIgnoreAsciiCase categoryBand "ALL"
            || (fieldValue contact "BAND").any (eqIgnoreAsciiCase categoryBand)

end Points

namespace ContestScoringModule

def new (rules : ContestRules) (contestParams : Value) : ContestScoringModule where
  rules := rules
  contestParams := contestParams
  scoreFactor := scoreFactorFor rules contestParams

variable (module : ContestScoringModule)

def hasMultipliers : Bool := !module.rules.scoring.multipliers.isEmpty

def minimumMultiplierCount : Int64 := module.rules.scoring.minimumMultiplierCount

def hasCappedMultipliers : Bool := module.rules.scoring.multipliers.any (·.maxCount.isSome)

def multiplierCountBonusPoints [Platform] (multiplierKeys : List String) : Int64 :=
  (module.rules.scoring.multiplierCountBonusPoints.map fun bonus =>
    let start := toUppercase (trim bonus.multiplier) ++ ":"
    thresholdPoints bonus.thresholds (multiplierKeys.countP (startsWith · start))).sum

def qsoCountBonusPoints (counts : KeyMap Nat) : Int64 :=
  (module.rules.scoring.qsoCountBonusPoints.map fun bonus =>
    ((counts.toList.filter fun entry => startsWith entry.1 (bonus.id ++ ":")).map fun entry =>
      thresholdPoints bonus.thresholds entry.2).sum).sum

variable [Platform] (contact : Contact)

def dupeKeyFor : Option String :=
  if module.rules.scoring.dupeKey.isEmpty then none
  else some (dupeScoringKey contact module.rules.scoring.dupeKey)

def qsoPointsFor : Int64 :=
  if contactInCategoryBand module.rules module.contestParams contact then
    (module.rules.scoring.qsoPoints.bind (scoreQsoPoints · contact)).getD 0
  else 0

def multiplierCandidatesFor : List MultiplierCandidate :=
  if contactInCategoryBand module.rules module.contestParams contact then
    (module.rules.scoring.multipliers.filter (multiplierMatches · contact)).map fun multiplier =>
      { id := multiplier.id
        capGroup := multiplier.capGroup
        key := toUppercase multiplier.name ++ ":" ++
          multiplier.fixedKey.getD (scoringKey contact multiplier.key)
        maxCount := multiplier.maxCount }
  else []

def multiplierKeysFor : List String := (module.multiplierCandidatesFor contact).map (·.key)

def bonusKeysFor : List (String × Int64) :=
  module.rules.scoring.bonusPoints.filterMap fun bonus =>
    (fieldValue contact bonus.field).bind fun value =>
      (get? bonus.values value).map fun points =>
        (toUppercase bonus.name ++ ":" ++ scoringKey contact bonus.key, points)

/-- A rule without a parameter always applies, one with a parameter when the log sets it
to one of the values the rule lists, if it lists any. -/
def qsoCountBonusApplies (bonus : QsoCountBonusRule) : Bool :=
  match bonus.param with
  | none => true
  | some param =>
      match selectedParam module.contestParams param with
      | none => false
      | some selected => bonus.values.isEmpty || bonus.values.any (eqIgnoreAsciiCase · selected)

def qsoCountBonusKeysFor : List String :=
  (module.rules.scoring.qsoCountBonusPoints.filter module.qsoCountBonusApplies).filterMap
    fun bonus => (fieldValue contact bonus.field).map fun value => bonus.id ++ ":" ++ value

end ContestScoringModule

end Log73
