import Log73.Scoring.Module

/-!
The two scorers of `scoring.rs`: `ContestScorer`, which folds over a list of
contacts, and the per-log state of the incremental tracker with its additions.
-/

namespace Log73

variable [Platform]

def setContactScoreFields (contact : Contact) (points mults bonus : Int64) (isDupe : Bool) :
    Contact :=
  setContactMeta (setContactMeta (setContactMeta (setContactMeta contact
    "pts" (.ofI64 points)) "mult" (.ofI64 mults)) "bonus" (.ofI64 bonus)) "dupe" (.bool isDupe)

def scoredI64 (contact : Contact) (field : String) : Int64 :=
  ((contactMetaValue contact field).bind Value.asI64).elim 0 Int64.ofInt

def isDupeContact (contact : Contact) : Bool :=
  ((contactMetaValue contact "dupe").bind Value.asBool).getD false

def incrementContactScoreField (contact : Contact) (field : String) (delta : Int64) : Contact :=
  setContactMeta contact field (.ofI64 (scoredI64 contact field + delta))

namespace MultiplierCandidate

/-- Candidates of one cap group share a count; a candidate without one counts by its rule. -/
def capKey (candidate : MultiplierCandidate) : String := candidate.capGroup.getD candidate.id

def capReached (candidate : MultiplierCandidate) (counts : KeyMap Nat) : Bool :=
  candidate.maxCount.any fun maximum => maximum ≤ counts[candidate.capKey]?.getD 0

end MultiplierCandidate

/-- The multipliers, bonus and score of a total, from the counts behind them. -/
def recalculatedTotals (module : ContestScoringModule) (totals : ScoreTotals)
    (rawMultiplierCount directBonusPoints : Int64) (multiplierKeys : List String)
    (qsoCountBonusCounts : KeyMap Nat) : ScoreTotals :=
  let multiplierFactor :=
    if module.hasMultipliers then max rawMultiplierCount module.minimumMultiplierCount else 1
  let bonusPoints := directBonusPoints + module.multiplierCountBonusPoints multiplierKeys
    + module.qsoCountBonusPoints qsoCountBonusCounts
  { totals with
    multipliers := if module.hasMultipliers then multiplierFactor else 0
    bonusPoints := bonusPoints
    score := totals.qsoPoints * multiplierFactor * module.scoreFactor + bonusPoints }

structure ContestScorer where
  module : ContestScoringModule
  dupeKeys : KeyMap Nat := ∅
  rawMultiplierCount : Int64 := 0
  multiplierKeys : KeyMap Unit := ∅
  multiplierCounts : KeyMap Nat := ∅
  bonusKeys : KeyMap Unit := ∅
  qsoCountBonusCounts : KeyMap Nat := ∅
  directBonusPoints : Int64 := 0
  totals : ScoreTotals := {}

namespace ContestScorer

variable (scorer : ContestScorer) (contact : Contact)

def recalculateScore : ContestScorer :=
  { scorer with
    totals := recalculatedTotals scorer.module scorer.totals scorer.rawMultiplierCount
      scorer.directBonusPoints scorer.multiplierKeys.keys scorer.qsoCountBonusCounts }

/-- Whether the dupe key was seen before; it is counted either way. -/
def isDupe : ContestScorer × Bool :=
  match scorer.module.dupeKeyFor contact with
  | none => (scorer, false)
  | some key =>
      ({ scorer with dupeKeys := bump scorer.dupeKeys key },
        decide (0 < scorer.dupeKeys[key]?.getD 0))

def multipliers : ContestScorer × Int64 :=
  (scorer.module.multiplierCandidatesFor contact).foldl (fun acc candidate =>
    if acc.1.multiplierKeys.contains candidate.key
        || candidate.capReached acc.1.multiplierCounts then acc
    else
      ({ acc.1 with
          multiplierKeys := acc.1.multiplierKeys.insert candidate.key ()
          multiplierCounts := bump acc.1.multiplierCounts candidate.capKey }, acc.2 + 1))
    (scorer, 0)

def bonusPoints : ContestScorer × Int64 :=
  (scorer.module.bonusKeysFor contact).foldl (fun acc entry =>
    if acc.1.bonusKeys.contains entry.1 then acc
    else ({ acc.1 with bonusKeys := acc.1.bonusKeys.insert entry.1 () }, acc.2 + entry.2))
    (scorer, 0)

/-- Points, multipliers and bonus of a contact that is no dupe. -/
def scoreOriginal : ContestScorer × Int64 × Int64 × Int64 :=
  let points := scorer.module.qsoPointsFor contact
  let (scorer, mults) := scorer.multipliers contact
  let (scorer, bonus) := scorer.bonusPoints contact
  (scorer, points, mults, bonus)

def addQso : ContestScorer × Contact :=
  let scorer := { scorer with
    totals := { scorer.totals with qsoCount := scorer.totals.qsoCount + 1 } }
  let (scorer, isDupe) := scorer.isDupe contact
  let (scorer, points, mults, bonus) :=
    if isDupe then (scorer, 0, 0, 0) else scorer.scoreOriginal contact
  let scorer := { scorer with
    totals := { scorer.totals with qsoPoints := scorer.totals.qsoPoints + points }
    rawMultiplierCount := scorer.rawMultiplierCount + mults
    directBonusPoints := scorer.directBonusPoints + bonus
    qsoCountBonusCounts :=
      if !isDupe && decide (0 < points) then
        (scorer.module.qsoCountBonusKeysFor contact).foldl bump scorer.qsoCountBonusCounts
      else scorer.qsoCountBonusCounts }
  (scorer.recalculateScore, setContactScoreFields contact points mults bonus isDupe)

def addQsos : ContestScorer → List Contact → ContestScorer × List Contact
  | scorer, [] => (scorer, [])
  | scorer, contact :: contacts =>
      let (scorer, contact) := scorer.addQso contact
      let (scorer, contacts) := addQsos scorer contacts
      (scorer, contact :: contacts)

end ContestScorer

def scoreContacts (rules : ContestRules) (contestParams : Value) (contacts : List Contact) :
    ScoreTotals × List Contact :=
  let result := ContestScorer.addQsos { module := .new rules contestParams } contacts
  (result.1.totals, result.2)

/-- A shared allocation; `Arc::ptr_eq` compares its address. -/
structure Arc (α : Type) where
  address : Nat
  value : α

structure IncrementalLogState where
  module : Arc ContestScoringModule
  totals : ScoreTotals := {}
  rawMultiplierCount : Int64 := 0
  directBonusPoints : Int64 := 0
  dupeCounts : KeyMap Nat := ∅
  dupeOwners : KeyMap Int := ∅
  multiplierOwners : KeyMap Int := ∅
  multiplierCounts : KeyMap Nat := ∅
  bonusOwners : KeyMap Int := ∅
  qsoCountBonusCounts : KeyMap Nat := ∅

namespace IncrementalLogState

variable (state : IncrementalLogState) (contact : Contact)

def recalculateScore : IncrementalLogState :=
  { state with
    totals := recalculatedTotals state.module.value state.totals state.rawMultiplierCount
      state.directBonusPoints state.multiplierOwners.keys state.qsoCountBonusCounts }

/-- The owner of every candidate nobody owns, while the caps allow. -/
def creditMultipliers (contactId : Option Int) (candidates : List MultiplierCandidate)
    (owners : KeyMap Int) (counts : KeyMap Nat) : KeyMap Int × KeyMap Nat × Int64 :=
  candidates.foldl (fun acc candidate =>
    match contactId with
    | none => acc
    | some contactId =>
        if acc.1.contains candidate.key || candidate.capReached acc.2.1 then acc
        else (acc.1.insert candidate.key contactId, bump acc.2.1 candidate.capKey, acc.2.2 + 1))
    (owners, counts, 0)

def creditBonuses (contactId : Option Int) (entries : List (String × Int64))
    (owners : KeyMap Int) : KeyMap Int × Int64 :=
  entries.foldl (fun acc entry =>
    match contactId with
    | none => acc
    | some contactId =>
        if acc.1.contains entry.1 then acc
        else (acc.1.insert entry.1 contactId, acc.2 + entry.2))
    (owners, 0)

def scoreNonDupeContact (contactId : Option Int) :
    IncrementalLogState × Int64 × Int64 × Int64 :=
  let points := state.module.value.qsoPointsFor contact
  let (multiplierOwners, multiplierCounts, mults) :=
    creditMultipliers contactId (state.module.value.multiplierCandidatesFor contact)
      state.multiplierOwners state.multiplierCounts
  let (bonusOwners, bonus) :=
    creditBonuses contactId (state.module.value.bonusKeysFor contact) state.bonusOwners
  ({ state with
      multiplierOwners := multiplierOwners
      multiplierCounts := multiplierCounts
      bonusOwners := bonusOwners }, points, mults, bonus)

/-- Score a contact as an original: the part `add_contact` and `promote_contact` share. -/
def scoreOriginal : IncrementalLogState × Contact :=
  let (state, points, mults, bonus) := state.scoreNonDupeContact contact (contactId contact)
  ({ state with
      totals := { state.totals with qsoPoints := state.totals.qsoPoints + points }
      rawMultiplierCount := state.rawMultiplierCount + mults
      directBonusPoints := state.directBonusPoints + bonus
      qsoCountBonusCounts :=
        if 0 < points then
          (state.module.value.qsoCountBonusKeysFor contact).foldl bump state.qsoCountBonusCounts
        else state.qsoCountBonusCounts },
    setContactScoreFields contact points mults bonus false)

/-- Count the contact in its dupe group, which the first contact of the group comes to own. -/
def joinDupeGroup : IncrementalLogState × Bool :=
  match state.module.value.dupeKeyFor contact with
  | none => (state, false)
  | some key =>
      let isDupe := decide (0 < state.dupeCounts[key]?.getD 0)
      let dupeOwners :=
        match isDupe, contactId contact with
        | false, some id => if state.dupeOwners.contains key then state.dupeOwners
            else state.dupeOwners.insert key id
        | _, _ => state.dupeOwners
      ({ state with dupeCounts := bump state.dupeCounts key, dupeOwners := dupeOwners }, isDupe)

def addContact : IncrementalLogState × Contact :=
  let state := { state with
    totals := { state.totals with qsoCount := state.totals.qsoCount + 1 } }
  let (state, isDupe) := state.joinDupeGroup contact
  if isDupe then (state.recalculateScore, setContactScoreFields contact 0 0 0 true)
  else
    let (state, contact) := state.scoreOriginal contact
    (state.recalculateScore, contact)

def addContacts : IncrementalLogState → List Contact → IncrementalLogState × List Contact
  | state, [] => (state, [])
  | state, contact :: contacts =>
      let (state, contact) := state.addContact contact
      let (state, contacts) := addContacts state contacts
      (state, contact :: contacts)

/-- Forget everything and score the contacts in the order given. -/
def reset (module : Arc ContestScoringModule) (contacts : List Contact) :
    IncrementalLogState × List Contact :=
  addContacts { module := module } contacts

end IncrementalLogState

/-- A contest with one point a contact, duplicates by callsign and a multiplier a state. -/
def stateContest : ContestRules where
  id := "STATES"
  scoring :=
    { qsoPoints := some { points := some 1 }
      dupeKey := ["CALL"]
      multipliers := [{ id := "state", name := "State", field := "STATE", key := ["STATE"] }] }

/-- A contact with every field the database asks for. -/
def stateContact (id : Int) (call state : String) (time : Int) : Contact :=
  buildContact [("id", .ofInt id)]
    [("BAND", .string "20m"), ("CALL", .string call), ("FREQ", .ofInt 14074000),
      ("MODE", .string "CW"), ("QSO_DATE_TIME_ON", .ofInt time),
      ("STATE", .string state), ("STATION_CALLSIGN", .string "N0CALL")]

end Log73
