import Log73.Library.Ledger
import Log73.Scoring.Scorer

/-!
`IncrementalScoreTracker` of `scoring.rs`: removals, promotions and the handlers
the log cache calls. A sweep carries the tracker state of a log, the slice of its
contacts and the ids of the contacts whose scores changed.
-/

namespace Log73

variable [Platform]

/-- `decrement_count`: an entry disappears with its last count. -/
def decrementCount (counts : KeyMap Nat) (key : String) : KeyMap Nat :=
  match counts[key]? with
  | none => counts
  | some count => if count ≤ 1 then counts.erase key else counts.insert key (count - 1)

/-- What contacts own keys of. -/
inductive KeyKind where
  | multiplier
  | bonus

structure Sweep where
  state : IncrementalLogState
  contacts : List Contact
  changed : List Int

namespace IncrementalLogState

variable (state : IncrementalLogState)

/-- Take the scores a contact carries out of the totals. -/
def withdraw (deleted : Contact) : IncrementalLogState :=
  { state with
    totals := { state.totals with
      qsoCount := state.totals.qsoCount - 1
      qsoPoints := state.totals.qsoPoints - scoredI64 deleted "pts" }
    rawMultiplierCount := state.rawMultiplierCount - scoredI64 deleted "mult"
    directBonusPoints := state.directBonusPoints - scoredI64 deleted "bonus"
    qsoCountBonusCounts :=
      if !isDupeContact deleted && decide (0 < scoredI64 deleted "pts") then
        (state.module.value.qsoCountBonusKeysFor deleted).foldl decrementCount
          state.qsoCountBonusCounts
      else state.qsoCountBonusCounts }

/-- A contact may take over: it has an id, and not the one to skip. -/
def isCandidate (skipCandidateId : Option Int) (contact : Contact) : Bool :=
  (contactId contact).any fun id => skipCandidateId != some id

def isDupeReplacement (dupeKey : String) (skipCandidateId : Option Int) (contact : Contact) :
    Bool :=
  isCandidate skipCandidateId contact && state.module.value.dupeKeyFor contact == some dupeKey

def isMultiplierReplacement (key : String) (skipCandidateId : Option Int) (contact : Contact) :
    Bool :=
  isCandidate skipCandidateId contact && !isDupeContact contact
    && (state.module.value.multiplierKeysFor contact).contains key

def isBonusReplacement (key : String) (skipCandidateId : Option Int) (contact : Contact) : Bool :=
  isCandidate skipCandidateId contact && !isDupeContact contact
    && ((state.module.value.bonusKeysFor contact).map Prod.fst).contains key

/-- The points the first entry for the key gives. -/
def bonusWorth (contact : Contact) (key : String) : Int64 :=
  (((state.module.value.bonusKeysFor contact).find? fun entry => entry.1 = key).map Prod.snd).getD 0

/-- Leave the dupe group; the owner of a group hands it to the first contact in the slice
that carries the key, at the returned index. -/
def leaveDupeGroup (deleted : Contact) (contacts : List Contact) (skipCandidateId : Option Int) :
    IncrementalLogState × Option Nat :=
  match state.module.value.dupeKeyFor deleted with
  | none => (state, none)
  | some key =>
      let dupeCounts := decrementCount state.dupeCounts key
      if (contactId deleted).isSome && state.dupeOwners[key]? == contactId deleted then
        let dupeOwners := state.dupeOwners.erase key
        match contacts.findIdx? (state.isDupeReplacement key skipCandidateId) with
        | none => ({ state with dupeCounts := dupeCounts, dupeOwners := dupeOwners }, none)
        | some index =>
            ({ state with
                dupeCounts := dupeCounts
                dupeOwners := (contacts[index]?.bind contactId).elim dupeOwners
                  (dupeOwners.insert key) }, some index)
      else ({ state with dupeCounts := dupeCounts }, none)

/-- `remove_owned_keys` on both ownership maps. -/
def releaseKeys (contactId : Option Int) : IncrementalLogState :=
  contactId.elim state fun id =>
    { state with
      multiplierOwners := Ledger.release state.multiplierOwners id
      bonusOwners := Ledger.release state.bonusOwners id }

def freedKeys (owners : KeyMap Int) (contactId : Option Int) : List String :=
  contactId.elim [] (Ledger.keysOf owners)

end IncrementalLogState

namespace Sweep

variable (sweep : Sweep)

/-- A dupe at the index becomes an original. -/
def promoteContact (index : Nat) : Sweep :=
  match sweep.contacts[index]? with
  | none => sweep
  | some contact =>
      if isDupeContact contact then
        let (state, scored) := sweep.state.scoreOriginal contact
        { state := state
          contacts := sweep.contacts.set index scored
          changed := (contactId contact).toList ++ sweep.changed }
      else sweep

/-- Hand a freed multiplier to the first original in the slice that carries it. -/
def reassignMultiplier (skipCandidateId : Option Int) (key : String) : Sweep :=
  if sweep.state.multiplierOwners.contains key then sweep
  else
    match sweep.contacts.findIdx? (sweep.state.isMultiplierReplacement key skipCandidateId) with
    | none => sweep
    | some index =>
        match sweep.contacts[index]?, sweep.contacts[index]?.bind contactId with
        | some contact, some id =>
            { state := { sweep.state with
                multiplierOwners := sweep.state.multiplierOwners.insert key id
                rawMultiplierCount := sweep.state.rawMultiplierCount + 1 }
              contacts := sweep.contacts.set index (incrementContactScoreField contact "mult" 1)
              changed := id :: sweep.changed }
        | _, _ => sweep

/-- Hand a freed bonus to the first original in the slice that carries it. -/
def reassignBonus (skipCandidateId : Option Int) (key : String) : Sweep :=
  if sweep.state.bonusOwners.contains key then sweep
  else
    match sweep.contacts.findIdx? (sweep.state.isBonusReplacement key skipCandidateId) with
    | none => sweep
    | some index =>
        match sweep.contacts[index]?, sweep.contacts[index]?.bind contactId with
        | some contact, some id =>
            let points := sweep.state.bonusWorth contact key
            { state := { sweep.state with
                bonusOwners := sweep.state.bonusOwners.insert key id
                directBonusPoints := sweep.state.directBonusPoints + points }
              contacts := sweep.contacts.set index
                (incrementContactScoreField contact "bonus" points)
              changed := id :: sweep.changed }
        | _, _ => sweep

def reassignKey (kind : KeyKind) (skipCandidateId : Option Int) (key : String) : Sweep :=
  match kind with
  | .multiplier => sweep.reassignMultiplier skipCandidateId key
  | .bonus => sweep.reassignBonus skipCandidateId key

def reassignMultipliers (skipCandidateId : Option Int) (keys : List String) : Sweep :=
  keys.foldl (fun sweep key => reassignMultiplier sweep skipCandidateId key) sweep

def reassignBonuses (skipCandidateId : Option Int) (keys : List String) : Sweep :=
  keys.foldl (fun sweep key => reassignBonus sweep skipCandidateId key) sweep

def promoteReplacement (index : Option Nat) : Sweep := index.elim sweep sweep.promoteContact

def recalculateScore : Sweep := { sweep with state := sweep.state.recalculateScore }

def removeContact (deleted : Contact) (skipCandidateId : Option Int) : Sweep :=
  let id := contactId deleted
  let (state, replacement) :=
    (sweep.state.withdraw deleted).leaveDupeGroup deleted sweep.contacts skipCandidateId
  let freedMultiplierKeys := IncrementalLogState.freedKeys state.multiplierOwners id
  let freedBonusKeys := IncrementalLogState.freedKeys state.bonusOwners id
  let sweep := { sweep with state := state.releaseKeys id }
  let sweep := sweep.promoteReplacement replacement
  let sweep := sweep.reassignMultipliers skipCandidateId freedMultiplierKeys
  let sweep := sweep.reassignBonuses skipCandidateId freedBonusKeys
  sweep.recalculateScore

/-- Score the contact of the slice that carries the id of a committed contact. -/
def addCommitted (committed : Contact) : Sweep :=
  match contactId committed with
  | none => sweep
  | some id =>
      match sweep.contacts.findIdx? (contactId · == some id) with
      | none => sweep
      | some index =>
          match sweep.contacts[index]? with
          | none => sweep
          | some contact =>
              let (state, scored) := sweep.state.addContact contact
              { sweep with state := state, contacts := sweep.contacts.set index scored }

/-- Remove the replaced versions, each skipping its own id in the slice. -/
def removePrevious (previous : List Contact) : Sweep :=
  previous.foldl (fun sweep deleted => removeContact sweep deleted (contactId deleted)) sweep

def addAllCommitted (committed : List Contact) : Sweep := committed.foldl addCommitted sweep

end Sweep

/-- The contacts of the slice whose id is among the first ids and not among the second. -/
def collectChangedContacts (contacts : List Contact) (changedIds excludedIds : List Int) :
    List Contact :=
  contacts.filter fun contact =>
    (contactId contact).any fun id => changedIds.contains id && !excludedIds.contains id

/-- What a handler leaves: the tracker entry of the log, the slice and the contacts it reports. -/
structure HandlerResult where
  state : Option IncrementalLogState
  contacts : List Contact
  changed : List Contact

namespace IncrementalScoreTracker

/-- `Arc::ptr_eq`. -/
def sameModule (module module' : Arc ContestScoringModule) : Bool :=
  module.address == module'.address

def onLogLoaded (module : Arc ContestScoringModule) (contacts : List Contact) :
    IncrementalLogState × List Contact :=
  IncrementalLogState.reset module contacts

def onContactsUpserted (entry : Option IncrementalLogState) (module : Arc ContestScoringModule)
    (contacts committed : List Contact) (previous : List (Option Contact)) : HandlerResult :=
  let state := entry.getD { module := module }
  let committedIds := committed.filterMap contactId
  let (state, contacts) :=
    if sameModule state.module module then (state, contacts)
    else IncrementalLogState.reset module contacts
  if state.module.value.hasCappedMultipliers then
    let (state, contacts) := IncrementalLogState.reset module contacts
    { state := some state
      contacts := contacts
      changed := collectChangedContacts contacts (contacts.filterMap contactId) committedIds }
  else
    let sweep : Sweep := { state := state, contacts := contacts, changed := [] }
    let sweep := (sweep.removePrevious previous.reduceOption).addAllCommitted committed
    { state := some sweep.state
      contacts := sweep.contacts
      changed := collectChangedContacts sweep.contacts sweep.changed committedIds }

def onContactDeleted (entry : Option IncrementalLogState) (module : Arc ContestScoringModule)
    (contacts : List Contact) (deleted : Contact) : HandlerResult :=
  match entry with
  | none => { state := none, contacts := contacts, changed := [] }
  | some state =>
      if !sameModule state.module module then
        let (state, contacts) := IncrementalLogState.reset module contacts
        { state := some state, contacts := contacts, changed := [] }
      else if state.module.value.hasCappedMultipliers then
        let (state, contacts) := IncrementalLogState.reset module contacts
        { state := some state, contacts := contacts, changed := contacts }
      else
        let sweep := Sweep.removeContact { state := state, contacts := contacts, changed := [] }
          deleted none
        { state := some sweep.state
          contacts := sweep.contacts
          changed := collectChangedContacts sweep.contacts sweep.changed [] }

end IncrementalScoreTracker

end Log73
