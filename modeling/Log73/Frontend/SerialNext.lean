import Log73.Frontend.SerialAllocator
import Log73.Library.Extremes
import Log73.Library.OrderedMap
import Log73.Library.Runs
import Log73.Library.TreeMap

/-!
The next serials a page knows (`serialAllocatorState.js`), overall and by band, and the manager of
`useSerialAllocator.js` as far as it takes states of the backend and contacts in; what it does
where serials are reserved is in `SerialAllocator`.
-/

namespace Log73.Frontend.SerialNext

/-- Behaviour of the browser that the bands rest on: `toLowerCase`, and the text of a value that
is neither text nor missing. -/
class SerialBrowser where
  toLowerCase : String → String
  valueText : Value → String

/-- The object under `nextByBand` has its keys in the order they were set in. -/
structure State where
  fieldAdif : String
  scope : SerialScope
  reservationRequired : Bool
  next : Option Int
  nextByBand : List (String × Int)

section States

variable [Browser] [SerialBrowser]

omit [SerialBrowser] in
/-- `positiveInteger` of a number: from 10^21 on its text has an exponent. -/
def positiveNumber (value : Int) : Option Int :=
  (if value.natAbs < 10 ^ 21 then some value
    else parseInt (Browser.numberText (.float value))).filter (0 < ·)

omit [SerialBrowser] in
def serialStateFromBackend (payload : Log73.SerialState) : State where
  fieldAdif := payload.fieldAdif
  scope := if payload.scope = .band then .band else .global
  reservationRequired := payload.reservationRequired
  next := payload.next.bind fun value => positiveNumber (toDouble value)
  nextByBand := payload.nextByBand.toList.filterMap fun entry =>
    (positiveNumber (toDouble entry.2)).map fun value => (entry.1, value)

omit [Browser] in
/-- The key of a band, as the object spells it. -/
def bandKey (nextByBand : List (String × Int)) (band : String) : Option String :=
  (nextByBand.map Prod.fst).find? fun key =>
    SerialBrowser.toLowerCase key = SerialBrowser.toLowerCase band

omit [SerialBrowser] in
/-- `positiveInteger` of a property. One that is not there reads as no number. -/
def propertyNumber (nextByBand : List (String × Int)) (key : String) : Option Int :=
  (OrderedMap.get? nextByBand key).bind positiveNumber

/-- For a band without a key, the property that is read is called `undefined`. -/
def currentSerialForBand (state : Option State) (band : Option String) : Option Int :=
  state.bind fun state =>
    if state.scope ≠ .band then state.next.bind positiveNumber
    else propertyNumber state.nextByBand
      ((bandKey state.nextByBand (band.getD "")).getD "undefined")

omit [Browser] [SerialBrowser] in
/-- `nextByBand[key] = value`: the prototype takes no number. -/
def assign (nextByBand : List (String × Int)) (key : String) (value : Int) : List (String × Int) :=
  if key = "__proto__" ∧ (OrderedMap.get? nextByBand key).isNone then nextByBand
  else OrderedMap.set nextByBand key value

def mergeBand (nextByBand : List (String × Int)) (observed : String × Int) : List (String × Int) :=
  let backendBand := (bandKey nextByBand observed.1).getD observed.1
  assign nextByBand backendBand
    (max ((propertyNumber nextByBand backendBand).getD 1) ((positiveNumber observed.2).getD 1))

def mergeSerialStates (backendState : State) (observedState : Option State) : State :=
  match observedState with
  | none => backendState
  | some observedState =>
      if backendState.fieldAdif ≠ observedState.fieldAdif ∨
          backendState.scope ≠ observedState.scope then backendState
      else if backendState.scope ≠ .band then
        { backendState with
          next := some (max ((backendState.next.bind positiveNumber).getD 1)
            ((observedState.next.bind positiveNumber).getD 1)) }
      else
        { backendState with
          nextByBand := observedState.nextByBand.foldl mergeBand backendState.nextByBand }

omit [Browser] in
/-- `String(adif.BAND ?? '').trim()`. -/
def observedBand (adif : Map) : String :=
  trim <| match SortedAssoc.get? adif "BAND" with
    | none => ""
    | some .null => ""
    | some (.string s) => s
    | some value => SerialBrowser.valueText value

/-- The state after a contact, if the contact changes it. -/
def serialStateAfterContact (state : State) (adif : Map) : Option State :=
  if state.fieldAdif.isEmpty then none
  else
    (positiveInteger (SortedAssoc.get? adif state.fieldAdif)).bind fun serial =>
      if state.scope = .band then
        if (observedBand adif).isEmpty then none
        else
          let band := (bandKey state.nextByBand (observedBand adif)).getD (observedBand adif)
          if serial < (propertyNumber state.nextByBand band).getD 1 then none
          else some { state with
            nextByBand := OrderedMap.set state.nextByBand band (toDouble (serial + 1)) }
      else if serial < (state.next.bind positiveNumber).getD 1 then none
      else some { state with next := some (toDouble (serial + 1)) }

end States

/-- It is initialized once it has a state. -/
structure Manager where
  pendingContacts : List Map := []
  state : Option State := none

section Manager

variable [Browser] [SerialBrowser]

def observeContact (manager : Manager) (adif : Map) : Manager :=
  match manager.state with
  | none => { manager with pendingContacts := manager.pendingContacts ++ [adif] }
  | some state =>
      match serialStateAfterContact state adif with
      | none => manager
      | some nextState =>
          if state.reservationRequired then
            { manager with state := some { state with next := none } }
          else { manager with state := some nextState }

/-- A state of the backend comes, when the storage has this serial unused: the contacts that were
held back are observed now. -/
def refresh (manager : Manager) (payload : Log73.SerialState) (unusedSerial : Option Int) :
    Manager :=
  let state := mergeSerialStates (serialStateFromBackend payload) manager.state
  let state := if state.reservationRequired then { state with next := unusedSerial } else state
  manager.pendingContacts.foldl observeContact { pendingContacts := [], state := some state }

/-- What a manager takes in. -/
inductive Event where
  | refreshed (payload : Log73.SerialState) (unusedSerial : Option Int)
  | observed (adif : Map)

def step (manager : Manager) : Event → Manager
  | .refreshed payload unusedSerial => refresh manager payload unusedSerial
  | .observed adif => observeContact manager adif

end Manager

end Log73.Frontend.SerialNext
