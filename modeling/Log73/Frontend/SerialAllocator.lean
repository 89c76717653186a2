import Log73.Frontend.Text
import Log73.Serial.SerialAllocation

/-!
The allocator of sent serials (`useSerialAllocator.js`, `serialAllocatorState.js`): the managers of
one page, one after another, and the serial each key has in storage. What a band comes to is not
reserved, and left out.
-/

namespace Log73.Frontend

open SortedAssoc

/-- The double nearest to a number; of two, the one with the even fraction. -/
def nearestDouble (n : Nat) : Nat :=
  if n ≤ 9007199254740992 then n
  else
    let unit := 2 ^ (n.log2 - 52)
    let quotient := n / unit
    if 2 * (n % unit) < unit ∨ 2 * (n % unit) = unit ∧ quotient % 2 = 0 then quotient * unit
    else (quotient + 1) * unit

def toDouble (value : Int) : Int := value.sign * nearestDouble value.natAbs

theorem toDouble_of_le {value : Int} (h : value.natAbs ≤ 9007199254740992) :
    toDouble value = value := by
  rw [toDouble, nearestDouble, if_pos h]
  exact Int.sign_mul_natAbs value

/-- `Number.parseInt(text, 10)`, where it is finite. -/
def parseInt (text : String) : Option Int :=
  let read (sign : Int) (cs : List Char) : Option Int :=
    let digits := cs.takeWhile isAsciiDigit
    let magnitude := nearestDouble (digitsValue digits)
    if digits.isEmpty ∨ 2 ^ 1024 ≤ magnitude then none else some (sign * magnitude)
  match text.toList.dropWhile isWhitespace with
  | '-' :: cs => read (-1) cs
  | '+' :: cs => read 1 cs
  | cs => read 1 cs

section Values

variable [Browser]

/-- `Number.parseInt(String(value), 10)`. An array reads as its first member. -/
def parseInteger : Value → Option Int
  | .number (.int value) => some (toDouble value)
  | .number (.float value) => parseInt (Browser.numberText (.float value))
  | .string text => parseInt text
  | .array (value :: _) => parseInteger value
  | _ => none

def positiveInteger (value : Option Value) : Option Int := (value.bind parseInteger).filter (0 < ·)

end Values

structure AllocatorState where
  fieldAdif : String
  scope : SerialScope
  reservationRequired : Bool
  next : Option Int

/-- `currentSerialForBand` outside the bands. -/
def currentSerial (state : AllocatorState) : Option Int :=
  if state.scope = .band then none else state.next.filter (0 < ·)

theorem currentSerial_eq_some {state : AllocatorState} {serial : Int} :
    currentSerial state = some serial ↔
      state.scope ≠ .band ∧ state.next = some serial ∧ 0 < serial := by
  rw [currentSerial]
  split
  · next hband => exact iff_of_false nofun fun h => h.1 hband
  · next hband => simp [hband, Option.filter_eq_some_iff]

section States

variable [Browser]

def serialStateFromBackend (state : SerialState) : AllocatorState where
  fieldAdif := state.fieldAdif
  scope := if state.scope = .band then .band else .global
  reservationRequired := state.reservationRequired
  next := positiveInteger (state.next.map .ofInt)

def mergeSerialStates (backendState : AllocatorState) (observedState : Option AllocatorState) :
    AllocatorState :=
  match observedState with
  | none => backendState
  | some observedState =>
      if backendState.fieldAdif ≠ observedState.fieldAdif ∨
          backendState.scope ≠ observedState.scope ∨ backendState.scope = .band then backendState
      else
        { backendState with
          next := some (max ((backendState.next.filter (0 < ·)).getD 1)
            ((observedState.next.filter (0 < ·)).getD 1)) }

/-- The state after a contact, if the contact changes it. -/
def serialStateAfterContact (state : AllocatorState) (adif : Map) : Option AllocatorState :=
  if state.fieldAdif.isEmpty ∨ state.scope = .band then none
  else
    (positiveInteger (get? adif state.fieldAdif)).bind fun serial =>
      if serial < (state.next.filter (0 < ·)).getD 1 then none
      else some { state with next := some (toDouble (serial + 1)) }

end States

/-- What a request asks for, and what a timer does again. -/
inductive AllocatorCall where
  | reservation
  | initialization
  deriving DecidableEq

/-- A log and a sent serial of it, the rest of a storage key being the instance. -/
abbrev AllocatorKey := Int64 × String

/-- It is initialized once it has a state. -/
structure Manager where
  key : AllocatorKey
  pendingContacts : List Map := []
  requestInFlight : Bool := false
  retry : Option AllocatorCall := none
  state : Option AllocatorState := none

def Manager.initialized (manager : Manager) : Bool := manager.state.isSome

/-- The next serial of a manager, where serials are reserved. -/
def Manager.held (manager : Manager) : Option (AllocatorKey × Int) :=
  (manager.state.filter (·.reservationRequired)).bind fun state =>
    (currentSerial state).map fun serial => (manager.key, serial)

theorem Manager.held_eq_some {manager : Manager} {key : AllocatorKey} {serial : Int} :
    manager.held = some (key, serial) ↔ ∃ state, manager.state = some state ∧
      state.reservationRequired ∧ currentSerial state = some serial ∧ manager.key = key := by
  rw [held]
  constructor
  · intro h
    obtain ⟨state, hstate, hheld⟩ := Option.bind_eq_some_iff.mp h
    obtain ⟨hstate, hrequired⟩ := Option.filter_eq_some_iff.mp hstate
    obtain ⟨found, hfound, hentry⟩ := Option.map_eq_some_iff.mp hheld
    obtain ⟨hkey, rfl⟩ := Prod.mk.inj hentry
    exact ⟨state, hstate, hrequired, hfound, hkey⟩
  · rintro ⟨state, hstate, hrequired, hserial, rfl⟩
    rw [hstate, Option.filter_some, if_pos hrequired, Option.bind_some, hserial]
    rfl

inductive AllocatorAnswer where
  | reserved (allocation : SerialAllocation)
  | state (state : SerialState)
  | failed

/-- A request that is under way, with the place of its manager. -/
structure AllocatorRequest where
  manager : Nat
  call : AllocatorCall
  key : AllocatorKey
  answer : Option AllocatorAnswer := none

/-- The allocator of one instance id. No part of the program reads which serials were consumed. -/
structure SerialClient where
  managers : List Manager := []
  active : Option Nat := none
  storage : List (AllocatorKey × Int) := []
  requests : List AllocatorRequest := []
  consumed : List (AllocatorKey × Int) := []

namespace SerialClient

variable (client : SerialClient)

def modifyManager (index : Nat) (change : Manager → Manager) : SerialClient :=
  { client with managers := client.managers.modify index change }

def persistUnused (key : AllocatorKey) (serial : Option Int) : SerialClient :=
  { client with
    storage := serial.elim (erase client.storage key) fun serial => put client.storage key serial }

/-- A request of the active manager, unless it has one under way. -/
def request (index : Nat) (call : AllocatorCall) : SerialClient :=
  match client.managers[index]? with
  | none => client
  | some manager =>
      if client.active ≠ some index ∨ manager.requestInFlight then client
      else
        { client.modifyManager index fun manager =>
            { manager with retry := none, requestInFlight := true } with
          requests := client.requests ++ [{ manager := index, call := call, key := manager.key }] }

def requestReservation (index : Nat) : SerialClient := client.request index .reservation

def loadState (index : Nat) : SerialClient := client.request index .initialization

def scheduleRetry (index : Nat) (call : AllocatorCall) : SerialClient :=
  if client.active ≠ some index then client
  else client.modifyManager index fun manager =>
    { manager with retry := manager.retry.or (some call) }

/-- The serial that the active manager gives up is consumed. -/
def consume (index : Nat) (key : AllocatorKey) (state : AllocatorState) : SerialClient :=
  if client.active = some index then
    { client with
      consumed := client.consumed ++
        ((currentSerial state).map fun serial => (key, serial)).toList }
  else client

section Contacts

variable [Browser]

def observeContact (index : Nat) (adif : Map) : SerialClient :=
  match client.managers[index]? with
  | none => client
  | some manager =>
      if !manager.initialized then
        client.modifyManager index fun manager =>
          { manager with pendingContacts := manager.pendingContacts ++ [adif] }
      else
        match manager.state with
        | none => client
        | some state =>
            match serialStateAfterContact state adif with
            | none => client
            | some nextState =>
                if state.reservationRequired then
                  (((client.consume index manager.key state).persistUnused manager.key
                    none).modifyManager
                    index fun manager => { manager with state := some { state with next := none } })
                    |>.requestReservation index
                else client.modifyManager index fun manager =>
                  { manager with state := some nextState }

/-- What a reservation brings: the manager takes the serial, whether or not it is the active one. -/
def reserved (index : Nat) (key : AllocatorKey) (serial : Int) : SerialClient :=
  ((client.modifyManager index fun manager =>
    { manager with state := manager.state.map fun state => { state with next := some serial } })
    |>.persistUnused key (some serial)).modifyManager index fun manager =>
      { manager with requestInFlight := false }

def reservationFailed (index : Nat) : SerialClient :=
  (client.scheduleRetry index .reservation).modifyManager index fun manager =>
    { manager with requestInFlight := false }

/-- A request for a serial follows when there is none. -/
def settleInitialization (index : Nat) : SerialClient :=
  let settled := client.modifyManager index fun manager => { manager with requestInFlight := false }
  match settled.managers[index]? with
  | none => settled
  | some manager =>
      if manager.initialized ∧
          manager.state.any fun state =>
            state.reservationRequired && (currentSerial state).isNone then
        settled.requestReservation index
      else settled

/-- `loadUnusedSerial`. A number that was stored is read as it was. -/
def loadUnusedSerial (key : AllocatorKey) : Option Int := (get? client.storage key).filter (0 < ·)

/-- The state of the backend with what the manager knows, and the serial of the storage. -/
def takeState (index : Nat) (manager : Manager) (backend : SerialState) : SerialClient :=
  let state := mergeSerialStates (serialStateFromBackend backend) manager.state
  if state.reservationRequired then
    client.modifyManager index fun manager =>
      { manager with state := some { state with next := client.loadUnusedSerial manager.key } }
  else
    (client.modifyManager index fun manager =>
      { manager with state := some state }).persistUnused manager.key none

/-- The contacts that came before the state are observed now. -/
def initialized (index : Nat) (backend : SerialState) : SerialClient :=
  match client.managers[index]? with
  | none => client
  | some manager =>
      let taken := (client.takeState index manager backend).modifyManager index fun manager =>
        { manager with pendingContacts := [] }
      (manager.pendingContacts.foldl (fun client adif => client.observeContact index adif)
        taken).settleInitialization index

def initializationFailed (index : Nat) : SerialClient :=
  (client.scheduleRetry index .initialization).settleInitialization index

def dropRequest (place : Nat) : SerialClient :=
  { client with requests := client.requests.eraseIdx place }

/-- No answer, or none that can be used. -/
def fail (place : Nat) : SerialClient :=
  match client.requests[place]? with
  | none => client
  | some request =>
      match request.call with
      | .reservation => (client.dropRequest place).reservationFailed request.manager
      | .initialization => (client.dropRequest place).initializationFailed request.manager

def respond (place : Nat) : SerialClient :=
  match client.requests[place]? with
  | none => client
  | some request =>
      match request.call, request.answer with
      | .reservation, some (.reserved allocation) =>
          match positiveInteger (some (.ofInt allocation.serial)) with
          | some serial => (client.dropRequest place).reserved request.manager request.key serial
          | none => client.fail place
      | .initialization, some (.state state) =>
          (client.dropRequest place).initialized request.manager state
      | _, some _ => client.fail place
      | _, none => client

/-- The effect runs for a log and a sent serial: the manager before it is done. -/
def openAllocator (key : AllocatorKey) : SerialClient :=
  let opened : SerialClient := { client with
    managers := client.managers ++ [{ key := key }]
    active := some client.managers.length }
  opened.loadState client.managers.length

/-- The server comes to an answer. -/
def answer (place : Nat) (request : AllocatorRequest) (answer : AllocatorAnswer) : SerialClient :=
  { client with requests := client.requests.set place { request with answer := some answer } }

def closeAllocator : SerialClient := { client with active := none }

/-- What the page knew is gone, and answers to it; the storage stays. -/
def reload : SerialClient := { client with managers := [], active := none, requests := [] }

/-- What the active manager does, if there is one. -/
def onActive (act : SerialClient → Nat → SerialClient) : SerialClient :=
  client.active.elim client (act client)

/-- A timer of the active manager. Those of the others were cleared. -/
def runRetry : SerialClient :=
  client.onActive fun client index =>
    match client.managers[index]?.bind Manager.retry with
    | none => client
    | some call =>
        (client.modifyManager index fun manager =>
          { manager with retry := none }).request index call

/-- The serial that the allocator holds as its next one, where it is reserved. -/
def next : Option (AllocatorKey × Int) :=
  (client.active.bind (client.managers[·]?)).bind Manager.held

/-- The serial of a contact that is logged with the one that is held. The entry takes it over where
the state names a field. -/
def loggedWith (adif : Map) : Option (AllocatorKey × Int) :=
  (client.active.bind (client.managers[·]?)).bind fun manager =>
    manager.held.filter fun held => manager.state.any fun state =>
      !state.fieldAdif.isEmpty && positiveInteger (get? adif state.fieldAdif) = some held.2

end Contacts

end SerialClient

inductive ClientAction where
  | openAllocator (key : AllocatorKey)
  | closeAllocator
  | reload
  | refresh
  | retry
  | observe (adif : Map)
  | respond (place : Nat)
  | fail (place : Nat)

def SerialClient.act [Browser] (client : SerialClient) : ClientAction → SerialClient
  | .openAllocator key => client.openAllocator key
  | .closeAllocator => client.closeAllocator
  | .reload => client.reload
  | .refresh => client.onActive loadState
  | .retry => client.runRetry
  | .observe adif => client.onActive fun client index => client.observeContact index adif
  | .respond place => client.respond place
  | .fail place => client.fail place

end Log73.Frontend
