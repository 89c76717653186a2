import Mathlib.Data.List.MinMax
import Log73.Library.Runs
import Log73.Library.TreeMap
import Log73.Library.Utf8
import Log73.Text

/-!
The authentication service of `auth.rs`: calls of `authorize` and verifications in steps between
which they hold no lock, with the watch channels that the calls share. The keyed hash, base64,
the password verifier and the order in which a hash map is gone through are given.
-/

namespace Log73.Auth

open Std (ExtTreeMap TransOrd LawfulEqOrd)

/-- Thirty minutes, in nanoseconds. -/
def cacheTtl : Nat := 30 * 60 * 1000000000

def cacheCapacity : Nat := 256
def maxPending : Nat := 32
def maxAuthorizationBytes : Nat := 8192

structure AuthConfig where
  loginUser : String
  loginPassword : String

def isAuthEnabled (config : AuthConfig) : Bool :=
  !(trim config.loginUser).isEmpty && !config.loginPassword.isEmpty

/-- The verifications and cached answers of other credentials count no more. -/
def credentialsChanged (old new : AuthConfig) : Bool :=
  trim old.loginUser != trim new.loginUser || old.loginPassword != new.loginPassword

inductive AuthDecision where
  | allowed
  | unauthorized
  | busy
  | failed
  deriving DecidableEq

structure CacheEntry where
  verifiedAt : Nat
  lastAccess : Nat

structure AuthInner (κ : Type) [Ord κ] [TransOrd κ] where
  mac : List UInt8 → κ
  mac_injective : Function.Injective mac
  decodeBase64 : String → Option (List UInt8)
  verifier : String → String → Bool
  iter : ExtTreeMap κ CacheEntry → List (κ × CacheEntry)
  iter_perm : ∀ cache, (iter cache).Perm cache.toList

/-- A channel is told by its number; `pending` has the channel of a verification that is not
over. The generation counter is taken not to wrap. -/
structure AuthState (κ : Type) [Ord κ] where
  config : AuthConfig
  generation : Nat := 0
  cache : ExtTreeMap κ CacheEntry := ∅
  pending : ExtTreeMap κ Nat := ∅
  accessCounter : Nat := 0

/-- A call of `verify`, before or after it has its permit and saw its generation in force. -/
structure Verification (κ : Type) where
  key : κ
  generation : Nat
  candidate : String
  storedHash : String
  channel : Nat
  started : Bool

/-- A call of `authorize` that waits. -/
structure Waiting where
  username : String
  password : String
  generation : Nat
  channel : Nat

/-- The verifier accepted a password. -/
structure Acceptance where
  candidate : String
  storedHash : String
  generation : Nat
  time : Nat

/-- What `authorize` returned, and what was in force then. -/
structure Answer where
  credentials : Option (String × String)
  decision : AuthDecision
  cached : Bool
  config : AuthConfig
  generation : Nat
  time : Nat

structure AuthService (κ : Type) [Ord κ] where
  state : AuthState κ
  clock : Nat := 0
  channels : ExtTreeMap Nat (Option AuthDecision) := ∅
  verifications : ExtTreeMap Nat (Verification κ) := ∅
  calls : ExtTreeMap Nat Waiting := ∅
  accepted : List Acceptance := []
  answers : List Answer := []
  nextId : Nat := 0

inductive AuthAction where
  | authorize (authorization : Option (List UInt8))
  | start (task : Nat)
  | complete (task : Nat) (panics : Bool)
  | wake (call : Nat)
  | cancel (call : Nat)
  | replaceConfig (config : AuthConfig)
  | advance (elapsed : Nat)

/-- `HeaderValue::to_str`. -/
def headerStr (value : List UInt8) : Option String :=
  if value.all fun byte => (32 ≤ byte && byte < 127) || byte == 9 then
    some (String.ofList (value.map fun byte => Char.ofNat byte.toNat))
  else none

/-- `u64::to_be_bytes`. -/
def toBeBytes (n : Nat) : List UInt8 :=
  (List.range 8).map fun i => UInt8.ofNat (n / 256 ^ (7 - i))

section

variable {κ : Type} [Ord κ] [TransOrd κ] [LawfulEqOrd κ]

namespace AuthInner

variable (inner : AuthInner κ)

def key (username password : String) : κ :=
  inner.mac (toBeBytes (Utf8.encode username.toList).length ++ Utf8.encode username.toList
    ++ Utf8.encode password.toList)

def credentials (authorization : Option (List UInt8)) : Option String :=
  authorization.bind fun value =>
    if maxAuthorizationBytes < value.length then none
    else
      ((headerStr value).bind (stripPrefix "Basic ")).bind fun encoded =>
        (inner.decodeBase64 encoded).bind fun bytes => (Utf8.decode? bytes).map String.ofList

/-- The entry that was used least lately. -/
def oldest (cache : ExtTreeMap κ CacheEntry) : Option κ :=
  ((inner.iter cache).argmin fun entry => entry.2.lastAccess).map Prod.fst

/-- Room for one more entry. -/
def evict (cache : ExtTreeMap κ CacheEntry) : ExtTreeMap κ CacheEntry :=
  if cacheCapacity ≤ cache.size then (inner.oldest cache).elim cache cache.erase else cache

end AuthInner

namespace AuthService

variable (inner : AuthInner κ) (service : AuthService κ)

def answer (credentials : Option (String × String)) (decision : AuthDecision) (cached : Bool) :
    AuthService κ :=
  { service with
    answers :=
      { credentials := credentials, decision := decision, cached := cached,
        config := service.state.config, generation := service.state.generation,
        time := service.clock } :: service.answers }

/-- `send_replace`. -/
def send (channel : Nat) (decision : AuthDecision) : AuthService κ :=
  { service with channels := service.channels.insert channel (some decision) }

/-- The call subscribes to a channel. -/
def subscribe (username password : String) (channel : Nat) : AuthService κ :=
  { service with
    calls := service.calls.insert service.nextId
      { username := username, password := password, generation := service.state.generation,
        channel := channel }
    nextId := service.nextId + 1 }

/-- A channel without a value, and the task that is to give it one. -/
def spawn (key : κ) (password : String) : AuthService κ :=
  { service with
    state := { service.state with pending := service.state.pending.insert key service.nextId }
    channels := service.channels.insert service.nextId none
    verifications := service.verifications.insert (service.nextId + 1)
      { key := key, generation := service.state.generation, candidate := password,
        storedHash := service.state.config.loginPassword, channel := service.nextId,
        started := false }
    nextId := service.nextId + 2 }

/-- What is looked up once the user is known: the cache, then the pending verifications. -/
def lookUp (username password : String) : AuthService κ :=
  let key := inner.key username password
  let cache := service.state.cache.filter fun _ entry => service.clock - entry.verifiedAt < cacheTtl
  let lastAccess := (service.state.accessCounter + 1) % 2 ^ 64
  let service : AuthService κ :=
    { service with state := { service.state with cache := cache, accessCounter := lastAccess } }
  match cache[key]? with
  | some entry =>
      { service with
        state := { service.state with
          cache := cache.insert key { entry with lastAccess := lastAccess } } }.answer
            (some (username, password)) .allowed true
  | none =>
      match service.state.pending[key]? with
      | some channel => service.subscribe username password channel
      | none =>
          if maxPending ≤ service.state.pending.size then
            service.answer (some (username, password)) .busy false
          else (service.spawn key password).subscribe username password service.nextId

/-- The part of `authorize` under the first lock. -/
def authorize (authorization : Option (List UInt8)) : AuthService κ :=
  if !isAuthEnabled service.state.config then service.answer none .allowed false
  else
    match (inner.credentials authorization).bind (splitOnce ':') with
    | none => service.answer none .unauthorized false
    | some (username, password) =>
        if username ≠ trim service.state.config.loginUser then
          service.answer (some (username, password)) .unauthorized false
        else service.lookUp inner username password

/-- The permit is there, and the generation is looked at. -/
def start (task : Nat) : AuthService κ :=
  match service.verifications[task]? with
  | some verification =>
      if verification.started then service
      else if service.state.generation ≠ verification.generation then
        { service with verifications := service.verifications.erase task }.send
          verification.channel .unauthorized
      else
        { service with
          verifications := service.verifications.insert task { verification with started := true } }
  | none => service

/-- What the verification comes to under the lock, in the generation it began in. -/
def settle (verification : Verification κ) (decision : AuthDecision) : AuthService κ :=
  let state := { service.state with pending := service.state.pending.erase verification.key }
  let state :=
    if decision = .allowed then
      { state with
        cache := (inner.evict state.cache).insert verification.key
          { verifiedAt := service.clock, lastAccess := state.accessCounter } }
    else state
  { service with state := state }.send verification.channel decision

/-- The verifier has answered, or panicked. -/
def complete (task : Nat) (panics : Bool) : AuthService κ :=
  match service.verifications[task]? with
  | some verification =>
      if verification.started then
        let valid := inner.verifier verification.candidate verification.storedHash
        let decision : AuthDecision :=
          if panics then .failed else if valid then .allowed else .unauthorized
        let service : AuthService κ :=
          { service with
            verifications := service.verifications.erase task
            accepted :=
              if decision = .allowed then
                { candidate := verification.candidate, storedHash := verification.storedHash,
                  generation := verification.generation, time := service.clock }
                    :: service.accepted
              else service.accepted }
        if service.state.generation ≠ verification.generation then
          service.send verification.channel .unauthorized
        else service.settle inner verification decision
      else service
  | none => service

/-- A call whose channel has a value takes the lock again, and returns. -/
def wake (call : Nat) : AuthService κ :=
  match service.calls[call]? with
  | some waiting =>
      match service.channels[waiting.channel]? with
      | some (some decision) =>
          { service with calls := service.calls.erase call }.answer
            (some (waiting.username, waiting.password))
            (if service.state.generation ≠ waiting.generation then .unauthorized else decision)
              false
      | _ => service
  | none => service

/-- The request is dropped. -/
def cancel (call : Nat) : AuthService κ :=
  { service with calls := service.calls.erase call }

def isPending (channel : Nat) : Bool :=
  service.state.pending.toList.any fun entry => entry.2 == channel

/-- The waiting calls of a pending verification are answered at once. -/
def replaceConfig (config : AuthConfig) : AuthService κ :=
  if credentialsChanged service.state.config config then
    { service with
      state := { service.state with
        config := config, generation := service.state.generation + 1, cache := ∅, pending := ∅ }
      channels := service.channels.map fun channel decision =>
        if service.isPending channel then some .unauthorized else decision }
  else { service with state := { service.state with config := config } }

def advance (elapsed : Nat) : AuthService κ := { service with clock := service.clock + elapsed }

def step (action : AuthAction) : AuthService κ :=
  match action with
  | .authorize authorization => service.authorize inner authorization
  | .start task => service.start task
  | .complete task panics => service.complete inner task panics
  | .wake call => service.wake call
  | .cancel call => service.cancel call
  | .replaceConfig config => service.replaceConfig config
  | .advance elapsed => service.advance elapsed

def run (actions : List AuthAction) : AuthService κ :=
  Runs.run (fun service action => service.step inner action) service actions

/-- `AuthService::new`. -/
def new (config : AuthConfig) : AuthService κ := { state := { config := config } }

end AuthService

end

end Log73.Auth
