import Log73.ClientRadios.Registry
import Log73.ClientWindow.Update

/-!
How a radio client stays registered with the backend (`radio-client/src/backend_client.rs`), and
the requests it has under way. Times are nanoseconds, as in the registry. A request is handled
once at most, at any time after it is sent; what comes back counts while it is waited for only.
-/

namespace Log73.ClientRadios

open ClientWindow (BackendStatus)

def seconds (count : Nat) : Nat := count * 1000000000

def maxRetryDelay : Nat := seconds 30
def authRetryDelay : Nat := seconds 30
def requestTimeout : Nat := seconds 10

/-- `HEARTBEAT_INTERVAL` and `LEASE_TIMEOUT` of the backend, in seconds. -/
def heartbeatIntervalSeconds : Nat := 10
def leaseTimeoutSeconds : Nat := 30

inductive RequestFailure where
  | credentialsRejected
  | leaseReplaced
  | unavailable
  deriving DecidableEq

structure Registration where
  radioId : Int64
  leaseId : String
  heartbeatIntervalSeconds : Nat
  leaseTimeoutSeconds : Nat

structure Response where
  status : Nat
  registration : Option Registration := none

structure Lease where
  radioId : Int64
  leaseId : String
  heartbeatInterval : Nat

def classify (status : Nat) : Except RequestFailure Unit :=
  if 200 ≤ status ∧ status < 300 then .ok ()
  else if status = 401 ∨ status = 403 then .error .credentialsRejected
  else if status = 409 then .error .leaseReplaced
  else .error .unavailable

/-- What `register` makes of an answer, or of none; `isUuid` is whether `Uuid::parse_str` reads
the text. -/
def readRegistration (isUuid : String → Bool) (response : Option Response) :
    Except RequestFailure Lease := do
  let some response := response | throw .unavailable
  classify response.status
  let some registration := response.registration | throw .unavailable
  if registration.radioId ≤ 0 ∨ isUuid registration.leaseId = false ∨
      registration.heartbeatIntervalSeconds = 0 ∨ registration.leaseTimeoutSeconds = 0 ∨
      registration.leaseTimeoutSeconds < registration.heartbeatIntervalSeconds then
    throw .unavailable
  return {
    radioId := registration.radioId
    leaseId := registration.leaseId
    heartbeatInterval := seconds registration.heartbeatIntervalSeconds }

/-- `lease_request` -/
def readAnswer (response : Option Response) : Except RequestFailure Unit :=
  match response with
  | none => .error .unavailable
  | some response => classify response.status

/-- Where `run` is: in a request, in one of its waits, or past its end. -/
inductive AgentPhase where
  | registering
  | holding (due : Nat)
  | renewing
  | backingOff (due : Nat) (doubles : Bool)
  | leaving
  | finished
  deriving DecidableEq

structure Agent where
  phase : AgentPhase := .registering
  lease : Option Lease := none
  retryDelay : Nat := seconds 1
  cancelled : Bool := false
  events : List BackendStatus := [.registering]

def nextRetryDelay (delay : Nat) : Nat := min (2 * delay) maxRetryDelay

namespace Agent

variable (agent : Agent) (now : Nat)

def emit (status : BackendStatus) : Agent := { agent with events := agent.events ++ [status] }

/-- The end of `run`: a lease is given back. -/
def finish : Agent :=
  match agent.lease with
  | some _ => { agent with phase := .leaving }
  | none => { agent with phase := .finished }

/-- The head of the loop of `run`. -/
def loop : Agent :=
  if agent.cancelled then agent.finish
  else
    match agent.lease with
    | some lease => { agent with phase := .holding (now + lease.heartbeatInterval) }
    | none => { agent.emit .registering with phase := .registering }

/-- A wait before the next registration. -/
def backOff (delay : Nat) (doubles : Bool) : Agent :=
  if agent.cancelled then agent.finish
  else { agent with phase := .backingOff (now + delay) doubles }

def rejected : Agent := (agent.emit .credentialsRejected).backOff now authRetryDelay false

def unavailable : Agent :=
  (agent.emit (.unavailable (agent.retryDelay / seconds 1))).backOff now agent.retryDelay true

def registered (result : Except RequestFailure Lease) : Agent :=
  match result with
  | .ok lease =>
      loop
        { agent.emit (.registered lease.radioId) with
          lease := some lease, retryDelay := seconds 1 }
        now
  | .error .credentialsRejected => agent.rejected now
  | .error .leaseReplaced | .error .unavailable => agent.unavailable now

def renewed (result : Except RequestFailure Unit) : Agent :=
  match result with
  | .ok () => agent.loop now
  | .error .leaseReplaced =>
      loop { agent.emit .leaseReplaced with lease := none, retryDelay := seconds 1 } now
  | .error .credentialsRejected => rejected { agent with lease := none } now
  | .error .unavailable => unavailable { agent with lease := none } now

/-- What comes back for the request that is out. -/
def answered (isUuid : String → Bool) (response : Option Response) : Agent :=
  match agent.phase with
  | .registering => agent.registered now (readRegistration isUuid response)
  | .renewing => agent.renewed now (readAnswer response)
  | .leaving => { agent with phase := .finished }
  | .holding _ | .backingOff _ _ | .finished => agent

/-- A wait that is over. -/
def elapse : Agent :=
  match agent.phase with
  | .holding due => if due ≤ now then { agent with phase := .renewing } else agent
  | .backingOff due doubles =>
      if due ≤ now then
        loop
          { agent with
            retryDelay := if doubles then nextRetryDelay agent.retryDelay else agent.retryDelay }
          now
      else agent
  | .registering | .renewing | .leaving | .finished => agent

/-- A wait ends at once when the task is cancelled; a request does not. -/
def cancel : Agent :=
  match agent.phase with
  | .holding _ | .backingOff _ _ => finish { agent with cancelled := true }
  | .registering | .renewing | .leaving | .finished => { agent with cancelled := true }

/-- `RegistrationTask::stop` gives up on the task. -/
def abort : Agent := if agent.cancelled then { agent with phase := .finished } else agent

end Agent

inductive Request where
  | register
  | heartbeat (radioId : Int64) (leaseId : String)
  | offline (radioId : Int64) (leaseId : String)
  deriving DecidableEq

/-- The request that the agent sends when it comes to a phase. -/
def Agent.request (agent : Agent) : Option Request :=
  match agent.phase, agent.lease with
  | .registering, _ => some .register
  | .renewing, some lease => some (.heartbeat lease.radioId lease.leaseId)
  | .leaving, some lease => some (.offline lease.radioId lease.leaseId)
  | _, _ => none

/-- The agent of a client instance with the backend. Requests are numbered, and the agent waits
for the last; `own` are the leases that the backend gave for them. `superseded` is set once the
backend gives the lease of the client or its radio to another registration; `late` once a wait or
a request of the agent ran over its time. -/
structure Renewal where
  clientInstanceId : String
  agent : Agent := {}
  now : Nat := 0
  registry : ClientRadioRegistry := ∅
  given : List String := []
  own : List String := []
  sent : Nat := 0
  sentAt : Nat := 0
  requests : List (Nat × Request) := [(0, .register)]
  answers : List (Nat × Response) := []
  superseded : Bool := false
  late : Bool := false

inductive RenewalMove where
  | tick (now : Nat)
  | elapse
  | cancel
  | abort
  | serve (index : Nat) (radioId : Int64) (leaseId : String)
  | refuse (index : Nat) (status : Nat)
  | lose (index : Nat)
  | answer (index : Nat)
  | fail
  | other (call : LeaseCall)

namespace Renewal

variable (renewal : Renewal)

/-- The agent moves on; a request it comes to is sent. -/
def follow (agent : Agent) : Renewal :=
  match agent.request with
  | none => { renewal with agent := agent }
  | some request =>
      { renewal with
        agent := agent
        sent := renewal.sent + 1
        sentAt := renewal.now
        requests := renewal.requests ++ [(renewal.sent + 1, request)]
        late := if request = .register then false else renewal.late }

/-- When the agent has to move on at the latest. -/
def dueTime : Option Nat :=
  match renewal.agent.phase with
  | .holding due => some due
  | .registering | .renewing => some (renewal.sentAt + requestTimeout)
  | .backingOff _ _ | .leaving | .finished => none

def tick (now : Nat) : Renewal :=
  { renewal with
    now := max renewal.now now
    late := renewal.late || renewal.dueTime.any (· < max renewal.now now) }

/-- Whether a registration takes the lease of the client, or of a radio that the client has. -/
def takes (radioId : Int64) (clientInstanceId : String) : Bool :=
  clientInstanceId = renewal.clientInstanceId ||
    renewal.registry[radioId]?.any (·.clientInstanceId = renewal.clientInstanceId)

def reply (number : Nat) (response : Response) : Renewal :=
  { renewal with answers := renewal.answers ++ [(number, response)] }

/-- `register_client_radio` with the row of the client and the lease id that is drawn. -/
def serveRegister (number : Nat) (radioId : Int64) (leaseId : String) : Renewal :=
  reply
    { renewal with
      registry := renewal.registry.register renewal.now radioId renewal.clientInstanceId leaseId
      given := renewal.given ++ [leaseId]
      own := renewal.own ++ [leaseId]
      superseded := number ≠ renewal.sent }
    number
    { status := 200
      registration := some {
        radioId := radioId
        leaseId := leaseId
        heartbeatIntervalSeconds := heartbeatIntervalSeconds
        leaseTimeoutSeconds := leaseTimeoutSeconds } }

/-- `client_radio_heartbeat` and `client_radio_offline`. -/
def serveLease (number : Nat) (result : ClientRadioRegistry × Except LeaseError Unit) : Renewal :=
  reply { renewal with registry := result.1 } number
    { status :=
        match result.2 with
        | .ok () => 204
        | .error .stale => 409 }

/-- The backend handles a request of the client. The ids it draws are new. -/
def serve (index : Nat) (radioId : Int64) (leaseId : String) : Renewal :=
  match renewal.requests[index]? with
  | none => renewal
  | some (number, request) =>
      let left := { renewal with requests := renewal.requests.eraseIdx index }
      match request with
      | .register =>
          if leaseId ∈ renewal.given then renewal else left.serveRegister number radioId leaseId
      | .heartbeat radioId leaseId =>
          left.serveLease number
            (renewal.registry.heartbeat renewal.now radioId renewal.clientInstanceId leaseId)
      | .offline radioId leaseId =>
          left.serveLease number
            (renewal.registry.offline renewal.now radioId renewal.clientInstanceId leaseId)

/-- A request is answered without being handled. -/
def refuse (index status : Nat) : Renewal :=
  match renewal.requests[index]? with
  | none => renewal
  | some (number, _) =>
      if status = 409 ∨ (classify status).isOk then renewal
      else
        reply { renewal with requests := renewal.requests.eraseIdx index } number
          { status := status }

/-- An answer counts while its request is the last and has not run over its time. -/
def answer (isUuid : String → Bool) (index : Nat) : Renewal :=
  match renewal.answers[index]? with
  | none => renewal
  | some (number, response) =>
      let left := { renewal with answers := renewal.answers.eraseIdx index }
      if number = renewal.sent ∧ renewal.agent.request.isSome ∧
          renewal.now < renewal.sentAt + requestTimeout then
        left.follow (renewal.agent.answered renewal.now isUuid (some response))
      else left

/-- The request cannot be made, or is given up on. -/
def fail (isUuid : String → Bool) : Renewal :=
  if renewal.agent.request.isSome then
    renewal.follow (renewal.agent.answered renewal.now isUuid none)
  else renewal

/-- The calls of others: none of them gives back a lease of the client. -/
def other (call : LeaseCall) : Renewal :=
  match call with
  | .register radioId clientInstanceId leaseId =>
      if leaseId ∈ renewal.given then renewal
      else
        { renewal with
          registry := renewal.registry.register renewal.now radioId clientInstanceId leaseId
          given := renewal.given ++ [leaseId]
          superseded := renewal.superseded || renewal.takes radioId clientInstanceId }
  | .offline radioId clientInstanceId leaseId =>
      if leaseId ∈ renewal.own then renewal
      else
        { renewal with
          registry :=
            (renewal.registry.offline renewal.now radioId clientInstanceId leaseId).1 }
  | call => { renewal with registry := (renewal.registry.handle renewal.now call).1 }

def step (isUuid : String → Bool) (move : RenewalMove) : Renewal :=
  match move with
  | .tick now => renewal.tick now
  | .elapse =>
      if renewal.agent.request.isSome then renewal
      else renewal.follow (renewal.agent.elapse renewal.now)
  | .cancel =>
      if renewal.agent.request.isSome then { renewal with agent := renewal.agent.cancel }
      else renewal.follow renewal.agent.cancel
  | .abort => { renewal with agent := renewal.agent.abort }
  | .serve index radioId leaseId => renewal.serve index radioId leaseId
  | .refuse index status => renewal.refuse index status
  | .lose index => { renewal with requests := renewal.requests.eraseIdx index }
  | .answer index => renewal.answer isUuid index
  | .fail => renewal.fail isUuid
  | .other call => renewal.other call

end Renewal

end Log73.ClientRadios
