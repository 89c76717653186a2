import Log73.ClientRadios.Agent
import Log73.ClientRadios.Leases
import Log73.Library.Runs
import Mathlib.Data.List.Perm.Basic

/-!
A client that is answered in time stays registered: its radio is online for everyone as long as no
other registration takes its lease, and it is told that the lease was replaced in that case only.
-/

namespace Log73.ClientRadios

open Std (ExtTreeMap)

namespace Renewal

variable {isUuid : String → Bool} {renewal next : Renewal} {radioId : Int64} {leaseId : String}
  {bound : Nat}

/-- Nothing has come between the client and its lease. -/
def Calm (renewal : Renewal) : Prop := renewal.superseded = false ∧ renewal.late = false

/-- The client has the lease, for some time at least. -/
def Kept (renewal : Renewal) (radioId : Int64) (leaseId : String) (bound : Nat) : Prop :=
  leaseId ∈ renewal.own ∧ ∃ deadline, bound ≤ deadline ∧
    renewal.registry[radioId]? =
      some
        { clientInstanceId := renewal.clientInstanceId, leaseId := leaseId, deadline := deadline }

theorem Kept.mono {later : Nat} (h : renewal.Kept radioId leaseId later) (hle : bound ≤ later) :
    renewal.Kept radioId leaseId bound := by
  obtain ⟨hown, deadline, hdeadline, hlease⟩ := h
  exact ⟨hown, deadline, Nat.le_trans hle hdeadline, hlease⟩

def numbers (renewal : Renewal) : List Nat :=
  renewal.requests.map Prod.fst ++ renewal.answers.map Prod.fst

/-- What the client knows where it is. The lease outlasts the wait and the request after it. -/
def Stands (renewal : Renewal) : Prop :=
  match renewal.agent.phase with
  | .registering =>
      renewal.agent.lease = none ∧
        (renewal.late = false → renewal.now ≤ renewal.sentAt + requestTimeout)
  | .holding due =>
      ∃ lease, renewal.agent.lease = some lease ∧
        lease.heartbeatInterval = seconds heartbeatIntervalSeconds ∧
        due ≤ renewal.now + seconds heartbeatIntervalSeconds ∧
        (renewal.Calm → renewal.now ≤ due ∧
          renewal.Kept lease.radioId lease.leaseId (due + requestTimeout + 1))
  | .renewing =>
      ∃ lease, renewal.agent.lease = some lease ∧
        lease.heartbeatInterval = seconds heartbeatIntervalSeconds ∧
        (renewal.Calm → renewal.now ≤ renewal.sentAt + requestTimeout ∧
          renewal.Kept lease.radioId lease.leaseId (renewal.sentAt + requestTimeout + 1))
  | .backingOff due _ => renewal.agent.lease = none ∧ due ≤ renewal.now + maxRetryDelay
  | .leaving | .finished => True

/-- What an answer to the last request says. -/
def Fits (isUuid : String → Bool) (renewal : Renewal) (response : Response) : Prop :=
  match renewal.agent.phase with
  | .registering =>
      ∀ lease, readRegistration isUuid (some response) = .ok lease →
        lease.heartbeatInterval = seconds heartbeatIntervalSeconds ∧
        (renewal.Calm →
          renewal.Kept lease.radioId lease.leaseId (renewal.sentAt + leaseTimeout))
  | .renewing =>
      ∀ lease, renewal.agent.lease = some lease → renewal.Calm →
        classify response.status ≠ .error .leaseReplaced ∧
        (classify response.status = .ok () →
          renewal.Kept lease.radioId lease.leaseId (renewal.sentAt + leaseTimeout))
  | .holding _ | .backingOff _ _ | .leaving | .finished => True

/-- What holds of the client and the backend in every state they come to. -/
structure Sound (isUuid : String → Bool) (renewal : Renewal) : Prop where
  sentAt_le : renewal.sentAt ≤ renewal.now
  numbered : ∀ number ∈ renewal.numbers, number ≤ renewal.sent
  once : renewal.numbers.Nodup
  asked : ∀ other, (renewal.sent, other) ∈ renewal.requests →
    (∀ due, renewal.agent.phase ≠ .holding due) ∧
      ∀ request, renewal.agent.request = some request → other = request
  offline : ∀ number radioId leaseId, (number, .offline radioId leaseId) ∈ renewal.requests →
    renewal.agent.phase = .leaving ∨ renewal.agent.phase = .finished
  retryDelay_le : renewal.agent.retryDelay ≤ maxRetryDelay
  stands : renewal.Stands
  fits : ∀ response, (renewal.sent, response) ∈ renewal.answers → renewal.Fits isUuid response

/-! ### The registry under a lease that is kept -/

/-- The lease of the client is in a registry, until the bound at least. -/
def Lasts (renewal : Renewal) (radioId : Int64) (leaseId : String) (bound : Nat)
    (registry : ClientRadioRegistry) : Prop :=
  ∃ deadline, bound ≤ deadline ∧ registry[radioId]? =
    some { clientInstanceId := renewal.clientInstanceId, leaseId := leaseId, deadline := deadline }

section Handle

variable {other : Int64} {client drawn named : String} {entry : ClientRadioLease}

theorem Kept.lasts (h : renewal.Kept radioId leaseId bound) {registry : ClientRadioRegistry}
    (hsame : registry[radioId]? = renewal.registry[radioId]?) :
    renewal.Lasts radioId leaseId bound registry := by
  obtain ⟨-, deadline, hdeadline, hlease⟩ := h
  exact ⟨deadline, hdeadline, hsame.trans hlease⟩

theorem Kept.lasts_erase (h : renewal.Kept radioId leaseId bound) (hne : other ≠ radioId) :
    renewal.Lasts radioId leaseId bound (renewal.registry.erase other) := by
  refine h.lasts ?_
  rw [TreeMap.getElem?_erase_key, if_neg hne]

/-- An entry that is over is another radio's. -/
theorem Kept.ne_of_over (h : renewal.Kept radioId leaseId bound) (hnow : renewal.now < bound)
    (hentry : renewal.registry[other]? = some entry) (hover : entry.deadline ≤ renewal.now) :
    other ≠ radioId := by
  rintro rfl
  obtain ⟨-, deadline, hdeadline, hlease⟩ := h
  cases hentry.symm.trans hlease
  exact absurd (Nat.lt_of_lt_of_le hnow hdeadline) (Nat.not_lt.mpr hover)

theorem Kept.lasts_register (h : renewal.Kept radioId leaseId bound)
    (hnot : renewal.takes other client = false) :
    renewal.Lasts radioId leaseId bound
      (renewal.registry.handle renewal.now (.register other client drawn)).1 := by
  obtain ⟨-, deadline, -, hlease⟩ := id h
  rw [takes, Bool.or_eq_false_iff, decide_eq_false_iff_not] at hnot
  have hother : other ≠ radioId := by
    rintro rfl
    rw [hlease, Option.any_some, decide_eq_false_iff_not] at hnot
    exact hnot.2 rfl
  refine h.lasts ?_
  rw [ClientRadioRegistry.handle, ClientRadioRegistry.register, TreeMap.getElem?_insert_key,
    if_neg hother, ExtTreeMap.getElem?_filter', hlease, Option.filter_some,
    if_pos (decide_eq_true (Ne.symm hnot.1))]

/-- A heartbeat prolongs a lease to the full. -/
theorem Kept.lasts_heartbeat (h : renewal.Kept radioId leaseId bound) (hnow : renewal.now < bound)
    (hbound : bound ≤ renewal.now + leaseTimeout) :
    renewal.Lasts radioId leaseId bound
      (renewal.registry.handle renewal.now (.heartbeat other client named)).1 := by
  rw [ClientRadioRegistry.handle, ClientRadioRegistry.heartbeat, ClientRadioRegistry.onLease]
  cases hentry : renewal.registry[other]? with
  | none => exact h.lasts rfl
  | some entry =>
      dsimp only
      split
      · rename_i hover
        exact h.lasts_erase (h.ne_of_over hnow hentry hover)
      · split
        · exact h.lasts rfl
        · by_cases hradio : other = radioId
          · refine ⟨renewal.now + leaseTimeout, hbound, ?_⟩
            obtain ⟨-, deadline, -, hlease⟩ := h
            rw [hradio] at hentry ⊢
            cases hentry.symm.trans hlease
            rw [TreeMap.getElem?_insert_key, if_pos rfl]
          · refine h.lasts ?_
            rw [TreeMap.getElem?_insert_key, if_neg hradio]

/-- A lease is only given back by name. -/
theorem Kept.lasts_offline (h : renewal.Kept radioId leaseId bound) (hnow : renewal.now < bound)
    (hnot : named ∉ renewal.own ∨ client ≠ renewal.clientInstanceId) :
    renewal.Lasts radioId leaseId bound
      (renewal.registry.handle renewal.now (.offline other client named)).1 := by
  rw [ClientRadioRegistry.handle, ClientRadioRegistry.offline, ClientRadioRegistry.onLease]
  cases hentry : renewal.registry[other]? with
  | none => exact h.lasts rfl
  | some entry =>
      dsimp only
      split
      · rename_i hover
        exact h.lasts_erase (h.ne_of_over hnow hentry hover)
      · split
        · exact h.lasts rfl
        · rename_i hnames
          refine h.lasts_erase ?_
          rintro rfl
          obtain ⟨hown, deadline, -, hlease⟩ := h
          cases hentry.symm.trans hlease
          refine hnames ?_
          rcases hnot with hown' | hclient
          · exact .inr fun heq => hown' (heq ▸ hown)
          · exact .inl (Ne.symm hclient)

theorem Kept.lasts_isOnline (h : renewal.Kept radioId leaseId bound) (hnow : renewal.now < bound) :
    renewal.Lasts radioId leaseId bound
      (renewal.registry.handle renewal.now (.isOnline other)).1 := by
  rw [ClientRadioRegistry.handle, ClientRadioRegistry.isOnline]
  cases hentry : renewal.registry[other]? with
  | none => exact h.lasts rfl
  | some entry =>
      dsimp only
      split
      · exact h.lasts rfl
      · rename_i hover
        exact h.lasts_erase (h.ne_of_over hnow hentry (Nat.le_of_not_lt hover))

theorem Kept.lasts_expire (h : renewal.Kept radioId leaseId bound) (hnow : renewal.now < bound) :
    renewal.Lasts radioId leaseId bound (renewal.registry.handle renewal.now .expire).1 := by
  obtain ⟨-, deadline, hdeadline, hlease⟩ := id h
  refine h.lasts ?_
  rw [ClientRadioRegistry.handle, ClientRadioRegistry.getElem?_expire, hlease,
    Option.filter_some, if_pos (decide_eq_true (Nat.lt_of_lt_of_le hnow hdeadline))]

/-- A call that does not take the lease or give it back leaves it, and if it prolongs it then to
the full. -/
theorem Kept.handle (h : renewal.Kept radioId leaseId bound) (call : LeaseCall)
    (hnow : renewal.now < bound) (hbound : bound ≤ renewal.now + leaseTimeout)
    (htakes : ∀ other client drawn, call = .register other client drawn →
      renewal.takes other client = false)
    (hoffline : ∀ other client named, call = .offline other client named →
      named ∉ renewal.own ∨ client ≠ renewal.clientInstanceId) :
    renewal.Lasts radioId leaseId bound (renewal.registry.handle renewal.now call).1 := by
  cases call with
  | register other client drawn => exact h.lasts_register (htakes other client drawn rfl)
  | heartbeat other client named => exact h.lasts_heartbeat hnow hbound
  | offline other client named => exact h.lasts_offline hnow (hoffline other client named rfl)
  | isOnline other => exact h.lasts_isOnline hnow
  | expire => exact h.lasts_expire hnow

end Handle

/-! ### The backend's part -/

theorem requestTimeout_eq : requestTimeout = 10000000000 := rfl
theorem leaseTimeout_eq : leaseTimeout = 30000000000 := rfl
theorem heartbeatInterval_eq : seconds heartbeatIntervalSeconds = 10000000000 := rfl

/-- The agent stays where it is, and what it knows stays true. -/
theorem Stands.steady (h : renewal.Stands) (hagent : next.agent = renewal.agent)
    (hnow : next.now = renewal.now) (hsentAt : next.sentAt = renewal.sentAt)
    (hlate : next.late = renewal.late)
    (hkept : next.Calm → renewal.Calm ∧ ∀ radioId leaseId bound, renewal.now < bound →
      bound ≤ renewal.now + leaseTimeout → renewal.Kept radioId leaseId bound →
        next.Kept radioId leaseId bound)
    (hsentAt_le : renewal.sentAt ≤ renewal.now) : next.Stands := by
  have hrequest := requestTimeout_eq
  have hlease := leaseTimeout_eq
  have hinterval := heartbeatInterval_eq
  unfold Stands at *
  rw [hagent]
  cases hphase : renewal.agent.phase with
  | registering =>
      rw [hphase] at h
      rw [hlate, hnow, hsentAt]
      exact h
  | holding due =>
      rw [hphase] at h
      obtain ⟨lease, hheld, hevery, hdue, hcalm⟩ := h
      refine ⟨lease, hheld, hevery, hnow.symm ▸ hdue, fun hnext => ?_⟩
      obtain ⟨hwas, hkeeps⟩ := hkept hnext
      obtain ⟨htime, hlasts⟩ := hcalm hwas
      exact ⟨hnow.symm ▸ htime, hkeeps _ _ _ (by omega) (by omega) hlasts⟩
  | renewing =>
      rw [hphase] at h
      obtain ⟨lease, hheld, hevery, hcalm⟩ := h
      refine ⟨lease, hheld, hevery, fun hnext => ?_⟩
      obtain ⟨hwas, hkeeps⟩ := hkept hnext
      obtain ⟨htime, hlasts⟩ := hcalm hwas
      rw [hnow, hsentAt]
      exact ⟨htime, hkeeps _ _ _ (by omega) (by omega) hlasts⟩
  | backingOff due doubles =>
      rw [hphase] at h
      rw [hnow]
      exact h
  | leaving => trivial
  | finished => trivial

theorem Fits.steady {response : Response} (h : renewal.Fits isUuid response)
    (hstands : renewal.Stands) (hagent : next.agent = renewal.agent)
    (hsentAt : next.sentAt = renewal.sentAt)
    (hkept : next.Calm → renewal.Calm ∧ ∀ radioId leaseId bound, renewal.now < bound →
      bound ≤ renewal.now + leaseTimeout → renewal.Kept radioId leaseId bound →
        next.Kept radioId leaseId bound)
    (hsentAt_le : renewal.sentAt ≤ renewal.now) : next.Fits isUuid response := by
  have hrequest := requestTimeout_eq
  have hlease := leaseTimeout_eq
  unfold Fits at *
  unfold Stands at hstands
  rw [hagent]
  cases hphase : renewal.agent.phase with
  | registering =>
      rw [hphase] at h hstands
      intro lease hread
      obtain ⟨hevery, hcalm⟩ := h lease hread
      refine ⟨hevery, fun hnext => ?_⟩
      obtain ⟨hwas, hkeeps⟩ := hkept hnext
      have htime := hstands.2 hwas.2
      rw [hsentAt]
      exact hkeeps _ _ _ (by omega) (by omega) (hcalm hwas)
  | renewing =>
      rw [hphase] at h hstands
      intro lease hheld hnext
      obtain ⟨hwas, hkeeps⟩ := hkept hnext
      obtain ⟨_, _, _, hcalm⟩ := hstands
      have htime := (hcalm hwas).1
      obtain ⟨hstatus, hgranted⟩ := h lease hheld hwas
      rw [hsentAt]
      exact ⟨hstatus, fun hok => hkeeps _ _ _ (by omega) (by omega) (hgranted hok)⟩
  | holding due => trivial
  | backingOff due doubles => trivial
  | leaving => trivial
  | finished => trivial

theorem Stands.of_left (h : next.agent.phase = .leaving ∨ next.agent.phase = .finished) :
    next.Stands := by
  unfold Stands
  rcases h with hphase | hphase <;> rw [hphase] <;> trivial

theorem Fits.of_left {response : Response}
    (h : next.agent.phase = .leaving ∨ next.agent.phase = .finished) :
    next.Fits isUuid response := by
  unfold Fits
  rcases h with hphase | hphase <;> rw [hphase] <;> trivial

/-- The backend or the network does something: the agent stays where it is. -/
theorem Sound.still (h : renewal.Sound isUuid) (hagent : next.agent = renewal.agent)
    (hnow : next.now = renewal.now) (hsent : next.sent = renewal.sent)
    (hsentAt : next.sentAt = renewal.sentAt)
    (hnumbers : ∀ number ∈ next.numbers, number ∈ renewal.numbers) (honce : next.numbers.Nodup)
    (hrequests : ∀ request ∈ next.requests, request ∈ renewal.requests) (hstands : next.Stands)
    (hfits : ∀ response, (renewal.sent, response) ∈ next.answers → next.Fits isUuid response) :
    next.Sound isUuid where
  sentAt_le := by rw [hsentAt, hnow]; exact h.sentAt_le
  numbered number hmem := hsent ▸ h.numbered number (hnumbers number hmem)
  once := honce
  asked other hmem := by
    rw [hsent] at hmem
    rw [hagent]
    exact h.asked other (hrequests _ hmem)
  offline number radioId leaseId hmem := by
    rw [hagent]
    exact h.offline number radioId leaseId (hrequests _ hmem)
  retryDelay_le := hagent.symm ▸ h.retryDelay_le
  stands := hstands
  fits response hmem := hfits response (hsent ▸ hmem)

/-- What the client knows stays true over what the backend does. -/
def Keeps (renewal next : Renewal) : Prop :=
  next.Calm → renewal.Calm ∧ ∀ radioId leaseId bound, renewal.now < bound →
    bound ≤ renewal.now + leaseTimeout → renewal.Kept radioId leaseId bound →
      next.Kept radioId leaseId bound

theorem numbers_reply {index number : Nat} {request : Request}
    (hrequest : renewal.requests[index]? = some (number, request)) (response : Response)
    (hrequests : next.requests = renewal.requests.eraseIdx index)
    (hanswers : next.answers = renewal.answers ++ [(number, response)]) :
    next.numbers.Perm renewal.numbers := by
  obtain ⟨hlt, hget⟩ := List.getElem?_eq_some_iff.mp hrequest
  have herased := (List.getElem_cons_eraseIdx_perm hlt).map Prod.fst
  rw [hget, List.map_cons] at herased
  unfold numbers
  rw [hrequests, hanswers, List.map_append, ← List.append_assoc]
  refine List.perm_append_comm.trans ?_
  exact (herased.append_right (renewal.answers.map Prod.fst))

/-- An answer is on its way. -/
theorem Sound.reply (h : renewal.Sound isUuid) {index number : Nat} {request : Request}
    (hrequest : renewal.requests[index]? = some (number, request)) (response : Response)
    (hagent : next.agent = renewal.agent) (hnow : next.now = renewal.now)
    (hsent : next.sent = renewal.sent) (hsentAt : next.sentAt = renewal.sentAt)
    (hlate : next.late = renewal.late)
    (hrequests : next.requests = renewal.requests.eraseIdx index)
    (hanswers : next.answers = renewal.answers ++ [(number, response)])
    (hkeeps : renewal.Keeps next) (hfits : number = renewal.sent → next.Fits isUuid response) :
    next.Sound isUuid := by
  have hperm := numbers_reply hrequest response hrequests hanswers
  refine h.still hagent hnow hsent hsentAt (fun number => hperm.mem_iff.mp)
    (hperm.nodup_iff.mpr h.once) ?_
    (h.stands.steady hagent hnow hsentAt hlate hkeeps h.sentAt_le) ?_
  · intro other hmem
    rw [hrequests] at hmem
    exact List.mem_of_mem_eraseIdx hmem
  · intro other hmem
    rw [hanswers, List.mem_append, List.mem_singleton] at hmem
    rcases hmem with hold | hnew
    · exact (h.fits other hold).steady h.stands hagent hsentAt hkeeps h.sentAt_le
    · obtain ⟨hnumber, rfl⟩ := Prod.mk.inj hnew
      exact hfits hnumber.symm

theorem classify_conflict {status : Nat} (h : classify status = .error .leaseReplaced) :
    status = 409 := by
  unfold classify at h
  split at h
  · cases h
  · split at h
    · cases h
    · split at h
      · assumption
      · cases h

theorem readRegistration_refused {response : Response}
    (h : (classify response.status).isOk = false) :
    ∀ lease, readRegistration isUuid (some response) ≠ .ok lease := by
  intro lease heq
  unfold readRegistration at heq
  cases hstatus : classify response.status with
  | ok done =>
      rw [hstatus] at h
      cases h
  | error failure =>
      dsimp only at heq
      rw [hstatus] at heq
      cases heq

theorem sound_refuse (h : renewal.Sound isUuid) (index status : Nat) :
    (renewal.refuse index status).Sound isUuid := by
  unfold refuse
  split
  · exact h
  · rename_i number request hrequest
    split
    · exact h
    · rename_i hrefused
      rw [not_or, Bool.not_eq_true] at hrefused
      refine h.reply hrequest { status := status } rfl rfl rfl rfl rfl rfl rfl
        (fun hcalm => ⟨hcalm, fun _ _ _ _ _ hkept => hkept⟩) fun _ => ?_
      unfold Fits
      split
      · exact fun lease hread => absurd hread (readRegistration_refused hrefused.2 lease)
      · refine fun lease _ _ => ⟨fun hconflict => hrefused.1 (classify_conflict hconflict), ?_⟩
        intro hok
        rw [hok] at hrefused
        cases hrefused.2
      all_goals trivial

/-- The heartbeat of the client that has the lease is granted. -/
theorem Kept.heartbeat (h : renewal.Kept radioId leaseId bound) (hnow : renewal.now < bound) :
    renewal.registry.heartbeat renewal.now radioId renewal.clientInstanceId leaseId =
      (renewal.registry.insert radioId
        { clientInstanceId := renewal.clientInstanceId, leaseId := leaseId,
          deadline := renewal.now + leaseTimeout }, .ok ()) := by
  obtain ⟨hown, deadline, hdeadline, hlease⟩ := h
  rw [ClientRadioRegistry.heartbeat, ClientRadioRegistry.onLease, hlease]
  dsimp only
  rw [if_neg (by omega), if_neg (by simp)]

theorem keeps_handle (renewal : Renewal) (requests : List (Nat × Request))
    (answers : List (Nat × Response)) (call : LeaseCall)
    (hregister : ∀ other client drawn, call ≠ .register other client drawn)
    (hoffline : ∀ other client named, call = .offline other client named →
      named ∉ renewal.own ∨ client ≠ renewal.clientInstanceId) :
    renewal.Keeps
      { renewal with
        registry := (renewal.registry.handle renewal.now call).1
        requests := requests
        answers := answers } := by
  intro hcalm
  refine ⟨hcalm, fun radioId leaseId bound hnow hbound hkept => ⟨hkept.1, ?_⟩⟩
  exact hkept.handle call hnow hbound
    (fun other client drawn heq => absurd heq (hregister other client drawn)) hoffline

theorem sound_serveHeartbeat (h : renewal.Sound isUuid) {index number : Nat}
    (hrequest : renewal.requests[index]? = some (number, .heartbeat radioId leaseId)) :
    (serveLease { renewal with requests := renewal.requests.eraseIdx index } number
      (renewal.registry.heartbeat renewal.now radioId renewal.clientInstanceId leaseId)).Sound
        isUuid := by
  refine h.reply hrequest _ rfl rfl rfl rfl rfl rfl rfl
    (keeps_handle renewal _ _ (.heartbeat radioId renewal.clientInstanceId leaseId)
      (fun other client drawn heq => (by cases heq))
      (fun other client named heq => (by cases heq))) fun hnumber => ?_
  rw [hnumber] at hrequest
  have hasked := (h.asked _ (List.mem_of_getElem? hrequest)).2
  have hstands := h.stands
  have hlast := h.sentAt_le
  unfold Fits
  unfold Stands at hstands
  split
  · rename_i hphase
    have hregister : renewal.agent.request = some .register := by
      rw [Agent.request, show renewal.agent.phase = .registering from hphase]
    cases hasked _ hregister
  · rename_i hphase
    intro lease hlease hcalm
    replace hphase : renewal.agent.phase = .renewing := hphase
    replace hlease : renewal.agent.lease = some lease := hlease
    rw [hphase] at hstands
    have hheartbeat : renewal.agent.request =
        some (.heartbeat lease.radioId lease.leaseId) := by
      rw [Agent.request, hphase, hlease]
    obtain ⟨held, hheld, -, hkept⟩ := hstands
    cases hheld.symm.trans hlease
    obtain ⟨htime, hkept⟩ := hkept hcalm
    cases hasked _ hheartbeat
    have hgranted := hkept.heartbeat (by omega)
    rw [hgranted]
    refine ⟨fun hconflict => (by cases hconflict), fun _ => ⟨hkept.1, ?_⟩⟩
    refine ⟨renewal.now + leaseTimeout, Nat.add_le_add_right hlast _, ?_⟩
    exact (TreeMap.getElem?_insert_key ..).trans (if_pos rfl)
  all_goals trivial

theorem sound_serveOffline (h : renewal.Sound isUuid) {index number : Nat}
    (hrequest : renewal.requests[index]? = some (number, .offline radioId leaseId))
    (result : ClientRadioRegistry × Except LeaseError Unit) :
    (serveLease { renewal with requests := renewal.requests.eraseIdx index } number result).Sound
      isUuid := by
  have hphase := h.offline number radioId leaseId (List.mem_of_getElem? hrequest)
  have hperm : (serveLease { renewal with requests := renewal.requests.eraseIdx index } number
      result).numbers.Perm renewal.numbers := numbers_reply hrequest _ rfl rfl
  exact h.still rfl rfl rfl rfl (fun number => hperm.mem_iff.mp) (hperm.nodup_iff.mpr h.once)
    (fun other hmem => List.mem_of_mem_eraseIdx hmem) (.of_left hphase)
    fun response _ => .of_left hphase

theorem registered_here (renewal : Renewal) (number : Nat) (radioId : Int64) (leaseId : String) :
    (renewal.serveRegister number radioId leaseId).Kept radioId leaseId
      (renewal.now + leaseTimeout) := by
  refine ⟨List.mem_append_right _ (List.mem_singleton.mpr rfl), renewal.now + leaseTimeout,
    Nat.le_refl _, ?_⟩
  exact (TreeMap.getElem?_insert_key ..).trans (if_pos rfl)

/-- What the client makes of a registration that the backend has drawn for it. -/
theorem readRegistration_drawn {registration : Registration} {lease : Lease}
    (h : readRegistration isUuid (some { status := 200, registration := some registration }) =
      .ok lease) :
    lease.radioId = registration.radioId ∧ lease.leaseId = registration.leaseId ∧
      lease.heartbeatInterval = seconds registration.heartbeatIntervalSeconds := by
  unfold readRegistration at h
  have hok : classify 200 = .ok () := rfl
  dsimp only at h
  rw [hok] at h
  dsimp only [bind, Except.bind] at h
  split at h
  · cases h
  · cases h
    exact ⟨rfl, rfl, rfl⟩

theorem sound_serveRegister (h : renewal.Sound isUuid) {index number : Nat}
    (hrequest : renewal.requests[index]? = some (number, .register)) (radioId : Int64)
    (leaseId : String) :
    (serveRegister { renewal with requests := renewal.requests.eraseIdx index } number radioId
      leaseId).Sound isUuid := by
  by_cases hlast : number = renewal.sent
  · have hmem : (renewal.sent, Request.register) ∈ renewal.requests :=
      hlast ▸ List.mem_of_getElem? hrequest
    obtain ⟨hholding, hasked⟩ := h.asked _ hmem
    have hstands := h.stands
    have hfresh : ∀ response, (renewal.sent, response) ∉ renewal.answers := by
      intro response hanswer
      have honce := (List.nodup_append.mp h.once).2.2
      exact honce _ (List.mem_map_of_mem hmem) _ (List.mem_map_of_mem hanswer) rfl
    have hperm : (serveRegister { renewal with requests := renewal.requests.eraseIdx index } number
        radioId leaseId).numbers.Perm renewal.numbers := numbers_reply hrequest _ rfl rfl
    refine h.still rfl rfl rfl rfl (fun number => hperm.mem_iff.mp) (hperm.nodup_iff.mpr h.once)
      (fun other hmem => List.mem_of_mem_eraseIdx hmem) ?_ ?_
    · unfold Stands at *
      cases hphase : renewal.agent.phase with
      | registering =>
          rw [show (serveRegister { renewal with requests := renewal.requests.eraseIdx index }
            number radioId leaseId).agent.phase = .registering from hphase]
          rw [hphase] at hstands
          exact hstands
      | holding due => exact absurd hphase (hholding due)
      | renewing =>
          rw [hphase] at hstands
          obtain ⟨lease, hlease, -, -⟩ := hstands
          have hheartbeat : renewal.agent.request =
              some (.heartbeat lease.radioId lease.leaseId) := by
            rw [Agent.request, hphase, hlease]
          cases hasked _ hheartbeat
      | backingOff due doubles =>
          rw [show (serveRegister { renewal with requests := renewal.requests.eraseIdx index }
            number radioId leaseId).agent.phase = .backingOff due doubles from hphase]
          rw [hphase] at hstands
          exact hstands
      | leaving => exact Stands.of_left (.inl hphase)
      | finished => exact Stands.of_left (.inr hphase)
    · intro response hanswer
      rcases List.mem_append.mp hanswer with hold | hnew
      · exact absurd hold (hfresh response)
      · obtain ⟨-, rfl⟩ := Prod.mk.inj (List.mem_singleton.mp hnew)
        unfold Fits
        split
        · intro lease hread
          obtain ⟨hradio, hid, hinterval⟩ := readRegistration_drawn hread
          refine ⟨hinterval, fun _ => ?_⟩
          rw [hradio, hid]
          exact (registered_here { renewal with requests := renewal.requests.eraseIdx index }
            number radioId leaseId).mono (Nat.add_le_add_right h.sentAt_le _)
        · rename_i hphase
          intro lease hlease
          have hheartbeat : renewal.agent.request =
              some (.heartbeat lease.radioId lease.leaseId) := by
            rw [Agent.request, show renewal.agent.phase = .renewing from hphase,
              show renewal.agent.lease = some lease from hlease]
          cases hasked _ hheartbeat
        all_goals trivial
  · have hcalm : ¬(serveRegister { renewal with requests := renewal.requests.eraseIdx index }
        number radioId leaseId).Calm :=
      fun hcalm => hlast (of_not_not (of_decide_eq_false hcalm.1))
    exact h.reply hrequest _ rfl rfl rfl rfl rfl rfl rfl (fun hnext => absurd hnext hcalm)
      fun hnumber => absurd hnumber hlast

theorem sound_serve (h : renewal.Sound isUuid) (index : Nat) (radioId : Int64) (leaseId : String) :
    (renewal.serve index radioId leaseId).Sound isUuid := by
  unfold serve
  split
  · exact h
  · rename_i number request hrequest
    cases request with
    | register =>
        dsimp only
        split
        · exact h
        · exact sound_serveRegister h hrequest radioId leaseId
    | heartbeat radioId leaseId => exact sound_serveHeartbeat h hrequest
    | offline radioId leaseId => exact sound_serveOffline h hrequest _

/-- What others do leaves the client's requests alone. -/
theorem Sound.aside (h : renewal.Sound isUuid) (hagent : next.agent = renewal.agent)
    (hnow : next.now = renewal.now) (hsent : next.sent = renewal.sent)
    (hsentAt : next.sentAt = renewal.sentAt) (hlate : next.late = renewal.late)
    (hrequests : next.requests = renewal.requests) (hanswers : next.answers = renewal.answers)
    (hkeeps : renewal.Keeps next) : next.Sound isUuid := by
  have hnumbers : next.numbers = renewal.numbers := by
    unfold numbers
    rw [hrequests, hanswers]
  refine h.still hagent hnow hsent hsentAt (fun number hmem => hnumbers ▸ hmem)
    (hnumbers ▸ h.once) (fun other hmem => hrequests ▸ hmem)
    (h.stands.steady hagent hnow hsentAt hlate hkeeps h.sentAt_le) fun response hmem => ?_
  rw [hanswers] at hmem
  exact (h.fits response hmem).steady h.stands hagent hsentAt hkeeps h.sentAt_le

theorem sound_other (h : renewal.Sound isUuid) (call : LeaseCall) :
    (renewal.other call).Sound isUuid := by
  cases call with
  | register radioId client leaseId =>
      dsimp only [other]
      split
      · exact h
      · refine h.aside rfl rfl rfl rfl rfl rfl rfl fun hcalm => ?_
        obtain ⟨hsuperseded, hlate⟩ := hcalm
        rw [Bool.or_eq_false_iff] at hsuperseded
        refine ⟨⟨hsuperseded.1, hlate⟩, fun held heldId bound hnow hbound hkept => ⟨hkept.1, ?_⟩⟩
        refine hkept.handle (.register radioId client leaseId) hnow hbound ?_ ?_
        · intro other who drawn heq
          cases heq
          exact hsuperseded.2
        · intro other who named heq
          cases heq
  | offline radioId client leaseId =>
      dsimp only [other]
      split
      · exact h
      · rename_i hown
        refine h.aside rfl rfl rfl rfl rfl rfl rfl ?_
        refine keeps_handle renewal _ _ (.offline radioId client leaseId) ?_ ?_
        · intro other who drawn heq
          cases heq
        · intro other who named heq
          cases heq
          exact .inl hown
  | heartbeat radioId client leaseId =>
      refine h.aside rfl rfl rfl rfl rfl rfl rfl ?_
      refine keeps_handle renewal _ _ (.heartbeat radioId client leaseId) ?_ ?_
      · intro other who drawn heq
        cases heq
      · intro other who named heq
        cases heq
  | isOnline radioId =>
      refine h.aside rfl rfl rfl rfl rfl rfl rfl ?_
      refine keeps_handle renewal _ _ (.isOnline radioId) ?_ ?_
      · intro other who drawn heq
        cases heq
      · intro other who named heq
        cases heq
  | expire =>
      refine h.aside rfl rfl rfl rfl rfl rfl rfl ?_
      refine keeps_handle renewal _ _ .expire ?_ ?_
      · intro other who drawn heq
        cases heq
      · intro other who named heq
        cases heq

theorem sound_lose (h : renewal.Sound isUuid) (index : Nat) :
    ({ renewal with requests := renewal.requests.eraseIdx index } : Renewal).Sound isUuid := by
  have hsublist : (({ renewal with requests := renewal.requests.eraseIdx index } :
      Renewal).numbers).Sublist renewal.numbers :=
    ((List.eraseIdx_sublist renewal.requests index).map _).append_right _
  exact h.still rfl rfl rfl rfl (fun number hmem => hsublist.subset hmem)
    (h.once.sublist hsublist) (fun other => List.mem_of_mem_eraseIdx) h.stands h.fits

/-! ### The client's part -/

/-- Where the agent goes from where it is. -/
structure Sets (renewal : Renewal) (agent : Agent) : Prop where
  retryDelay_le : agent.retryDelay ≤ maxRetryDelay
  leaves : renewal.agent.phase = .leaving ∨ renewal.agent.phase = .finished →
    agent.phase = .leaving ∨ agent.phase = .finished
  registering : agent.phase = .registering → agent.lease = none
  renewing : agent.phase = .renewing → ∃ lease, agent.lease = some lease ∧
    lease.heartbeatInterval = seconds heartbeatIntervalSeconds ∧
    (renewal.Calm →
      renewal.Kept lease.radioId lease.leaseId (renewal.now + requestTimeout + 1))
  holding : ∀ due, agent.phase = .holding due →
    (∀ other, (renewal.sent, other) ∉ renewal.requests) ∧
    ∃ lease, agent.lease = some lease ∧
      lease.heartbeatInterval = seconds heartbeatIntervalSeconds ∧
      due ≤ renewal.now + seconds heartbeatIntervalSeconds ∧
      (renewal.Calm → renewal.now ≤ due ∧
        renewal.Kept lease.radioId lease.leaseId (due + requestTimeout + 1))
  backingOff : ∀ due doubles, agent.phase = .backingOff due doubles →
    agent.lease = none ∧ due ≤ renewal.now + maxRetryDelay

theorem request_offline {agent : Agent}
    (h : agent.request = some (.offline radioId leaseId)) : agent.phase = .leaving := by
  unfold Agent.request at h
  split at h
  · cases h
  · cases h
  · assumption
  · cases h

section Follow

variable {agent : Agent} {request : Request}

theorem request_registering (hphase : agent.phase = .registering) :
    agent.request = some .register := by
  rw [Agent.request, hphase]

theorem request_holding {due : Nat} (hphase : agent.phase = .holding due) :
    agent.request = none := by
  rw [Agent.request, hphase]

/-- The lease that the agent renews. -/
theorem Sets.request_renewing (hsets : renewal.Sets agent) (hphase : agent.phase = .renewing) :
    ∃ lease, agent.lease = some lease ∧
      agent.request = some (.heartbeat lease.radioId lease.leaseId) ∧
      lease.heartbeatInterval = seconds heartbeatIntervalSeconds ∧
      (renewal.Calm →
        renewal.Kept lease.radioId lease.leaseId (renewal.now + requestTimeout + 1)) := by
  obtain ⟨lease, hlease, hrest⟩ := hsets.renewing hphase
  refine ⟨lease, hlease, ?_, hrest⟩
  rw [Agent.request, hphase, hlease]

/-- An agent that asks for nothing waits for no answer. -/
theorem Sets.quiet (hsets : renewal.Sets agent) (hrequest : agent.request = none) :
    agent.phase ≠ .registering ∧ agent.phase ≠ .renewing := by
  constructor
  · intro hphase
    cases hrequest.symm.trans (request_registering hphase)
  · intro hphase
    obtain ⟨lease, -, hheartbeat, -⟩ := hsets.request_renewing hphase
    cases hrequest.symm.trans hheartbeat

theorem Sound.follow_none (h : renewal.Sound isUuid) (hsets : renewal.Sets agent)
    (hrequest : agent.request = none) :
    ({ renewal with agent := agent } : Renewal).Sound isUuid := by
  have hquiet := hsets.quiet hrequest
  refine ⟨h.sentAt_le, h.numbered, h.once, ?_, ?_, hsets.retryDelay_le, ?_, ?_⟩
  · intro other hmem
    refine ⟨fun due hphase => (hsets.holding due hphase).1 other hmem, fun request hsome => ?_⟩
    cases hrequest.symm.trans hsome
  · exact fun number radioId leaseId hmem => hsets.leaves (h.offline number radioId leaseId hmem)
  · unfold Stands
    dsimp only
    cases hphase : agent.phase with
    | registering => exact absurd hphase hquiet.1
    | holding due => exact (hsets.holding due hphase).2
    | renewing => exact absurd hphase hquiet.2
    | backingOff due doubles => exact hsets.backingOff due doubles hphase
    | leaving => trivial
    | finished => trivial
  · intro response _
    unfold Fits
    dsimp only
    cases hphase : agent.phase with
    | registering => exact absurd hphase hquiet.1
    | renewing => exact absurd hphase hquiet.2
    | holding due => trivial
    | backingOff due doubles => trivial
    | leaving => trivial
    | finished => trivial

/-- The number of the next request is not given yet. -/
theorem Sound.unsent (h : renewal.Sound isUuid) : renewal.sent + 1 ∉ renewal.numbers :=
  fun hmem => Nat.not_succ_le_self _ (h.numbered _ hmem)

theorem perm_numbers_send (renewal : Renewal) (request : Request) :
    ((renewal.requests ++ [(renewal.sent + 1, request)]).map Prod.fst ++
      renewal.answers.map Prod.fst).Perm ((renewal.sent + 1) :: renewal.numbers) := by
  rw [List.map_append, List.append_assoc]
  exact List.perm_middle

theorem Sets.stands_follow (hsets : renewal.Sets agent) (hrequest : agent.request = some request) :
    (renewal.follow agent).Stands := by
  simp only [Stands, Renewal.follow, hrequest]
  cases hphase : agent.phase with
  | registering => exact ⟨hsets.registering hphase, fun _ => Nat.le_add_right _ _⟩
  | holding due => cases hrequest.symm.trans (request_holding hphase)
  | renewing =>
      obtain ⟨lease, hlease, hheartbeat, hinterval, hkept⟩ := hsets.request_renewing hphase
      refine ⟨lease, hlease, hinterval, fun hcalm => ⟨Nat.le_add_right _ _, ?_⟩⟩
      cases hrequest.symm.trans hheartbeat
      exact hkept hcalm
  | backingOff due doubles => exact hsets.backingOff due doubles hphase
  | leaving => trivial
  | finished => trivial

theorem Sound.follow_some (h : renewal.Sound isUuid) (hsets : renewal.Sets agent)
    (hrequest : agent.request = some request) : (renewal.follow agent).Sound isUuid := by
  have hstands := hsets.stands_follow hrequest
  simp only [Renewal.follow, hrequest] at hstands ⊢
  have hperm := perm_numbers_send renewal request
  refine ⟨Nat.le_refl _, ?_, ?_, ?_, ?_, hsets.retryDelay_le, hstands, ?_⟩
  · intro number hmem
    cases List.mem_cons.mp (hperm.subset hmem) with
    | inl heq => exact Nat.le_of_eq heq
    | inr hold => exact Nat.le_succ_of_le (h.numbered number hold)
  · exact hperm.nodup_iff.mpr (List.nodup_cons.mpr ⟨h.unsent, h.once⟩)
  · intro other hmem
    dsimp only at hmem
    have hother : other = request := by
      rcases List.mem_append.mp hmem with hold | hlast
      · exact absurd (List.mem_append_left _ (List.mem_map_of_mem hold)) h.unsent
      · exact (Prod.mk.inj (List.mem_singleton.mp hlast)).2
    refine ⟨fun due hphase => ?_, fun asked hasked => ?_⟩
    · cases hrequest.symm.trans (request_holding hphase)
    · exact hother.trans (Option.some.inj (hrequest.symm.trans hasked))
  · intro number radioId leaseId hmem
    rcases List.mem_append.mp hmem with hold | hlast
    · exact hsets.leaves (h.offline number radioId leaseId hold)
    · obtain ⟨-, hoffline⟩ := Prod.mk.inj (List.mem_singleton.mp hlast)
      exact .inl (request_offline (hoffline ▸ hrequest))
  · intro response hmem
    exact absurd (List.mem_append_right _ (List.mem_map_of_mem hmem)) h.unsent

theorem Sound.follow (h : renewal.Sound isUuid) (hsets : renewal.Sets agent) :
    (renewal.follow agent).Sound isUuid := by
  cases hrequest : agent.request with
  | none =>
      rw [Renewal.follow, hrequest]
      exact h.follow_none hsets hrequest
  | some request => exact h.follow_some hsets hrequest

end Follow

section Agent

variable (agent : Agent)

theorem sets_finish (renewal : Renewal) (hretry : agent.retryDelay ≤ maxRetryDelay) :
    renewal.Sets agent.finish := by
  unfold Agent.finish
  cases agent.lease with
  | none =>
      exact ⟨hretry, fun _ => .inr rfl, AgentPhase.noConfusion, AgentPhase.noConfusion,
        fun due => AgentPhase.noConfusion, fun due doubles => AgentPhase.noConfusion⟩
  | some lease =>
      exact ⟨hretry, fun _ => .inl rfl, AgentPhase.noConfusion, AgentPhase.noConfusion,
        fun due => AgentPhase.noConfusion, fun due doubles => AgentPhase.noConfusion⟩

theorem sets_loop (hretry : agent.retryDelay ≤ maxRetryDelay)
    (hopen : ¬(renewal.agent.phase = .leaving ∨ renewal.agent.phase = .finished))
    (hlease : ∀ lease, agent.lease = some lease →
      (∀ other, (renewal.sent, other) ∉ renewal.requests) ∧
        lease.heartbeatInterval = seconds heartbeatIntervalSeconds ∧
        (renewal.Calm → renewal.Kept lease.radioId lease.leaseId
          (renewal.now + seconds heartbeatIntervalSeconds + requestTimeout + 1))) :
    renewal.Sets (agent.loop renewal.now) := by
  unfold Agent.loop
  split
  · exact sets_finish agent renewal hretry
  · split
    · rename_i lease hsome
      obtain ⟨hanswered, hinterval, hkept⟩ := hlease lease hsome
      refine ⟨hretry, fun hclosed => absurd hclosed hopen, AgentPhase.noConfusion,
        AgentPhase.noConfusion, fun due hdue => ?_, fun due doubles => AgentPhase.noConfusion⟩
      cases hdue
      rw [hinterval]
      exact ⟨hanswered, lease, hsome, hinterval, Nat.le_refl _,
        fun hcalm => ⟨Nat.le_add_right _ _, hkept hcalm⟩⟩
    · rename_i hnone
      exact ⟨hretry, fun hclosed => absurd hclosed hopen, fun _ => hnone, AgentPhase.noConfusion,
        fun due => AgentPhase.noConfusion, fun due doubles => AgentPhase.noConfusion⟩

theorem sets_backOff (hretry : agent.retryDelay ≤ maxRetryDelay) (hnone : agent.lease = none)
    (hopen : ¬(renewal.agent.phase = .leaving ∨ renewal.agent.phase = .finished)) {delay : Nat}
    (hdelay : delay ≤ maxRetryDelay) (doubles : Bool) :
    renewal.Sets (agent.backOff renewal.now delay doubles) := by
  unfold Agent.backOff
  split
  · exact sets_finish agent renewal hretry
  · refine ⟨hretry, fun hclosed => absurd hclosed hopen, AgentPhase.noConfusion,
      AgentPhase.noConfusion, fun due => AgentPhase.noConfusion, fun due doubles hdue => ?_⟩
    cases hdue
    exact ⟨hnone, Nat.add_le_add_left hdelay _⟩

theorem sets_rejected (hretry : agent.retryDelay ≤ maxRetryDelay) (hnone : agent.lease = none)
    (hopen : ¬(renewal.agent.phase = .leaving ∨ renewal.agent.phase = .finished)) :
    renewal.Sets (agent.rejected renewal.now) :=
  sets_backOff (agent.emit .credentialsRejected) hretry hnone hopen (Nat.le_refl _) false

theorem sets_unavailable (hretry : agent.retryDelay ≤ maxRetryDelay) (hnone : agent.lease = none)
    (hopen : ¬(renewal.agent.phase = .leaving ∨ renewal.agent.phase = .finished)) :
    renewal.Sets (agent.unavailable renewal.now) :=
  sets_backOff (agent.emit _) hretry hnone hopen hretry true

end Agent

/-- What an answer, or none, tells the agent that waits for it. -/
theorem sets_answered (h : renewal.Sound isUuid) (hasks : renewal.agent.request.isSome = true)
    {response : Option Response}
    (hresponse : ∀ answer, response = some answer →
      (∀ other, (renewal.sent, other) ∉ renewal.requests) ∧
        renewal.now < renewal.sentAt + requestTimeout ∧ renewal.Fits isUuid answer) :
    renewal.Sets (renewal.agent.answered renewal.now isUuid response) := by
  have hrequest := requestTimeout_eq
  have hleaseTime := leaseTimeout_eq
  have hinterval := heartbeatInterval_eq
  have hretry := h.retryDelay_le
  have hone : seconds 1 ≤ maxRetryDelay := by decide
  have hstands := h.stands
  unfold Stands at hstands
  unfold Agent.answered
  cases hphase : renewal.agent.phase with
  | registering =>
      rw [hphase] at hstands
      have hopen : ¬(renewal.agent.phase = .leaving ∨ renewal.agent.phase = .finished) := by
        rw [hphase]
        simp
      dsimp only
      cases hread : readRegistration isUuid response with
      | error failure =>
          cases failure with
          | credentialsRejected => exact sets_rejected _ hretry hstands.1 hopen
          | leaseReplaced => exact sets_unavailable _ hretry hstands.1 hopen
          | unavailable => exact sets_unavailable _ hretry hstands.1 hopen
      | ok lease =>
          refine sets_loop _ hone hopen fun held hheld => ?_
          cases hheld
          cases response with
          | none => cases hread
          | some answer =>
              obtain ⟨hanswered, htime, hfits⟩ := hresponse answer rfl
              unfold Fits at hfits
              rw [hphase] at hfits
              obtain ⟨hevery, hkept⟩ := hfits lease hread
              exact ⟨hanswered, hevery, fun hcalm => (hkept hcalm).mono (by omega)⟩
  | renewing =>
      rw [hphase] at hstands
      have hopen : ¬(renewal.agent.phase = .leaving ∨ renewal.agent.phase = .finished) := by
        rw [hphase]
        simp
      dsimp only
      cases hread : readAnswer response with
      | error failure =>
          cases failure with
          | credentialsRejected =>
              exact sets_rejected { renewal.agent with lease := none } hretry rfl hopen
          | unavailable =>
              exact sets_unavailable { renewal.agent with lease := none } hretry rfl hopen
          | leaseReplaced =>
              refine sets_loop _ hone hopen fun held hheld => ?_
              cases hheld
      | ok done =>
          obtain ⟨lease, hlease, hevery, -⟩ := hstands
          refine sets_loop _ hretry hopen fun held hheld => ?_
          cases hlease.symm.trans hheld
          cases response with
          | none => cases hread
          | some answer =>
              obtain ⟨hanswered, htime, hfits⟩ := hresponse answer rfl
              unfold Fits at hfits
              rw [hphase] at hfits
              refine ⟨hanswered, hevery, fun hcalm => ?_⟩
              exact ((hfits lease hlease hcalm).2 hread).mono (by omega)
  | leaving =>
      exact ⟨hretry, fun _ => .inr rfl, AgentPhase.noConfusion, AgentPhase.noConfusion,
        fun due => AgentPhase.noConfusion, fun due doubles => AgentPhase.noConfusion⟩
  | finished =>
      rw [Agent.request, hphase] at hasks
      cases hasks
  | holding due =>
      rw [Agent.request, hphase] at hasks
      cases hasks
  | backingOff due doubles =>
      rw [Agent.request, hphase] at hasks
      cases hasks

theorem sound_answer (h : renewal.Sound isUuid) (index : Nat) :
    (renewal.answer isUuid index).Sound isUuid := by
  unfold answer
  split
  · exact h
  · rename_i number response hanswer
    have hmem := List.mem_of_getElem? hanswer
    have hsublist : (({ renewal with answers := renewal.answers.eraseIdx index } :
        Renewal).numbers).Sublist renewal.numbers :=
      ((List.eraseIdx_sublist renewal.answers index).map _).append_left _
    have hleft : ({ renewal with answers := renewal.answers.eraseIdx index } : Renewal).Sound
        isUuid :=
      h.still rfl rfl rfl rfl (fun number hmem => hsublist.subset hmem) (h.once.sublist hsublist)
        (fun other hmem => hmem) h.stands
        (fun other hother => h.fits other (List.mem_of_mem_eraseIdx hother))
    dsimp only
    split
    · rename_i hcounts
      obtain ⟨hnumber, hasks, htime⟩ := hcounts
      refine hleft.follow (sets_answered hleft hasks fun answer heq => ?_)
      cases heq
      rw [hnumber] at hmem
      refine ⟨fun other hother => ?_, htime, h.fits response hmem⟩
      have honce := (List.nodup_append.mp h.once).2.2
      exact honce _ (List.mem_map_of_mem hother) _ (List.mem_map_of_mem hmem) rfl
    · exact hleft

theorem sound_fail (h : renewal.Sound isUuid) : (renewal.fail isUuid).Sound isUuid := by
  unfold fail
  split
  · rename_i hasks
    exact h.follow (sets_answered h hasks fun answer heq => (by cases heq))
  · exact h

theorem sound_elapse (h : renewal.Sound isUuid) (hasks : renewal.agent.request.isSome = false) :
    (renewal.follow (renewal.agent.elapse renewal.now)).Sound isUuid := by
  have hretry := h.retryDelay_le
  have hstands := h.stands
  have hnone := Option.isSome_eq_false_iff.mp hasks
  rw [Option.isNone_iff_eq_none] at hnone
  have hself : (renewal.follow renewal.agent).Sound isUuid := by
    unfold Renewal.follow
    rw [hnone]
    exact h
  unfold Stands at hstands
  unfold Agent.elapse
  cases hphase : renewal.agent.phase with
  | holding due =>
      rw [hphase] at hstands
      dsimp only
      split
      · rename_i hdue
        obtain ⟨lease, hlease, hinterval, -, hkept⟩ := hstands
        refine h.follow ⟨hretry, fun hleft => ?_, AgentPhase.noConfusion, fun _ => ?_,
          fun due => AgentPhase.noConfusion, fun due doubles => AgentPhase.noConfusion⟩
        · rw [hphase] at hleft
          exact hleft.elim AgentPhase.noConfusion AgentPhase.noConfusion
        · refine ⟨lease, hlease, hinterval, fun hcalm => ?_⟩
          obtain ⟨hnow, hlasts⟩ := hkept hcalm
          exact hlasts.mono (by omega)
      · exact hself
  | backingOff due doubles =>
      rw [hphase] at hstands
      dsimp only
      split
      · refine h.follow (sets_loop _ ?_ (by rw [hphase]; simp) fun lease hlease => ?_)
        · dsimp only
          split
          · exact Nat.min_le_right ..
          · exact hretry
        · cases hstands.1.symm.trans hlease
      · exact hself
  | registering => exact hself
  | renewing => exact hself
  | leaving => exact hself
  | finished => exact hself

/-- Only the agent's wish to go on has changed. -/
theorem sound_cancelled (h : renewal.Sound isUuid) :
    ({ renewal with agent := { renewal.agent with cancelled := true } } : Renewal).Sound isUuid :=
  ⟨h.sentAt_le, h.numbered, h.once, h.asked, h.offline, h.retryDelay_le, h.stands, h.fits⟩

theorem follow_idle (renewal : Renewal) {agent : Agent} (hnone : agent.request = none) :
    renewal.follow agent = { renewal with agent := agent } := by
  unfold Renewal.follow
  rw [hnone]

/-- A wait ends with the task, a request goes on. -/
theorem cancel_cases (agent : Agent) :
    (agent.request = none ∧ agent.cancel = Agent.finish { agent with cancelled := true }) ∨
      agent.cancel = { agent with cancelled := true } := by
  obtain ⟨phase, lease, retryDelay, cancelled, events⟩ := agent
  cases phase with
  | holding due => exact .inl ⟨rfl, rfl⟩
  | backingOff due doubles => exact .inl ⟨rfl, rfl⟩
  | registering => exact .inr rfl
  | renewing => exact .inr rfl
  | leaving => exact .inr rfl
  | finished => exact .inr rfl

theorem sound_cancel (h : renewal.Sound isUuid) :
    (if renewal.agent.request.isSome then { renewal with agent := renewal.agent.cancel }
      else renewal.follow renewal.agent.cancel).Sound isUuid := by
  rcases cancel_cases renewal.agent with ⟨hnone, hcancel⟩ | hcancel
  · rw [hnone, hcancel, if_neg (Bool.eq_false_iff.mp Option.isSome_none)]
    exact h.follow (sets_finish _ renewal h.retryDelay_le)
  · have hcancelled := sound_cancelled h
    rw [← hcancel] at hcancelled
    split
    · exact hcancelled
    · rename_i hasks
      have hrequest : renewal.agent.cancel.request = renewal.agent.request := by
        rw [hcancel]
        rfl
      rw [follow_idle renewal (hrequest.trans (Option.not_isSome_iff_eq_none.mp hasks))]
      exact hcancelled

theorem sound_abort (h : renewal.Sound isUuid) :
    ({ renewal with agent := renewal.agent.abort } : Renewal).Sound isUuid := by
  unfold Agent.abort
  split
  · refine ⟨h.sentAt_le, h.numbered, h.once, fun other _ => ⟨fun due => AgentPhase.noConfusion, ?_⟩,
      fun _ _ _ _ => .inr rfl, h.retryDelay_le, trivial, fun _ _ => trivial⟩
    intro request hrequest
    cases hrequest
  · exact h

/-- Nothing is late as long as what is due is not. -/
theorem tick_due {now due : Nat} (hlate : (renewal.tick now).late = false)
    (hdue : renewal.dueTime = some due) : renewal.late = false ∧ (renewal.tick now).now ≤ due := by
  unfold tick at *
  dsimp only at *
  rw [hdue, Option.any_some, Bool.or_eq_false_iff, decide_eq_false_iff_not] at hlate
  exact ⟨hlate.1, Nat.le_of_not_lt hlate.2⟩

theorem tick_calm {now : Nat} (h : (renewal.tick now).Calm) : renewal.Calm :=
  ⟨h.1, (Bool.or_eq_false_iff.mp h.2).1⟩

theorem stands_tick (h : renewal.Sound isUuid) (now : Nat) : (renewal.tick now).Stands := by
  have hlater : renewal.now ≤ (renewal.tick now).now := Nat.le_max_left ..
  have hsame : (renewal.tick now).agent = renewal.agent := rfl
  have hstands := h.stands
  unfold Stands at *
  rw [hsame]
  cases hphase : renewal.agent.phase with
  | registering =>
      have hdue : renewal.dueTime = some (renewal.sentAt + requestTimeout) := by
        rw [dueTime, hphase]
      rw [hphase] at hstands
      exact ⟨hstands.1, fun hlate => (tick_due hlate hdue).2⟩
  | holding due =>
      have hdue : renewal.dueTime = some due := by rw [dueTime, hphase]
      rw [hphase] at hstands
      obtain ⟨lease, hlease, hinterval, hsoon, hkept⟩ := hstands
      refine ⟨lease, hlease, hinterval, Nat.le_trans hsoon (Nat.add_le_add_right hlater _), ?_⟩
      intro hcalm
      exact ⟨(tick_due hcalm.2 hdue).2, (hkept (tick_calm hcalm)).2⟩
  | renewing =>
      have hdue : renewal.dueTime = some (renewal.sentAt + requestTimeout) := by
        rw [dueTime, hphase]
      rw [hphase] at hstands
      obtain ⟨lease, hlease, hinterval, hkept⟩ := hstands
      refine ⟨lease, hlease, hinterval, fun hcalm => ?_⟩
      exact ⟨(tick_due hcalm.2 hdue).2, (hkept (tick_calm hcalm)).2⟩
  | backingOff due doubles =>
      rw [hphase] at hstands
      exact ⟨hstands.1, Nat.le_trans hstands.2 (Nat.add_le_add_right hlater _)⟩
  | leaving => trivial
  | finished => trivial

theorem sound_tick (h : renewal.Sound isUuid) (now : Nat) : (renewal.tick now).Sound isUuid := by
  have hlater : renewal.now ≤ (renewal.tick now).now := Nat.le_max_left ..
  have hsame : (renewal.tick now).agent = renewal.agent := rfl
  refine ⟨Nat.le_trans h.sentAt_le hlater, h.numbered, h.once, h.asked, h.offline,
    h.retryDelay_le, stands_tick h now, fun response hmem => ?_⟩
  have hfits := h.fits response hmem
  unfold Fits at *
  rw [hsame]
  cases hphase : renewal.agent.phase with
  | registering =>
      rw [hphase] at hfits
      intro lease hread
      obtain ⟨hinterval, hkept⟩ := hfits lease hread
      exact ⟨hinterval, fun hcalm => hkept (tick_calm hcalm)⟩
  | renewing =>
      rw [hphase] at hfits
      exact fun lease hlease hcalm => hfits lease hlease (tick_calm hcalm)
  | holding due => trivial
  | backingOff due doubles => trivial
  | leaving => trivial
  | finished => trivial

theorem sound_step (h : renewal.Sound isUuid) (move : RenewalMove) :
    (renewal.step isUuid move).Sound isUuid := by
  cases move with
  | tick now => exact sound_tick h now
  | elapse =>
      dsimp only [step]
      split
      · exact h
      · rename_i hasks
        exact sound_elapse h (Bool.eq_false_iff.mpr hasks)
  | cancel => exact sound_cancel h
  | abort => exact sound_abort h
  | serve index radioId leaseId => exact sound_serve h index radioId leaseId
  | refuse index status => exact sound_refuse h index status
  | lose index => exact sound_lose h index
  | answer index => exact sound_answer h index
  | fail => exact sound_fail h
  | other call => exact sound_other h call

/-! ### What the client is told -/

/-- How often the client was told that its lease was replaced. -/
def replacements (agent : Agent) : Nat := agent.events.count .leaseReplaced

theorem replacements_emit (agent : Agent) {status : ClientWindow.BackendStatus}
    (hstatus : status ≠ .leaseReplaced) :
    replacements (agent.emit status) = replacements agent := by
  unfold replacements Agent.emit
  rw [List.count_append, List.count_singleton, if_neg (by simpa using hstatus), Nat.add_zero]

theorem replacements_finish (agent : Agent) : replacements agent.finish = replacements agent := by
  unfold Agent.finish
  split <;> rfl

theorem replacements_loop (agent : Agent) (now : Nat) :
    replacements (agent.loop now) = replacements agent := by
  unfold Agent.loop
  split
  · exact replacements_finish agent
  · split
    · rfl
    · exact replacements_emit agent (fun heq => by cases heq)

theorem replacements_backOff (agent : Agent) (now delay : Nat) (doubles : Bool) :
    replacements (agent.backOff now delay doubles) = replacements agent := by
  unfold Agent.backOff
  split
  · exact replacements_finish agent
  · rfl

theorem replacements_rejected (agent : Agent) (now : Nat) :
    replacements (agent.rejected now) = replacements agent :=
  (replacements_backOff _ now _ _).trans (replacements_emit agent fun heq => (by cases heq))

theorem replacements_unavailable (agent : Agent) (now : Nat) :
    replacements (agent.unavailable now) = replacements agent :=
  (replacements_backOff _ now _ _).trans (replacements_emit agent fun heq => (by cases heq))

theorem replacements_registered (agent : Agent) (now : Nat) (result : Except RequestFailure Lease) :
    replacements (agent.registered now result) = replacements agent := by
  cases result with
  | ok lease =>
      refine (replacements_loop _ now).trans ?_
      exact replacements_emit agent (fun heq => by cases heq)
  | error failure =>
      cases failure with
      | credentialsRejected => exact replacements_rejected agent now
      | leaseReplaced => exact replacements_unavailable agent now
      | unavailable => exact replacements_unavailable agent now

/-- Only the answer to a heartbeat tells the client of a replaced lease. -/
theorem replacements_answered (agent : Agent) (now : Nat) {response : Option Response}
    (h : replacements (agent.answered now isUuid response) ≠ replacements agent) :
    agent.phase = .renewing ∧ readAnswer response = .error .leaseReplaced := by
  unfold Agent.answered at h
  cases hphase : agent.phase with
  | registering =>
      rw [hphase] at h
      exact absurd (replacements_registered agent now _) h
  | renewing =>
      rw [hphase] at h
      refine ⟨rfl, ?_⟩
      cases hread : readAnswer response with
      | ok done =>
          rw [hread] at h
          exact absurd (replacements_loop agent now) h
      | error failure =>
          cases failure with
          | leaseReplaced => rfl
          | credentialsRejected =>
              rw [hread] at h
              exact absurd (replacements_rejected { agent with lease := none } now) h
          | unavailable =>
              rw [hread] at h
              exact absurd (replacements_unavailable { agent with lease := none } now) h
  | leaving =>
      rw [hphase] at h
      exact absurd rfl h
  | finished =>
      rw [hphase] at h
      exact absurd rfl h
  | holding due =>
      rw [hphase] at h
      exact absurd rfl h
  | backingOff due doubles =>
      rw [hphase] at h
      exact absurd rfl h

theorem replacements_elapse (agent : Agent) (now : Nat) :
    replacements (agent.elapse now) = replacements agent := by
  unfold Agent.elapse
  split
  · split <;> rfl
  · split
    · exact replacements_loop _ now
    · rfl
  all_goals rfl

theorem replacements_cancel (agent : Agent) : replacements agent.cancel = replacements agent := by
  rcases cancel_cases agent with ⟨-, hcancel⟩ | hcancel
  · rw [hcancel, replacements_finish]
    rfl
  · rw [hcancel]
    rfl

theorem follow_agent (renewal : Renewal) (agent : Agent) :
    (renewal.follow agent).agent = agent := by
  unfold Renewal.follow
  split <;> rfl

/-- A client that is told that its lease was replaced is told so with reason. -/
theorem replaced_step (h : renewal.Sound isUuid) {move : RenewalMove}
    (hreplaced : replacements (renewal.step isUuid move).agent ≠ replacements renewal.agent) :
    ¬renewal.Calm := by
  cases move with
  | tick now => exact absurd rfl hreplaced
  | elapse =>
      dsimp only [step] at hreplaced
      split at hreplaced
      · exact absurd rfl hreplaced
      · rw [follow_agent] at hreplaced
        exact absurd (replacements_elapse renewal.agent renewal.now) hreplaced
  | cancel =>
      refine absurd ?_ hreplaced
      dsimp only [step]
      split
      · exact replacements_cancel renewal.agent
      · rw [follow_agent]
        exact replacements_cancel renewal.agent
  | abort =>
      refine absurd ?_ hreplaced
      dsimp only [step, Agent.abort]
      split <;> rfl
  | serve index radioId leaseId =>
      refine absurd ?_ hreplaced
      dsimp only [step, serve]
      split
      · rfl
      · split
        · split <;> rfl
        · rfl
        · rfl
  | refuse index status =>
      refine absurd ?_ hreplaced
      dsimp only [step, refuse]
      split
      · rfl
      · split <;> rfl
  | lose index => exact absurd rfl hreplaced
  | other call =>
      refine absurd ?_ hreplaced
      dsimp only [step, other]
      split
      · split <;> rfl
      · split <;> rfl
      · rfl
  | fail =>
      dsimp only [step, fail] at hreplaced
      split at hreplaced
      · rw [follow_agent] at hreplaced
        cases (replacements_answered renewal.agent renewal.now hreplaced).2
      · exact absurd rfl hreplaced
  | answer index =>
      dsimp only [step, answer] at hreplaced
      split at hreplaced
      · exact absurd rfl hreplaced
      · rename_i number response hanswer
        split at hreplaced
        · rename_i hcounts
          rw [follow_agent] at hreplaced
          obtain ⟨hphase, hread⟩ := replacements_answered renewal.agent renewal.now hreplaced
          have hmem := List.mem_of_getElem? hanswer
          rw [hcounts.1] at hmem
          have hfits := h.fits response hmem
          have hstands := h.stands
          unfold Fits at hfits
          unfold Stands at hstands
          rw [hphase] at hfits hstands
          obtain ⟨lease, hlease, -, -⟩ := hstands
          exact fun hcalm => (hfits lease hlease hcalm).1 hread
        · exact absurd rfl hreplaced

/-- The client whose lease is kept is online, and its next heartbeat is granted. -/
theorem Kept.online (h : renewal.Kept radioId leaseId bound) (hnow : renewal.now < bound) :
    (renewal.registry.isOnline renewal.now radioId).2 = true ∧
      (renewal.registry.heartbeat renewal.now radioId renewal.clientInstanceId leaseId).2 =
        .ok () := by
  refine ⟨?_, congrArg Prod.snd (h.heartbeat hnow)⟩
  obtain ⟨-, deadline, hdeadline, hlease⟩ := h
  rw [ClientRadioRegistry.isOnline, hlease]
  dsimp only
  rw [if_pos (Nat.lt_of_lt_of_le hnow hdeadline)]

/-- A client that starts, with its first request on the way. -/
def start (clientInstanceId : String) : Renewal where
  clientInstanceId := clientInstanceId

def run (isUuid : String → Bool) (renewal : Renewal) (moves : List RenewalMove) : Renewal :=
  Runs.run (fun renewal move => renewal.step isUuid move) renewal moves

theorem sound_run (isUuid : String → Bool) (clientInstanceId : String)
    (moves : List RenewalMove) : ((start clientInstanceId).run isUuid moves).Sound isUuid := by
  refine Runs.invariant_run_of_forall (Sound isUuid) (fun _ move h => sound_step h move) ?_ moves
  have hretry : seconds 1 ≤ maxRetryDelay := by decide
  refine ⟨Nat.le_refl _, ?_, List.nodup_cons.mpr ⟨List.not_mem_nil, List.nodup_nil⟩, ?_, ?_, hretry,
    ⟨rfl, fun _ => Nat.zero_le _⟩, fun response hmem => absurd hmem List.not_mem_nil⟩
  · intro number hmem
    exact Nat.le_of_eq (List.mem_singleton.mp hmem)
  · intro other hmem
    cases List.mem_singleton.mp hmem
    exact ⟨fun due => AgentPhase.noConfusion, fun request hrequest => (by cases hrequest; rfl)⟩
  · intro number radioId leaseId hmem
    cases List.mem_singleton.mp hmem

/-- As long as no other registration takes its lease and no wait or request of it runs over its
time, a client that has a lease is online for everyone and its heartbeats are granted; it is told
that the lease was replaced in no other case. It waits for half a minute at most before it tries
again. -/
theorem run_renewal (isUuid : String → Bool) (clientInstanceId : String)
    (moves : List RenewalMove) (move : RenewalMove) :
    let renewal := (start clientInstanceId).run isUuid moves
    let next := renewal.step isUuid move
    (∀ lease, renewal.agent.lease = some lease →
        ((∃ due, renewal.agent.phase = .holding due) ∨ renewal.agent.phase = .renewing) →
        renewal.superseded = false → renewal.late = false →
          (renewal.registry.isOnline renewal.now lease.radioId).2 = true ∧
          (renewal.registry.heartbeat renewal.now lease.radioId renewal.clientInstanceId
            lease.leaseId).2 = .ok ()) ∧
      (replacements next.agent ≠ replacements renewal.agent →
        renewal.superseded = true ∨ renewal.late = true) ∧
      ∀ due, ((∃ doubles, renewal.agent.phase = .backingOff due doubles) ∨
        renewal.agent.phase = .holding due) → due ≤ renewal.now + seconds 30 := by
  intro renewal next
  have hsound : renewal.Sound isUuid := sound_run isUuid clientInstanceId moves
  have hstands := hsound.stands
  have htimeout := requestTimeout_eq
  refine ⟨fun lease hlease hphase hsuperseded hlate => ?_, fun hreplaced => ?_,
    fun due hphase => ?_⟩
  · unfold Stands at hstands
    rcases hphase with ⟨due, hphase⟩ | hphase
    · rw [hphase] at hstands
      obtain ⟨held, hheld, -, -, hkept⟩ := hstands
      cases hheld.symm.trans hlease
      obtain ⟨hnow, hlasts⟩ := hkept ⟨hsuperseded, hlate⟩
      exact hlasts.online (by omega)
    · rw [hphase] at hstands
      obtain ⟨held, hheld, -, hkept⟩ := hstands
      cases hheld.symm.trans hlease
      obtain ⟨hnow, hlasts⟩ := hkept ⟨hsuperseded, hlate⟩
      exact hlasts.online (by omega)
  · by_contra hcalm
    rw [not_or, Bool.not_eq_true, Bool.not_eq_true] at hcalm
    exact replaced_step hsound hreplaced hcalm
  · unfold Stands at hstands
    rcases hphase with ⟨doubles, hphase⟩ | hphase
    · rw [hphase] at hstands
      exact hstands.2
    · rw [hphase] at hstands
      obtain ⟨held, -, -, hsoon, -⟩ := hstands
      exact Nat.le_trans hsoon (Nat.add_le_add_left (by decide) _)

end Renewal

end Log73.ClientRadios
