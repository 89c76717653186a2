import Log73.Auth.Service

/-!
What is in force when a call of `authorize` is answered: cached answers were verified in this
generation, every key has one verification, and every call that waits has an answer to come.
-/

namespace Log73.Auth

open TreeMap
open Std (ExtTreeMap TransOrd LawfulEqOrd)

variable {κ : Type} [Ord κ] [TransOrd κ]

/-- The hash of the length and the user tells passwords of that user apart. -/
theorem AuthInner.key_inj (inner : AuthInner κ) {username password other : String}
    (h : inner.key username password = inner.key username other) : password = other := by
  have hbytes := List.append_cancel_left (inner.mac_injective h)
  have hchars := congrArg Utf8.decode? hbytes
  rw [Utf8.decode?_encode, Utf8.decode?_encode] at hchars
  exact String.toList_inj.mp (Option.some.inj hchars)

namespace AuthService

variable (inner : AuthInner κ) (service : AuthService κ)

/-- The verifier accepted the password in the generation of the answer, and lately enough. -/
def Verified (accepted : List Acceptance) (answer : Answer) : Prop :=
  answer.decision = .allowed → isAuthEnabled answer.config = true →
    ∃ password, answer.credentials = some (trim answer.config.loginUser, password) ∧
      ∃ acceptance ∈ accepted, acceptance.candidate = password ∧
        acceptance.storedHash = answer.config.loginPassword ∧
        acceptance.generation = answer.generation ∧ acceptance.time ≤ answer.time ∧
        (answer.cached = true → answer.time < acceptance.time + cacheTtl)

/-- An acceptance in the generation that is in force. -/
def InForce (password : String) (acceptance : Acceptance) : Prop :=
  acceptance.candidate = password ∧ acceptance.storedHash = service.state.config.loginPassword ∧
    acceptance.generation = service.state.generation

structure CacheSound : Prop where
  cached : ∀ (key : κ) (entry : CacheEntry), service.state.cache[key]? = some entry →
    ∃ acceptance ∈ service.accepted, ∃ password,
      key = inner.key (trim service.state.config.loginUser) password ∧
        service.InForce password acceptance ∧ acceptance.time = entry.verifiedAt
  accepted : ∀ acceptance ∈ service.accepted,
    inner.verifier acceptance.candidate acceptance.storedHash = true ∧
      acceptance.time ≤ service.clock
  size : service.state.cache.size ≤ cacheCapacity
  answers : ∀ answer ∈ service.answers, Verified service.accepted answer

structure PendingSound : Prop where
  older : ∀ (task : Nat) (verification : Verification κ),
    service.verifications[task]? = some verification →
      task < service.nextId ∧ verification.channel < service.nextId ∧
        verification.generation ≤ service.state.generation
  current : ∀ (task : Nat) (verification : Verification κ),
    service.verifications[task]? = some verification →
      verification.generation = service.state.generation →
        verification.storedHash = service.state.config.loginPassword ∧
          verification.key = inner.key (trim service.state.config.loginUser)
            verification.candidate ∧
          service.state.pending[verification.key]? = some verification.channel ∧
          service.channels[verification.channel]? = some none
  pending : ∀ (key : κ) (channel : Nat), service.state.pending[key]? = some channel →
    ∃ (task : Nat) (verification : Verification κ),
      service.verifications[task]? = some verification ∧
        verification.generation = service.state.generation ∧ verification.key = key ∧
        verification.channel = channel
  single : ∀ (task other : Nat) (verification verification' : Verification κ),
    service.verifications[task]? = some verification →
      service.verifications[other]? = some verification' →
        verification.generation = verification'.generation →
          verification.key = verification'.key → task = other
  channel : ∀ (task other : Nat) (verification verification' : Verification κ),
    service.verifications[task]? = some verification →
      service.verifications[other]? = some verification' →
        verification.channel = verification'.channel → task = other
  size : service.state.pending.size ≤ maxPending

/-- A verification that is not over will give the channel its value. -/
def Expects (channel : Nat) : Prop :=
  ∃ (task : Nat) (verification : Verification κ),
    service.verifications[task]? = some verification ∧ verification.channel = channel ∧
      verification.generation = service.state.generation

def Answered (channel : Nat) : Prop :=
  ∃ decision, service.channels[channel]? = some (some decision)

structure CallsSound : Prop where
  older : ∀ (call : Nat) (waiting : Waiting), service.calls[call]? = some waiting →
    call < service.nextId ∧ waiting.channel < service.nextId ∧
      waiting.generation ≤ service.state.generation
  answered : ∀ (call : Nat) (waiting : Waiting), service.calls[call]? = some waiting →
    service.Answered waiting.channel ∨ service.Expects waiting.channel
  shared : ∀ (call : Nat) (waiting : Waiting), service.calls[call]? = some waiting →
    waiting.generation = service.state.generation →
      waiting.username = trim service.state.config.loginUser ∧
        ∀ (task : Nat) (verification : Verification κ),
          service.verifications[task]? = some verification →
            verification.channel = waiting.channel →
              verification.candidate = waiting.password
  allowed : ∀ (call : Nat) (waiting : Waiting), service.calls[call]? = some waiting →
    waiting.generation = service.state.generation →
      service.channels[waiting.channel]? = some (some .allowed) →
        ∃ acceptance ∈ service.accepted, service.InForce waiting.password acceptance

structure Sound : Prop where
  cache : service.CacheSound inner
  verifications : service.PendingSound inner
  calls : service.CallsSound

variable {inner : AuthInner κ} {service : AuthService κ}

theorem Verified.mono {accepted later : List Acceptance} {answer : Answer}
    (h : Verified accepted answer) (hlater : accepted ⊆ later) : Verified later answer := by
  intro hallowed henabled
  obtain ⟨password, hcredentials, acceptance, hmem, hrest⟩ := h hallowed henabled
  exact ⟨password, hcredentials, acceptance, hlater hmem, hrest⟩

theorem Sound.answer (h : service.Sound inner) (credentials : Option (String × String))
    (decision : AuthDecision) (cached : Bool)
    (hanswer : Verified service.accepted
      { credentials := credentials, decision := decision, cached := cached,
        config := service.state.config, generation := service.state.generation,
        time := service.clock }) :
    (service.answer credentials decision cached).Sound inner where
  cache :=
    { cached := h.cache.cached
      accepted := h.cache.accepted
      size := h.cache.size
      answers := List.forall_mem_cons.mpr ⟨hanswer, h.cache.answers⟩ }
  verifications := ⟨h.verifications.older, h.verifications.current, h.verifications.pending,
    h.verifications.single, h.verifications.channel, h.verifications.size⟩
  calls := ⟨h.calls.older, h.calls.answered, h.calls.shared, h.calls.allowed⟩

/-- An answer that lets nobody in. -/
theorem Sound.refuse (h : service.Sound inner) (credentials : Option (String × String))
    {decision : AuthDecision} (hdecision : decision ≠ .allowed) (cached : Bool) :
    (service.answer credentials decision cached).Sound inner :=
  h.answer credentials decision cached fun hallowed => absurd hallowed hdecision

/-- Entries may go or be used, but none is verified anew. -/
theorem Sound.touch (h : service.Sound inner) {cache : ExtTreeMap κ CacheEntry}
    (hsize : cache.size ≤ service.state.cache.size)
    (hcache : ∀ (key : κ) (entry : CacheEntry), cache[key]? = some entry →
      ∃ old, service.state.cache[key]? = some old ∧ old.verifiedAt = entry.verifiedAt)
    (lastAccess : Nat) :
    Sound inner { service with
      state := { service.state with cache := cache, accessCounter := lastAccess } } where
  cache :=
    { cached := by
        intro key entry hentry
        obtain ⟨old, hold, hverified⟩ := hcache key entry hentry
        obtain ⟨acceptance, hmem, password, hkey, hforce, htime⟩ := h.cache.cached key old hold
        exact ⟨acceptance, hmem, password, hkey, hforce, htime.trans hverified⟩
      accepted := h.cache.accepted
      size := hsize.trans h.cache.size
      answers := h.cache.answers }
  verifications := ⟨h.verifications.older, h.verifications.current, h.verifications.pending,
    h.verifications.single, h.verifications.channel, h.verifications.size⟩
  calls := ⟨h.calls.older, h.calls.answered, h.calls.shared, h.calls.allowed⟩

/-- The call waits for a verification of its own password. -/
theorem Sound.subscribe (h : service.Sound inner) {password : String} {channel : Nat}
    (hexpects : service.Expects channel)
    (hshared : ∀ (task : Nat) (verification : Verification κ),
      service.verifications[task]? = some verification → verification.channel = channel →
        verification.candidate = password) :
    (service.subscribe (trim service.state.config.loginUser) password channel).Sound inner := by
  obtain ⟨task, verification, hget, hchannel, hgeneration⟩ := hexpects
  have hbelow := (h.verifications.older task verification hget).2.1
  have hopen := (h.verifications.current task verification hget hgeneration).2.2.2
  rw [hchannel] at hbelow hopen
  refine ⟨⟨h.cache.cached, h.cache.accepted, h.cache.size, h.cache.answers⟩,
    ⟨?_, h.verifications.current, h.verifications.pending, h.verifications.single,
      h.verifications.channel, h.verifications.size⟩, ⟨?_, ?_, ?_, ?_⟩⟩
  · intro other verification' hother
    have hold := h.verifications.older other verification' hother
    exact ⟨Nat.lt_succ_of_lt hold.1, Nat.lt_succ_of_lt hold.2.1, hold.2.2⟩
  · intro call waiting hcall
    rw [AuthService.subscribe, getElem?_insert_key] at hcall
    split at hcall
    · next heq =>
        cases hcall
        rw [← heq]
        exact ⟨Nat.lt_succ_self _, Nat.lt_succ_of_lt hbelow, Nat.le_refl _⟩
    · have hold := h.calls.older call waiting hcall
      exact ⟨Nat.lt_succ_of_lt hold.1, Nat.lt_succ_of_lt hold.2.1, hold.2.2⟩
  · intro call waiting hcall
    rw [AuthService.subscribe, getElem?_insert_key] at hcall
    split at hcall
    · cases hcall
      exact Or.inr ⟨task, verification, hget, hchannel, hgeneration⟩
    · exact h.calls.answered call waiting hcall
  · intro call waiting hcall hcurrent
    rw [AuthService.subscribe, getElem?_insert_key] at hcall
    split at hcall
    · cases hcall
      exact ⟨rfl, hshared⟩
    · exact h.calls.shared call waiting hcall hcurrent
  · intro call waiting hcall hcurrent hallowed
    rw [AuthService.subscribe, getElem?_insert_key] at hcall
    split at hcall
    · cases hcall
      dsimp only [AuthService.subscribe] at hallowed
      rw [hopen] at hallowed
      cases hallowed
    · exact h.calls.allowed call waiting hcall hcurrent hallowed

/-- A verification after `spawn` is the new one, or was there before. -/
theorem verifications_spawn {key : κ} {password : String} {task : Nat}
    {verification : Verification κ}
    (hget : (service.spawn key password).verifications[task]? = some verification) :
    (task = service.nextId + 1 ∧ verification = ⟨key, service.state.generation, password,
      service.state.config.loginPassword, service.nextId, false⟩) ∨
        service.verifications[task]? = some verification := by
  rw [AuthService.spawn, getElem?_insert_key] at hget
  split at hget
  · next heq =>
      cases hget
      exact Or.inl ⟨heq.symm, rfl⟩
  · exact Or.inr hget

theorem channels_spawn (key : κ) (password : String) {channel : Nat}
    (hlt : channel < service.nextId) :
    (service.spawn key password).channels[channel]? = service.channels[channel]? := by
  rw [AuthService.spawn, getElem?_insert_key, if_neg (Nat.ne_of_gt hlt)]

/-- The verifications that were there before keep their tasks. -/
theorem PendingSound.verifications_spawn (h : service.PendingSound inner) (key : κ)
    (password : String) {task : Nat} {verification : Verification κ}
    (hget : service.verifications[task]? = some verification) :
    (service.spawn key password).verifications[task]? = some verification := by
  have hlt := (h.older task verification hget).1
  rw [AuthService.spawn, getElem?_insert_key, if_neg (by omega)]
  exact hget

/-- No verification of the generation has a key that nothing is pending for. -/
theorem PendingSound.key_ne (h : service.PendingSound inner) {key : κ}
    (hpending : service.state.pending[key]? = none) {task : Nat} {verification : Verification κ}
    (hget : service.verifications[task]? = some verification)
    (hgeneration : verification.generation = service.state.generation) :
    verification.key ≠ key := by
  intro heq
  have hcurrent := (h.current task verification hget hgeneration).2.2.1
  rw [heq, hpending] at hcurrent
  cases hcurrent

section Spawn

variable {key : κ} {password : String}

theorem PendingSound.older_spawn (h : service.PendingSound inner) (task : Nat)
    (verification : Verification κ)
    (hget : (service.spawn key password).verifications[task]? = some verification) :
    task < (service.spawn key password).nextId ∧
      verification.channel < (service.spawn key password).nextId ∧
        verification.generation ≤ (service.spawn key password).state.generation := by
  dsimp only [AuthService.spawn]
  cases AuthService.verifications_spawn hget with
  | inl hnew =>
      obtain ⟨rfl, rfl⟩ := hnew
      exact ⟨by omega, by simp, Nat.le_refl _⟩
  | inr hold =>
      have holder := h.older task verification hold
      exact ⟨by omega, by omega, holder.2.2⟩

theorem PendingSound.single_spawn (h : service.PendingSound inner)
    (hpending : service.state.pending[key]? = none) (task other : Nat)
    (verification verification' : Verification κ)
    (hget : (service.spawn key password).verifications[task]? = some verification)
    (hget' : (service.spawn key password).verifications[other]? = some verification')
    (hgeneration : verification.generation = verification'.generation)
    (hkeys : verification.key = verification'.key) : task = other := by
  cases AuthService.verifications_spawn hget with
  | inl hnew =>
      cases AuthService.verifications_spawn hget' with
      | inl hnew' => exact hnew.1.trans hnew'.1.symm
      | inr hold' =>
          obtain ⟨-, rfl⟩ := hnew
          exact absurd hkeys.symm (h.key_ne hpending hold' hgeneration.symm)
  | inr hold =>
      cases AuthService.verifications_spawn hget' with
      | inl hnew' =>
          obtain ⟨-, rfl⟩ := hnew'
          exact absurd hkeys (h.key_ne hpending hold hgeneration)
      | inr hold' =>
          exact h.single task other verification verification' hold hold' hgeneration hkeys

/-- The channel of a new verification is nobody's yet. -/
theorem PendingSound.channel_spawn (h : service.PendingSound inner) (task other : Nat)
    (verification verification' : Verification κ)
    (hget : (service.spawn key password).verifications[task]? = some verification)
    (hget' : (service.spawn key password).verifications[other]? = some verification')
    (hchannel : verification.channel = verification'.channel) : task = other := by
  cases AuthService.verifications_spawn hget with
  | inl hnew =>
      cases AuthService.verifications_spawn hget' with
      | inl hnew' => exact hnew.1.trans hnew'.1.symm
      | inr hold' =>
          obtain ⟨-, rfl⟩ := hnew
          have hlt := (h.older other verification' hold').2.1
          exact absurd hchannel (Nat.ne_of_gt hlt)
  | inr hold =>
      cases AuthService.verifications_spawn hget' with
      | inl hnew' =>
          obtain ⟨-, rfl⟩ := hnew'
          have hlt := (h.older task verification hold).2.1
          exact absurd hchannel (Nat.ne_of_lt hlt)
      | inr hold' => exact h.channel task other verification verification' hold hold' hchannel

theorem CallsSound.spawn (h : service.CallsSound) (hverifications : service.PendingSound inner) :
    (service.spawn key password).CallsSound := by
  refine ⟨?_, ?_, ?_, ?_⟩
  · intro call waiting hcall
    have hold := h.older call waiting hcall
    dsimp only [AuthService.spawn]
    exact ⟨by omega, by omega, hold.2.2⟩
  · intro call waiting hcall
    have hlt := (h.older call waiting hcall).2.1
    cases h.answered call waiting hcall with
    | inl hanswered =>
        obtain ⟨decision, hdecision⟩ := hanswered
        exact Or.inl ⟨decision, (channels_spawn key password hlt).trans hdecision⟩
    | inr hexpects =>
        obtain ⟨task, verification, hget, hrest⟩ := hexpects
        exact Or.inr ⟨task, verification,
          hverifications.verifications_spawn key password hget, hrest⟩
  · intro call waiting hcall hcurrent
    have hold := h.shared call waiting hcall hcurrent
    refine ⟨hold.1, fun task verification hget hchannel => ?_⟩
    cases AuthService.verifications_spawn hget with
    | inl hnew =>
        obtain ⟨-, rfl⟩ := hnew
        have hlt := (h.older call waiting hcall).2.1
        exact absurd hchannel (Nat.ne_of_gt hlt)
    | inr hget => exact hold.2 task verification hget hchannel
  · intro call waiting hcall hcurrent hallowed
    have hlt := (h.older call waiting hcall).2.1
    exact h.allowed call waiting hcall hcurrent
      ((channels_spawn key password hlt).symm.trans hallowed)

theorem expects_spawn (key : κ) (password : String) :
    (service.spawn key password).Expects service.nextId := by
  refine ⟨service.nextId + 1, ⟨key, _, password, service.state.config.loginPassword, _, false⟩,
    ?_, rfl, rfl⟩
  rw [AuthService.spawn, getElem?_insert_key, if_pos rfl]

variable [LawfulEqOrd κ] [DecidableEq κ]

theorem PendingSound.current_spawn (h : service.PendingSound inner)
    (hkey : key = inner.key (trim service.state.config.loginUser) password)
    (hpending : service.state.pending[key]? = none) (task : Nat) (verification : Verification κ)
    (hget : (service.spawn key password).verifications[task]? = some verification)
    (hgeneration : verification.generation = service.state.generation) :
    verification.storedHash = service.state.config.loginPassword ∧
      verification.key = inner.key (trim service.state.config.loginUser)
        verification.candidate ∧
      (service.spawn key password).state.pending[verification.key]? = some verification.channel ∧
      (service.spawn key password).channels[verification.channel]? = some none := by
  cases AuthService.verifications_spawn hget with
  | inl hnew =>
      obtain ⟨rfl, rfl⟩ := hnew
      refine ⟨rfl, hkey, ?_, ?_⟩
      · rw [AuthService.spawn, getElem?_insert_key, if_pos rfl]
      · rw [AuthService.spawn, getElem?_insert_key, if_pos rfl]
  | inr hold =>
      have hcurrent := h.current task verification hold hgeneration
      refine ⟨hcurrent.1, hcurrent.2.1, ?_, ?_⟩
      · rw [AuthService.spawn, getElem?_insert_key,
          if_neg (Ne.symm (h.key_ne hpending hold hgeneration))]
        exact hcurrent.2.2.1
      · rw [channels_spawn key password (h.older task verification hold).2.1]
        exact hcurrent.2.2.2

theorem PendingSound.pending_spawn (h : service.PendingSound inner) (pendingKey : κ)
    (channel : Nat)
    (hget : (service.spawn key password).state.pending[pendingKey]? = some channel) :
    ∃ (task : Nat) (verification : Verification κ),
      (service.spawn key password).verifications[task]? = some verification ∧
        verification.generation = service.state.generation ∧ verification.key = pendingKey ∧
        verification.channel = channel := by
  rw [AuthService.spawn] at hget
  dsimp only at hget
  rw [getElem?_insert_key] at hget
  split at hget
  · next heq =>
      cases hget
      refine ⟨service.nextId + 1, ⟨key, _, password, service.state.config.loginPassword, _, false⟩,
        ?_, rfl, heq, rfl⟩
      rw [AuthService.spawn, getElem?_insert_key, if_pos rfl]
  · obtain ⟨task, verification, hold, hrest⟩ := h.pending pendingKey channel hget
    exact ⟨task, verification, h.verifications_spawn key password hold, hrest⟩

theorem Sound.spawn (h : service.Sound inner)
    (hpending : service.state.pending[inner.key (trim service.state.config.loginUser) password]? =
      none)
    (hroom : service.state.pending.size < maxPending) :
    (service.spawn (inner.key (trim service.state.config.loginUser) password) password).Sound
      inner where
  cache := ⟨h.cache.cached, h.cache.accepted, h.cache.size, h.cache.answers⟩
  verifications :=
    { older := h.verifications.older_spawn
      current := h.verifications.current_spawn rfl hpending
      pending := h.verifications.pending_spawn
      single := h.verifications.single_spawn hpending
      channel := h.verifications.channel_spawn
      size := (ExtTreeMap.size_insert_le).trans hroom }
  calls := h.calls.spawn h.verifications

/-- The answer of a cache entry that is not too old. -/
theorem Sound.lookUp (h : service.Sound inner) (password : String) :
    (service.lookUp inner (trim service.state.config.loginUser) password).Sound inner := by
  have hkept : ∀ (key : κ) (entry : CacheEntry),
      (service.state.cache.filter fun _ entry =>
        service.clock - entry.verifiedAt < cacheTtl)[key]? = some entry →
        service.state.cache[key]? = some entry ∧ service.clock - entry.verifiedAt < cacheTtl := by
    intro key entry hentry
    rw [ExtTreeMap.getElem?_filter', Option.filter_eq_some_iff, decide_eq_true_eq] at hentry
    exact hentry
  have hsize : (service.state.cache.filter fun _ entry =>
      service.clock - entry.verifiedAt < cacheTtl).size ≤ service.state.cache.size :=
    ExtTreeMap.size_filter_le_size
  rw [AuthService.lookUp]
  dsimp only
  generalize (service.state.cache.filter fun _ entry =>
    service.clock - entry.verifiedAt < cacheTtl) = cache at hkept hsize ⊢
  generalize (service.state.accessCounter + 1) % 2 ^ 64 = lastAccess
  have htouched := h.touch hsize (fun key entry hentry => ⟨entry, (hkept key entry hentry).1, rfl⟩)
    lastAccess
  split
  · next entry hentry =>
      obtain ⟨hold, hfresh⟩ := hkept _ entry hentry
      have hused : Sound inner { service with
          state := { service.state with
            cache := cache.insert (inner.key (trim service.state.config.loginUser) password)
              { entry with lastAccess := lastAccess }
            accessCounter := lastAccess } } := by
        refine h.touch (le_trans ?_ hsize) ?_ lastAccess
        · rw [ExtTreeMap.size_insert, if_pos]
          rw [ExtTreeMap.contains_eq_isSome_getElem?, hentry]
          rfl
        · intro key other hother
          rw [getElem?_insert_key] at hother
          split at hother
          · next heq =>
              cases hother
              exact ⟨entry, heq ▸ hold, rfl⟩
          · exact ⟨other, (hkept key other hother).1, rfl⟩
      refine hused.answer _ _ _ fun _ _ => ⟨password, rfl, ?_⟩
      obtain ⟨acceptance, hmem, verified, hkey, hforce, htime⟩ := h.cache.cached _ entry hold
      have hpast := (h.cache.accepted acceptance hmem).2
      rw [← inner.key_inj hkey] at hforce
      refine ⟨acceptance, hmem, hforce.1, hforce.2.1, hforce.2.2, hpast, fun _ => ?_⟩
      dsimp only
      omega
  · split
    · next channel hchannel =>
        obtain ⟨task, verification, hget, hgeneration, hkey, rfl⟩ :=
          h.verifications.pending _ channel hchannel
        refine htouched.subscribe ⟨task, verification, hget, rfl, hgeneration⟩ ?_
        intro other verification' hget' hsame
        have hother := h.verifications.channel other task verification' verification
            hget' hget hsame
        rw [hother, hget] at hget'
        cases hget'
        have hcurrent := (h.verifications.current task verification hget hgeneration).2.1
        exact inner.key_inj (hcurrent.symm.trans hkey)
    · next hnone =>
        split
        · exact htouched.refuse _ AuthDecision.noConfusion _
        · next hroom =>
            have hspawned := htouched.spawn hnone (Nat.lt_of_not_le hroom)
            refine hspawned.subscribe (expects_spawn _ _) fun task verification hget hchannel => ?_
            rw [AuthService.spawn, getElem?_insert_key] at hget
            split at hget
            · cases hget
              rfl
            · have hlt := (h.verifications.older task verification hget).2.1
              exact absurd hchannel (Nat.ne_of_lt hlt)

theorem Sound.authorize (h : service.Sound inner) (authorization : Option (List UInt8)) :
    (service.authorize inner authorization).Sound inner := by
  rw [AuthService.authorize]
  split
  · next hdisabled =>
      refine h.answer _ _ _ fun _ henabled => ?_
      dsimp only at henabled
      rw [henabled] at hdisabled
      cases hdisabled
  · split
    · exact h.refuse _ AuthDecision.noConfusion _
    · next username password _ =>
        split
        · exact h.refuse _ AuthDecision.noConfusion _
        · next huser =>
            rw [not_not.mp huser]
            exact h.lookUp password

end Spawn

omit [TransOrd κ] in
/-- What is left when a verification is over. -/
theorem mem_erased {task other : Nat} {verification : Verification κ}
    (h : (service.verifications.erase task)[other]? = some verification) :
    service.verifications[other]? = some verification ∧ task ≠ other := by
  rw [getElem?_erase_key] at h
  split at h
  · cases h
  · next hne => exact ⟨h, hne⟩

/-- A verification is over, and its channel has a value. Of the keys that were pending one may
go: its own, in the generation it began in. -/
theorem Sound.over (h : service.Sound inner) {task : Nat} {verification : Verification κ}
    (hget : service.verifications[task]? = some verification) {pending : ExtTreeMap κ Nat}
    (hkept : ∀ (other : Nat) (verification' : Verification κ),
      service.verifications[other]? = some verification' → task ≠ other →
        verification'.generation = service.state.generation →
          pending[verification'.key]? = service.state.pending[verification'.key]?)
    (hpending : ∀ (key : κ) (channel : Nat), pending[key]? = some channel →
      service.state.pending[key]? = some channel ∧
        (verification.generation = service.state.generation → verification.key ≠ key))
    (hsize : pending.size ≤ maxPending) (decision : AuthDecision)
    (haccepted : decision = .allowed →
      ∃ acceptance ∈ service.accepted, service.InForce verification.candidate acceptance) :
    Sound inner (send
      { service with
        state := { service.state with pending := pending }
        verifications := service.verifications.erase task } verification.channel decision) := by
  have hback : ∀ (other : Nat) (verification' : Verification κ),
      service.verifications[other]? = some verification' → verification' ≠ verification →
        (service.verifications.erase task)[other]? = some verification' := by
    intro other verification' hother hne
    rw [getElem?_erase_key, if_neg, hother]
    intro heq
    rw [← heq, hget] at hother
    cases hother
    exact hne rfl
  refine ⟨⟨h.cache.cached, h.cache.accepted, h.cache.size, h.cache.answers⟩,
    ⟨?_, ?_, ?_, ?_, ?_, hsize⟩, ⟨h.calls.older, ?_, ?_, ?_⟩⟩
  · intro other verification' hother
    exact h.verifications.older other verification' (mem_erased hother).1
  · intro other verification' hother hgeneration
    obtain ⟨hold, hne⟩ := mem_erased hother
    have hcurrent := h.verifications.current other verification' hold hgeneration
    refine ⟨hcurrent.1, hcurrent.2.1, ?_, ?_⟩
    · exact (hkept other verification' hold hne hgeneration).trans hcurrent.2.2.1
    · dsimp only [send]
      rw [getElem?_insert_key, if_neg]
      · exact hcurrent.2.2.2
      · intro hchannel
        exact hne (h.verifications.channel task other _ _ hget hold hchannel)
  · intro key channel hsome
    obtain ⟨hold, hother⟩ := hpending key channel hsome
    obtain ⟨other, verification', hget', hgeneration, hkey, hchannel⟩ :=
      h.verifications.pending key channel hold
    refine ⟨other, verification', hback other verification' hget' ?_, hgeneration, hkey, hchannel⟩
    intro heq
    rw [heq] at hgeneration hkey
    exact hother hgeneration hkey
  · intro first second _ _ hfirst hsecond
    exact h.verifications.single first second _ _ (mem_erased hfirst).1 (mem_erased hsecond).1
  · intro first second _ _ hfirst hsecond
    exact h.verifications.channel first second _ _ (mem_erased hfirst).1 (mem_erased hsecond).1
  · intro call waiting hcall
    dsimp only [send, Answered]
    rw [getElem?_insert_key]
    split
    · exact Or.inl ⟨decision, rfl⟩
    · next hne =>
        cases h.calls.answered call waiting hcall with
        | inl hanswered => exact Or.inl hanswered
        | inr hexpects =>
            obtain ⟨other, verification', hother, hchannel, hgeneration⟩ := hexpects
            refine Or.inr ⟨other, verification', hback other verification' hother ?_, hchannel,
              hgeneration⟩
            intro heq
            rw [heq] at hchannel
            exact hne hchannel
  · intro call waiting hcall hcurrent
    have hold := h.calls.shared call waiting hcall hcurrent
    exact ⟨hold.1, fun other verification' hother =>
      hold.2 other verification' (mem_erased hother).1⟩
  · intro call waiting hcall hcurrent hallowed
    dsimp only [send] at hallowed
    rw [getElem?_insert_key] at hallowed
    split at hallowed
    · next hchannel =>
        obtain ⟨acceptance, hmem, hforce⟩ :=
          haccepted (Option.some.inj (Option.some.inj hallowed))
        have hsame := (h.calls.shared call waiting hcall hcurrent).2 task verification hget hchannel
        rw [hsame] at hforce
        exact ⟨acceptance, hmem, hforce⟩
    · exact h.calls.allowed call waiting hcall hcurrent hallowed

/-- A verification of an older generation is over: its own channel is all it touches. -/
theorem Sound.dismiss (h : service.Sound inner) {task : Nat} {verification : Verification κ}
    (hget : service.verifications[task]? = some verification)
    (hstale : service.state.generation ≠ verification.generation) :
    Sound inner (send { service with verifications := service.verifications.erase task }
      verification.channel .unauthorized) :=
  h.over hget (fun _ _ _ _ _ => rfl)
    (fun _ _ hold => ⟨hold, fun hgeneration => absurd hgeneration.symm hstale⟩)
    h.verifications.size .unauthorized fun hallowed => by cases hallowed

/-- A verification that starts is the one it was. -/
theorem Sound.put_started (h : service.Sound inner) {task : Nat} {verification : Verification κ}
    (hget : service.verifications[task]? = some verification) :
    Sound inner { service with
      verifications := service.verifications.insert task
        { verification with started := true } } := by
  have hsame : ∀ (other : Nat) (verification' : Verification κ),
      (service.verifications.insert task { verification with started := true })[other]? =
        some verification' → ∃ started, service.verifications[other]? =
          some { verification' with started := started } := by
    intro other verification' hother
    rw [getElem?_insert_key] at hother
    split at hother
    · next heq =>
        cases hother
        exact ⟨verification.started, heq ▸ hget⟩
    · exact ⟨verification'.started, hother⟩
  have hback : ∀ (other : Nat) (verification' : Verification κ),
      service.verifications[other]? = some verification' → ∃ started,
        (service.verifications.insert task { verification with started := true })[other]? =
          some { verification' with started := started } := by
    intro other verification' hother
    rw [getElem?_insert_key]
    split
    · next heq =>
        rw [← heq, hget] at hother
        cases hother
        exact ⟨true, rfl⟩
    · exact ⟨verification'.started, hother⟩
  refine ⟨⟨h.cache.cached, h.cache.accepted, h.cache.size, h.cache.answers⟩,
    ⟨?_, ?_, ?_, ?_, ?_, h.verifications.size⟩, ⟨h.calls.older, ?_, ?_, h.calls.allowed⟩⟩
  · intro other verification' hother
    obtain ⟨started, hold⟩ := hsame other verification' hother
    have holder := h.verifications.older other _ hold
    exact holder
  · intro other verification' hother
    obtain ⟨started, hold⟩ := hsame other verification' hother
    have hcurrent := h.verifications.current other _ hold
    exact hcurrent
  · intro key channel hpending
    obtain ⟨other, verification', hother, hrest⟩ := h.verifications.pending key channel hpending
    obtain ⟨started, hnew⟩ := hback other verification' hother
    exact ⟨other, _, hnew, hrest⟩
  · intro first second _ _ hfirst hsecond
    obtain ⟨_, hfirst⟩ := hsame first _ hfirst
    obtain ⟨_, hsecond⟩ := hsame second _ hsecond
    have hsingle := h.verifications.single first second _ _ hfirst hsecond
    exact hsingle
  · intro first second _ _ hfirst hsecond
    obtain ⟨_, hfirst⟩ := hsame first _ hfirst
    obtain ⟨_, hsecond⟩ := hsame second _ hsecond
    have hchannel := h.verifications.channel first second _ _ hfirst hsecond
    exact hchannel
  · intro call waiting hcall
    cases h.calls.answered call waiting hcall with
    | inl hanswered => exact Or.inl hanswered
    | inr hexpects =>
        obtain ⟨other, verification', hother, hrest⟩ := hexpects
        obtain ⟨started, hnew⟩ := hback other verification' hother
        exact Or.inr ⟨other, _, hnew, hrest⟩
  · intro call waiting hcall hcurrent
    have hold := h.calls.shared call waiting hcall hcurrent
    refine ⟨hold.1, fun other verification' hother hchannel => ?_⟩
    obtain ⟨started, hother⟩ := hsame other verification' hother
    have hcandidate := hold.2 other _ hother hchannel
    exact hcandidate

theorem Sound.start (h : service.Sound inner) (task : Nat) : (service.start task).Sound inner := by
  rw [AuthService.start]
  split
  · next verification hget =>
      split
      · exact h
      · split
        · next hstale => exact h.dismiss hget hstale
        · exact h.put_started hget
  · exact h

/-- One more password the verifier accepted. -/
theorem Sound.accept (h : service.Sound inner) {acceptance : Acceptance}
    (hvalid : inner.verifier acceptance.candidate acceptance.storedHash = true)
    (htime : acceptance.time = service.clock) :
    Sound inner { service with accepted := acceptance :: service.accepted } where
  cache :=
    { cached := by
        intro key entry hentry
        obtain ⟨old, hmem, hrest⟩ := h.cache.cached key entry hentry
        exact ⟨old, List.mem_cons_of_mem acceptance hmem, hrest⟩
      accepted := List.forall_mem_cons.mpr ⟨⟨hvalid, Nat.le_of_eq htime⟩, h.cache.accepted⟩
      size := h.cache.size
      answers := fun answer hanswer =>
        (h.cache.answers answer hanswer).mono (List.subset_cons_self acceptance _) }
  verifications := ⟨h.verifications.older, h.verifications.current, h.verifications.pending,
    h.verifications.single, h.verifications.channel, h.verifications.size⟩
  calls :=
    { older := h.calls.older
      answered := h.calls.answered
      shared := h.calls.shared
      allowed := by
        intro call waiting hcall hcurrent hallowed
        obtain ⟨old, hmem, hforce⟩ := h.calls.allowed call waiting hcall hcurrent hallowed
        exact ⟨old, List.mem_cons_of_mem acceptance hmem, hforce⟩ }

section Complete

variable [LawfulEqOrd κ]

/-- A full cache has an entry that was used least lately. -/
theorem size_evict {cache : ExtTreeMap κ CacheEntry} (h : cache.size ≤ cacheCapacity) :
    (inner.evict cache).size < cacheCapacity := by
  rw [AuthInner.evict]
  split
  · next hfull =>
      cases hleast : (inner.iter cache).argmin fun entry => entry.2.lastAccess with
      | none =>
          have hempty := (inner.iter_perm cache).length_eq
          rw [List.argmin_eq_none.mp hleast, ExtTreeMap.length_toList, List.length_nil] at hempty
          rw [← hempty] at hfull
          exact absurd hfull (by decide)
      | some least =>
          have hmem := (inner.iter_perm cache).mem_iff.mp (List.argmin_mem hleast)
          have hget := ExtTreeMap.mem_toList_iff_getElem?_eq_some.mp hmem
          rw [AuthInner.oldest, hleast, Option.map_some, Option.elim_some, ExtTreeMap.size_erase,
            if_pos]
          · exact Nat.lt_of_lt_of_le
              (Nat.sub_lt (Nat.lt_of_lt_of_le (by decide) hfull) Nat.one_pos) h
          · rw [ExtTreeMap.contains_eq_isSome_getElem?, hget]
            rfl
  · next hroom => exact Nat.lt_of_not_le hroom

variable [DecidableEq κ]

theorem getElem?_evict {cache : ExtTreeMap κ CacheEntry} {key : κ} {entry : CacheEntry}
    (h : (inner.evict cache)[key]? = some entry) : cache[key]? = some entry := by
  rw [AuthInner.evict] at h
  split at h
  · cases holdest : inner.oldest cache with
    | none =>
        rw [holdest] at h
        exact h
    | some oldest =>
        rw [holdest, Option.elim_some, getElem?_erase_key] at h
        split at h
        · cases h
        · exact h
  · exact h

/-- A password that was accepted is kept in the cache. -/
theorem Sound.remember (h : service.Sound inner) (password : String) {acceptance : Acceptance}
    (hmem : acceptance ∈ service.accepted) (hforce : service.InForce password acceptance)
    (lastAccess : Nat) :
    Sound inner { service with
      state := { service.state with
        cache := (inner.evict service.state.cache).insert
          (inner.key (trim service.state.config.loginUser) password)
          { verifiedAt := acceptance.time, lastAccess := lastAccess } } } where
  cache :=
    { cached := by
        intro key entry hentry
        rw [getElem?_insert_key] at hentry
        split at hentry
        · next heq =>
            cases hentry
            exact ⟨acceptance, hmem, password, heq.symm, hforce, rfl⟩
        · exact h.cache.cached key entry (getElem?_evict hentry)
      accepted := h.cache.accepted
      size := (ExtTreeMap.size_insert_le).trans (size_evict h.cache.size)
      answers := h.cache.answers }
  verifications := ⟨h.verifications.older, h.verifications.current, h.verifications.pending,
    h.verifications.single, h.verifications.channel, h.verifications.size⟩
  calls := ⟨h.calls.older, h.calls.answered, h.calls.shared, h.calls.allowed⟩

/-- A verification is over in the generation it began in: it is pending no more, and its channel
has a value. -/
theorem Sound.finish (h : service.Sound inner) {task : Nat} {verification : Verification κ}
    (hget : service.verifications[task]? = some verification)
    (hgeneration : verification.generation = service.state.generation) (decision : AuthDecision)
    (haccepted : decision = .allowed →
      ∃ acceptance ∈ service.accepted, service.InForce verification.candidate acceptance) :
    Sound inner (send
      { service with
        state := { service.state with pending := service.state.pending.erase verification.key }
        verifications := service.verifications.erase task } verification.channel decision) := by
  refine h.over hget ?_ ?_ ((ExtTreeMap.size_erase_le).trans h.verifications.size)
    decision haccepted
  · intro other verification' hother hne hgeneration'
    rw [getElem?_erase_key, if_neg]
    intro hkey
    exact hne (h.verifications.single task other _ _ hget hother
      (hgeneration.trans hgeneration'.symm) hkey)
  · intro key channel hpending
    rw [getElem?_erase_key] at hpending
    split at hpending
    · cases hpending
    · next hne => exact ⟨hpending, fun _ => hne⟩

theorem Sound.complete (h : service.Sound inner) (task : Nat) (panics : Bool) :
    (service.complete inner task panics).Sound inner := by
  rw [AuthService.complete]
  split
  · next verification hget =>
      split
      · dsimp only
        generalize hdecision : (if panics = true then AuthDecision.failed
          else if inner.verifier verification.candidate verification.storedHash = true then .allowed
          else .unauthorized) = decision
        by_cases hallowed : decision = .allowed
        · have hvalid : inner.verifier verification.candidate verification.storedHash = true := by
            rw [hallowed] at hdecision
            split at hdecision
            · cases hdecision
            · split at hdecision
              · next hvalid => exact hvalid
              · cases hdecision
          rw [if_pos hallowed]
          have haccept : Sound inner { service with
              accepted :=
                { candidate := verification.candidate, storedHash := verification.storedHash,
                  generation := verification.generation, time := service.clock }
                    :: service.accepted } := h.accept hvalid rfl
          split
          · next hstale => exact haccept.dismiss hget hstale
          · next hcurrent =>
              have hgeneration := (not_not.mp hcurrent).symm
              have hmine := h.verifications.current task verification hget hgeneration
              have hfinish := haccept.finish hget hgeneration .allowed fun _ =>
                ⟨_, List.mem_cons_self, rfl, hmine.1, hgeneration⟩
              rw [settle, hallowed, if_pos rfl, hmine.2.1]
              rw [hmine.2.1] at hfinish
              exact hfinish.remember verification.candidate List.mem_cons_self
                ⟨rfl, hmine.1, hgeneration⟩ service.state.accessCounter
        · rw [if_neg hallowed]
          split
          · next hstale => exact h.dismiss hget hstale
          · next hcurrent =>
              rw [settle, if_neg hallowed]
              exact h.finish hget (not_not.mp hcurrent).symm decision fun hallowed' =>
                absurd hallowed' hallowed
      · exact h
  · exact h

end Complete

/-- A call that returns, or is dropped. -/
theorem Sound.dropCall (h : service.Sound inner) (call : Nat) :
    Sound inner { service with calls := service.calls.erase call } := by
  have hsub : ∀ (other : Nat) (waiting : Waiting),
      (service.calls.erase call)[other]? = some waiting → service.calls[other]? = some waiting := by
    intro other waiting hother
    rw [getElem?_erase_key] at hother
    split at hother
    · cases hother
    · exact hother
  exact ⟨⟨h.cache.cached, h.cache.accepted, h.cache.size, h.cache.answers⟩,
    ⟨h.verifications.older, h.verifications.current, h.verifications.pending,
      h.verifications.single, h.verifications.channel, h.verifications.size⟩,
    ⟨fun other waiting hother => h.calls.older other waiting (hsub other waiting hother),
      fun other waiting hother => h.calls.answered other waiting (hsub other waiting hother),
      fun other waiting hother => h.calls.shared other waiting (hsub other waiting hother),
      fun other waiting hother => h.calls.allowed other waiting (hsub other waiting hother)⟩⟩

/-- The answer of a channel counts in its own generation only. -/
theorem Sound.wake (h : service.Sound inner) (call : Nat) : (service.wake call).Sound inner := by
  rw [AuthService.wake]
  split
  · next waiting hcall =>
      split
      · next decision hdecision =>
          refine (h.dropCall call).answer _ _ _ fun hallowed _ => ?_
          dsimp only at hallowed ⊢
          split at hallowed
          · cases hallowed
          · next hcurrent =>
              have hgeneration := (not_not.mp hcurrent).symm
              rw [hallowed] at hdecision
              obtain ⟨acceptance, hmem, hforce⟩ :=
                h.calls.allowed call waiting hcall hgeneration hdecision
              have huser := (h.calls.shared call waiting hcall hgeneration).1
              refine ⟨waiting.password, by rw [huser], acceptance, hmem, hforce.1, hforce.2.1,
                hforce.2.2, (h.cache.accepted acceptance hmem).2, fun hcached => ?_⟩
              cases hcached
      · exact h
  · exact h

theorem Sound.advance (h : service.Sound inner) (elapsed : Nat) :
    (service.advance elapsed).Sound inner where
  cache :=
    { cached := h.cache.cached
      accepted := fun acceptance hmem =>
        ⟨(h.cache.accepted acceptance hmem).1,
          Nat.le_add_right_of_le (h.cache.accepted acceptance hmem).2⟩
      size := h.cache.size
      answers := h.cache.answers }
  verifications := ⟨h.verifications.older, h.verifications.current, h.verifications.pending,
    h.verifications.single, h.verifications.channel, h.verifications.size⟩
  calls := ⟨h.calls.older, h.calls.answered, h.calls.shared, h.calls.allowed⟩

theorem sound_new (inner : AuthInner κ) (config : AuthConfig) : (new config).Sound inner where
  cache :=
    { cached := fun _ _ hentry => by simp [new] at hentry
      accepted := List.forall_mem_nil _
      size := by simp [new]
      answers := List.forall_mem_nil _ }
  verifications :=
    { older := fun _ _ hget => by simp [new] at hget
      current := fun _ _ hget => by simp [new] at hget
      pending := fun _ _ hget => by simp [new] at hget
      single := fun _ _ _ _ hget => by simp [new] at hget
      channel := fun _ _ _ _ hget => by simp [new] at hget
      size := by simp [new] }
  calls :=
    { older := fun _ _ hcall => by simp [new] at hcall
      answered := fun _ _ hcall => by simp [new] at hcall
      shared := fun _ _ hcall => by simp [new] at hcall
      allowed := fun _ _ hcall => by simp [new] at hcall }

variable [LawfulEqOrd κ]

theorem isPending_iff (channel : Nat) :
    service.isPending channel = true ↔ ∃ key : κ, service.state.pending[key]? = some channel := by
  rw [isPending, List.any_eq_true]
  constructor
  · rintro ⟨⟨key, other⟩, hmem, heq⟩
    rw [← beq_iff_eq.mp heq]
    exact ⟨key, ExtTreeMap.mem_toList_iff_getElem?_eq_some.mp hmem⟩
  · rintro ⟨key, hget⟩
    exact ⟨(key, channel), ExtTreeMap.mem_toList_iff_getElem?_eq_some.mpr hget,
      beq_self_eq_true channel⟩

/-- New credentials: what was pending is answered, and nothing is cached. -/
theorem Sound.replaceConfig (h : service.Sound inner) (config : AuthConfig) :
    (service.replaceConfig config).Sound inner := by
  rw [AuthService.replaceConfig]
  split
  · have holder : ∀ (task : Nat) (verification : Verification κ),
        service.verifications[task]? = some verification →
          verification.generation ≠ service.state.generation + 1 := by
      intro task verification hget
      exact Nat.ne_of_lt (Nat.lt_succ_of_le (h.verifications.older task verification hget).2.2)
    have hnewer : ∀ (call : Nat) (waiting : Waiting), service.calls[call]? = some waiting →
        waiting.generation ≠ service.state.generation + 1 := by
      intro call waiting hcall
      exact Nat.ne_of_lt (Nat.lt_succ_of_le (h.calls.older call waiting hcall).2.2)
    refine ⟨⟨?_, h.cache.accepted, ?_, h.cache.answers⟩,
      ⟨?_, ?_, ?_, h.verifications.single, h.verifications.channel, ?_⟩, ⟨?_, ?_, ?_, ?_⟩⟩
    · intro key entry hentry
      simp at hentry
    · simp
    · intro task verification hget
      have hold := h.verifications.older task verification hget
      exact ⟨hold.1, hold.2.1, Nat.le_succ_of_le hold.2.2⟩
    · intro task verification hget hgeneration
      exact absurd hgeneration (holder task verification hget)
    · intro key channel hpending
      simp at hpending
    · simp
    · intro call waiting hcall
      have hold := h.calls.older call waiting hcall
      exact ⟨hold.1, hold.2.1, Nat.le_succ_of_le hold.2.2⟩
    · intro call waiting hcall
      refine Or.inl ?_
      dsimp only [Answered]
      rw [ExtTreeMap.getElem?_map]
      cases h.calls.answered call waiting hcall with
      | inl hanswered =>
          obtain ⟨decision, hdecision⟩ := hanswered
          rw [hdecision, Option.map_some]
          split
          · exact ⟨.unauthorized, rfl⟩
          · exact ⟨decision, rfl⟩
      | inr hexpects =>
          obtain ⟨task, verification, hget, hchannel, hgeneration⟩ := hexpects
          have hcurrent := (h.verifications.current task verification hget hgeneration).2.2
          rw [hchannel] at hcurrent
          rw [hcurrent.2, Option.map_some, if_pos]
          · exact ⟨.unauthorized, rfl⟩
          · exact (isPending_iff waiting.channel).mpr ⟨verification.key, hcurrent.1⟩
    · intro call waiting hcall hgeneration
      exact absurd hgeneration (hnewer call waiting hcall)
    · intro call waiting hcall hgeneration
      exact absurd hgeneration (hnewer call waiting hcall)
  · next hsame =>
      have hcredentials : trim config.loginUser = trim service.state.config.loginUser ∧
          config.loginPassword = service.state.config.loginPassword := by
        rw [credentialsChanged, Bool.not_eq_true, Bool.or_eq_false_iff, bne_eq_false_iff_eq,
          bne_eq_false_iff_eq] at hsame
        exact ⟨hsame.1.symm, hsame.2.symm⟩
      refine ⟨⟨?_, h.cache.accepted, h.cache.size, h.cache.answers⟩,
        ⟨h.verifications.older, ?_, h.verifications.pending, h.verifications.single,
          h.verifications.channel, h.verifications.size⟩,
        ⟨h.calls.older, h.calls.answered, ?_, ?_⟩⟩
      · simpa only [InForce, hcredentials.1, hcredentials.2] using h.cache.cached
      · simpa only [hcredentials.1, hcredentials.2] using h.verifications.current
      · simpa only [hcredentials.1] using h.calls.shared
      · simpa only [InForce, hcredentials.2] using h.calls.allowed

/-- What the service promises in every state it comes to. -/
structure Safe (inner : AuthInner κ) (service : AuthService κ) : Prop where
  /-- Who is let in while authentication is enabled has a password that the verifier accepted for
  the hash in force, in the generation in force, and lately enough when the cache said so. -/
  allowed : ∀ answer ∈ service.answers, answer.decision = .allowed →
    isAuthEnabled answer.config = true →
      ∃ password, answer.credentials = some (trim answer.config.loginUser, password) ∧
        inner.verifier password answer.config.loginPassword = true ∧
        ∃ acceptance ∈ service.accepted, acceptance.candidate = password ∧
          acceptance.storedHash = answer.config.loginPassword ∧
          acceptance.generation = answer.generation ∧ acceptance.time ≤ answer.time ∧
          (answer.cached = true → answer.time < acceptance.time + cacheTtl)
  /-- A verification of an older generation changes neither the cache nor what is pending. -/
  stale : ∀ (task : Nat) (verification : Verification κ),
    service.verifications[task]? = some verification →
      verification.generation ≠ service.state.generation →
        (service.start task).state = service.state ∧
          ∀ panics, (service.complete inner task panics).state = service.state
  /-- A generation and a key have at most one verification that is not over. -/
  single : ∀ (task other : Nat) (verification verification' : Verification κ),
    service.verifications[task]? = some verification →
      service.verifications[other]? = some verification' →
        verification.generation = verification'.generation →
          verification.key = verification'.key → task = other
  /-- A call without an answer waits for a verification in the generation in force. -/
  waiting : ∀ (call : Nat) (waiting : Waiting), service.calls[call]? = some waiting →
    service.Answered waiting.channel ∨ service.Expects waiting.channel
  /-- It has its answer once that verification is over. -/
  completed : ∀ (task : Nat) (verification : Verification κ) (panics : Bool),
    service.verifications[task]? = some verification → verification.started = true →
      (service.complete inner task panics).Answered verification.channel
  /-- All calls have their answer once the credentials are replaced. -/
  replaced : ∀ (config : AuthConfig) (call : Nat) (waiting : Waiting),
    credentialsChanged service.state.config config = true →
      service.calls[call]? = some waiting →
        (service.replaceConfig config).Answered waiting.channel
  capacity : service.state.cache.size ≤ cacheCapacity ∧ service.state.pending.size ≤ maxPending

omit [TransOrd κ] [LawfulEqOrd κ] in
theorem answered_send (channel : Nat) (decision : AuthDecision) :
    (service.send channel decision).Answered channel := by
  refine ⟨decision, ?_⟩
  rw [send, getElem?_insert_key, if_pos rfl]

theorem Sound.safe (h : service.Sound inner) : Safe inner service where
  allowed answer hmem hallowed henabled := by
    obtain ⟨password, hcredentials, acceptance, haccepted, hcandidate, hhash, hrest⟩ :=
      h.cache.answers answer hmem hallowed henabled
    have hvalid := (h.cache.accepted acceptance haccepted).1
    rw [hcandidate, hhash] at hvalid
    exact ⟨password, hcredentials, hvalid, acceptance, haccepted, hcandidate, hhash, hrest⟩
  stale task verification hget hstale := by
    refine ⟨?_, fun panics => ?_⟩
    · rw [AuthService.start, hget]
      dsimp only
      split
      · rfl
      · rw [if_pos hstale.symm]
        rfl
    · rw [AuthService.complete, hget]
      dsimp only
      split
      · rw [if_pos hstale.symm]
        rfl
      · rfl
  single := h.verifications.single
  waiting := h.calls.answered
  completed task verification panics hget hstarted := by
    rw [AuthService.complete, hget]
    dsimp only
    rw [if_pos hstarted]
    split
    · exact answered_send _ _
    · exact answered_send _ _
  replaced config call waiting hchanged hcall := by
    have hlater := (h.replaceConfig config).calls.answered call waiting
    rw [AuthService.replaceConfig, if_pos hchanged] at hlater ⊢
    cases hlater hcall with
    | inl hanswered => exact hanswered
    | inr hexpects =>
        obtain ⟨task, verification, hget, -, hgeneration⟩ := hexpects
        have hold := (h.verifications.older task verification hget).2.2
        dsimp only at hgeneration
        omega
  capacity := ⟨h.cache.size, h.verifications.size⟩

variable [DecidableEq κ]

theorem Sound.step (h : service.Sound inner) (action : AuthAction) :
    (service.step inner action).Sound inner := by
  cases action with
  | authorize authorization => exact h.authorize authorization
  | start task => exact h.start task
  | complete task panics => exact h.complete task panics
  | wake call => exact h.wake call
  | cancel call => exact h.dropCall call
  | replaceConfig config => exact h.replaceConfig config
  | advance elapsed => exact h.advance elapsed

theorem sound_run (inner : AuthInner κ) (config : AuthConfig) (actions : List AuthAction) :
    ((new config).run inner actions).Sound inner :=
  Runs.invariant_run_of_forall (Sound inner) (fun _ action hsound => hsound.step action)
    (sound_new inner config) actions

/-- Whatever the order of calls, verifications, new configurations and time, the service is safe
throughout. -/
theorem safe_run (inner : AuthInner κ) (config : AuthConfig) (actions : List AuthAction) :
    Safe inner ((new config).run inner actions) :=
  (sound_run inner config actions).safe

end AuthService

/-- A service whose keyed hash is the identity, and which knows one header and one password. -/
def plainInner : AuthInner (List UInt8) where
  mac := id
  mac_injective := Function.injective_id
  decodeBase64 encoded :=
    if encoded = "Z3JlZzpzZWNyZXQ=" then some (Utf8.encode "greg:secret".toList) else none
  verifier candidate storedHash := candidate == "secret" && storedHash == "hash"
  iter cache := cache.toList
  iter_perm _ := List.Perm.refl _

def gregHeader : List UInt8 := Utf8.encode "Basic Z3JlZzpzZWNyZXQ=".toList

/-- A call that has its password verified, and one that is answered from the cache. -/
def gregActions : List AuthAction :=
  [.authorize (some gregHeader), .start 1, .complete 1 false, .wake 2, .advance 5,
    .authorize (some gregHeader)]

namespace AuthService

theorem safe_run_greg :
    Safe plainInner ((new ⟨" greg", "hash"⟩).run plainInner gregActions) ∧
      (((new ⟨" greg", "hash"⟩).run plainInner gregActions).answers.map fun answer =>
        (answer.decision, answer.cached, answer.time)) =
          [(.allowed, true, 5), (.allowed, false, 0)] :=
  ⟨safe_run plainInner ⟨" greg", "hash"⟩ gregActions, by decide +kernel⟩

end AuthService

end Log73.Auth
