import Log73.RadioIo.RadioRegistry

/-! A radio is used or changed, and every use is given back. -/

namespace Log73.RadioIo

open TreeMap
open Std (ExtTreeMap)

variable {Settings : Type}

/-- A slot of the registry with its permit and the sessions of the radio: users are sessions, a
reservation has a permit and no users, and the sessions have the configuration. -/
structure Fits (slot : Option (RegisteredRadio Settings)) (permitted : Prop)
    (sessions : List (RadioSession Settings)) : Prop where
  reserved : permitted ↔ ∃ radio, slot = some radio ∧ radio.mutationReserved = true
  idle : ∀ radio, slot = some radio → radio.mutationReserved = true → radio.users = 0
  counted : slot.elim 0 RegisteredRadio.users = sessions.length
  configured : ∀ session ∈ sessions, ∃ radio, slot = some radio ∧ radio.config = session.config

namespace Fits

variable {radio : RegisteredRadio Settings} {permitted : Prop}
  {sessions : List (RadioSession Settings)} {session : RadioSession Settings}

theorem congr {slot slot' : Option (RegisteredRadio Settings)} {permitted' : Prop}
    {sessions' : List (RadioSession Settings)} (h : Fits slot permitted sessions)
    (hslot : slot' = slot) (hpermitted : permitted' ↔ permitted)
    (hsessions : sessions'.Perm sessions) : Fits slot' permitted' sessions' := by
  subst hslot
  exact ⟨hpermitted.trans h.reserved, h.idle, h.counted.trans hsessions.length_eq.symm,
    fun session hsession => h.configured session (hsessions.mem_iff.mp hsession)⟩

theorem unused (h : Fits (none : Option (RegisteredRadio Settings)) permitted sessions)
    (config : ConfiguredRadio Settings) :
    Fits (some (RadioRegistry.unused config)) permitted sessions := by
  have hnone : sessions = [] := List.length_eq_zero_iff.mp h.counted.symm
  subst hnone
  refine ⟨h.reserved.trans ?_, fun radio hradio _ => ?_, rfl, fun _ => nofun⟩
  · simp [RadioRegistry.unused]
  · cases hradio
    rfl

theorem reserve (h : Fits (some radio) permitted sessions) (husers : ¬0 < radio.users) :
    Fits (some { radio with mutationReserved := true }) True sessions := by
  refine ⟨⟨fun _ => ⟨_, rfl, rfl⟩, fun _ => trivial⟩, fun radio' hradio' _ => ?_, h.counted,
    fun session hsession => ?_⟩
  · cases hradio'
    exact Nat.eq_zero_of_not_pos husers
  · obtain ⟨_, hsame, hconfig⟩ := h.configured session hsession
    cases hsame
    exact ⟨_, rfl, hconfig⟩

/-- While there is a permit, nobody uses the radio. -/
theorem nobody (h : Fits (some radio) permitted sessions) (hpermitted : permitted) :
    sessions = [] := by
  obtain ⟨_, hsame, hreserved⟩ := h.reserved.mp hpermitted
  cases hsame
  exact List.length_eq_zero_iff.mp (h.counted.symm.trans (h.idle radio rfl hreserved))

/-- The reservation ends, and the radio may have another configuration. -/
theorem settle (h : Fits (some radio) permitted sessions) (hpermitted : permitted)
    (config : ConfiguredRadio Settings) :
    Fits (some { radio with config := config, mutationReserved := false }) False sessions := by
  have hnone := h.nobody hpermitted
  subst hnone
  refine ⟨by simp, fun radio' hradio' hreserved => ?_, h.counted, fun _ => nofun⟩
  cases hradio'
  cases hreserved

theorem delete (h : Fits (some radio) permitted sessions) (hpermitted : permitted) :
    Fits (none : Option (RegisteredRadio Settings)) False sessions := by
  have hnone := h.nobody hpermitted
  subst hnone
  exact ⟨by simp, fun _ => nofun, rfl, fun _ => nofun⟩

theorem use (h : Fits (some radio) permitted sessions) (hreserved : ¬radio.mutationReserved = true)
    (hconfig : session.config = radio.config) :
    Fits (some { radio with users := radio.users + 1 }) permitted (session :: sessions) := by
  refine ⟨h.reserved.trans ?_, fun radio' hradio' hfalse => ?_, congrArg (· + 1) h.counted,
    fun other hother => ?_⟩
  · simp
  · cases hradio'
    exact absurd hfalse hreserved
  · cases List.mem_cons.mp hother with
    | inl heq => exact ⟨_, rfl, by rw [heq, hconfig]⟩
    | inr hrest =>
        obtain ⟨_, hsame, hconfig⟩ := h.configured other hrest
        cases hsame
        exact ⟨_, rfl, hconfig⟩

/-- Who gives a use back was counted. -/
theorem used (h : Fits (some radio) permitted (session :: sessions)) : 0 < radio.users := by
  have hcounted : radio.users = sessions.length + 1 := h.counted
  omega

theorem finish (h : Fits (some radio) permitted (session :: sessions)) :
    Fits (some { radio with users := radio.users - 1 }) permitted sessions := by
  refine ⟨h.reserved.trans ?_, fun radio' hradio' hreserved => ?_, congrArg (· - 1) h.counted,
    fun other hother => ?_⟩
  · simp
  · cases hradio'
    have hzero := h.idle radio rfl hreserved
    have hused := h.used
    omega
  · obtain ⟨_, hsame, hconfig⟩ := h.configured other (List.mem_cons_of_mem _ hother)
    cases hsame
    exact ⟨_, rfl, hconfig⟩

/-- A session goes on with its configuration. -/
theorem proceed {slot : Option (RegisteredRadio Settings)}
    (h : Fits slot permitted (session :: sessions)) {later : RadioSession Settings}
    (hconfig : later.config = session.config) : Fits slot permitted (later :: sessions) := by
  refine ⟨h.reserved, h.idle, h.counted, fun other hother => ?_⟩
  cases List.mem_cons.mp hother with
  | inl heq =>
      rw [heq, hconfig]
      exact h.configured session List.mem_cons_self
  | inr hrest => exact h.configured other (List.mem_cons_of_mem _ hrest)

end Fits

namespace RadioSession

variable {session : RadioSession Settings}

/-- The session holds a radio or is acquiring it. -/
def holds (session : RadioSession Settings) (radioId : Int) : Bool :=
  session.radioId = radioId && session.phase ≠ .returned

theorem holds_iff {radioId : Int} :
    session.holds radioId = true ↔ session.radioId = radioId ∧ session.phase ≠ .returned := by
  simp [holds]

theorem holds_of_ne {radioId : Int} (h : session.radioId ≠ radioId) :
    ¬session.holds radioId = true := fun hholds => h (holds_iff.mp hholds).1

theorem not_holds_of_returned {radioId : Int} (h : session.phase = .returned) :
    ¬session.holds radioId = true := fun hholds => (holds_iff.mp hholds).2 h

/-- What a session was counted for is given back when it is over, and only then. -/
def GivesBackOnce (session : RadioSession Settings) : Prop :=
  session.finishedUses = if session.phase = .returned then 1 else 0

/-- A session that is over has just called `finish_use`, whichever exit it took. -/
theorem next_eq_returned_iff (session : RadioSession Settings) (succeeds : Bool) :
    session.next succeeds = .returned ↔
      session.phase.finishesUse = true ∨ session.phase = .returned := by
  obtain ⟨radioId, config, identified, hasState, phase, finishedUses⟩ := session
  cases phase <;> cases succeeds <;> cases identified <;> cases hasState <;>
    simp [next, releaseRegistration, sendTargets, SessionPhase.finishesUse]

theorem not_returned_of_finishesUse (h : session.phase.finishesUse = true) :
    session.phase ≠ .returned := by
  intro hreturned
  rw [hreturned] at h
  cases h

theorem GivesBackOnce.proceed (h : session.GivesBackOnce) (succeeds : Bool) :
    (session.proceed succeeds).GivesBackOnce := by
  have hnext := session.next_eq_returned_iff succeeds
  rw [GivesBackOnce] at h ⊢
  simp only [RadioSession.proceed, h]
  by_cases hfinishes : session.phase.finishesUse = true
  · rw [if_neg (not_returned_of_finishesUse hfinishes), if_pos hfinishes,
      if_pos (hnext.mpr (Or.inl hfinishes))]
  · rw [if_neg hfinishes, Nat.add_zero]
    refine if_congr ?_ rfl rfl
    rw [hnext, or_iff_right hfinishes]

theorem GivesBackOnce.goesOn (h : session.GivesBackOnce) (outcomes : List Bool) :
    (session.goesOn outcomes).GivesBackOnce := by
  induction outcomes generalizing session with
  | nil => exact h
  | cons succeeds outcomes ih => exact ih (h.proceed succeeds)

end RadioSession

namespace RadioSystem

variable {system later : RadioSystem Settings} {radioId : Int}

/-- The sessions that hold a radio or are acquiring it. -/
def sessionsOf (system : RadioSystem Settings) (radioId : Int) : List (RadioSession Settings) :=
  system.sessions.filter fun session => session.holds radioId

structure Sound (system : RadioSystem Settings) : Prop where
  permits : system.permits.Nodup
  fits : ∀ radioId : Int, Fits system.registry[radioId]? (radioId ∈ system.permits)
    (system.sessionsOf radioId)
  once : ∀ session ∈ system.sessions, session.GivesBackOnce

/-- A step that concerns one radio. -/
theorem Sound.change (h : system.Sound) (radioId : Int) (hpermits : later.permits.Nodup)
    (hregistry : ∀ other, radioId ≠ other → later.registry[other]? = system.registry[other]?)
    (hpermitted : ∀ other, radioId ≠ other → (other ∈ later.permits ↔ other ∈ system.permits))
    (hsessions : ∀ other, radioId ≠ other →
      (later.sessionsOf other).Perm (system.sessionsOf other))
    (honce : ∀ session ∈ later.sessions, session.GivesBackOnce)
    (hfits : Fits later.registry[radioId]? (radioId ∈ later.permits) (later.sessionsOf radioId)) :
    later.Sound := by
  refine ⟨hpermits, fun other => ?_, honce⟩
  rcases eq_or_ne radioId other with rfl | hne
  · exact hfits
  · exact (h.fits other).congr (hregistry other hne) (hpermitted other hne) (hsessions other hne)

theorem sound_new (radios : List (ConfiguredRadio Settings)) : (new radios).Sound := by
  refine ⟨List.nodup_nil, ?_, nofun⟩
  have hempty : ∀ radioId : Int, Fits (∅ : RadioRegistry Settings)[radioId]? (radioId ∈ []) [] := by
    intro radioId
    simp only [ExtTreeMap.getElem?_empty]
    exact ⟨by simp, fun _ => nofun, rfl, fun _ => nofun⟩
  refine List.foldlRecOn (motive := fun registry : RadioRegistry Settings => ∀ radioId : Int,
    Fits registry[radioId]? (radioId ∈ []) []) radios _ hempty fun registry h config _ radioId => ?_
  rw [getElem?_insert_key]
  split
  · exact ⟨by simp [RadioRegistry.unused], fun _ hradio _ => by cases hradio; rfl, rfl,
      fun _ => nofun⟩
  · exact h radioId

theorem getElem?_insert_of_ne {registry : RadioRegistry Settings} {radio : RegisteredRadio Settings}
    (other : Int) (hne : radioId ≠ other) :
    (registry.insert radioId radio)[other]? = registry[other]? := by
  rw [getElem?_insert_key, if_neg hne]

theorem Sound.addRadio (h : system.Sound) (config : ConfiguredRadio Settings) :
    (system.addRadio config).Sound := by
  rw [RadioSystem.addRadio, RadioRegistry.addRadio]
  cases hslot : system.registry[config.id]? with
  | some _ => exact h
  | none =>
      refine h.change config.id h.permits (fun other => getElem?_insert_of_ne other)
        (fun _ _ => Iff.rfl) (fun _ _ => List.Perm.refl _) h.once ?_
      have hfits := h.fits config.id
      rw [hslot] at hfits
      dsimp only
      rw [getElem?_insert_key, if_pos rfl]
      exact hfits.unused config

theorem Sound.beginMutation (h : system.Sound) (radioId : Int) :
    (system.beginMutation radioId).Sound := by
  rw [RadioSystem.beginMutation, RadioRegistry.beginMutation]
  have hfits := h.fits radioId
  cases hslot : system.registry[radioId]? with
  | none => exact h
  | some radio =>
      rw [hslot] at hfits
      dsimp only
      by_cases husers : 0 < radio.users
      · rw [if_pos husers]
        exact h
      · by_cases hreserved : radio.mutationReserved = true
        · rw [if_neg husers, if_pos hreserved]
          exact h
        · rw [if_neg husers, if_neg hreserved]
          have hfresh : radioId ∉ system.permits := by
            rw [hfits.reserved]
            rintro ⟨_, ⟨⟩, htrue⟩
            exact hreserved htrue
          refine h.change radioId (List.nodup_cons.mpr ⟨hfresh, h.permits⟩)
            (fun other => getElem?_insert_of_ne other) (fun other hne => ?_)
            (fun _ _ => List.Perm.refl _) h.once ?_
          · rw [List.mem_cons, or_iff_right hne.symm]
          · dsimp only
            rw [getElem?_insert_key, if_pos rfl]
            exact (hfits.reserve husers).congr rfl (iff_of_true List.mem_cons_self trivial)
              (List.Perm.refl _)

/-- A permit is committed or dropped. -/
theorem Sound.settle (h : system.Sound) {permit : Nat} {registry : RadioRegistry Settings}
    (hpermit : system.permits[permit]? = some radioId)
    (hregistry : ∀ other, radioId ≠ other → registry[other]? = system.registry[other]?)
    (hfits : ∀ radio, system.registry[radioId]? = some radio →
      Fits (some radio) True (system.sessionsOf radioId) →
        Fits registry[radioId]? False (system.sessionsOf radioId)) :
    (system.settle permit (.ok registry)).Sound := by
  have hmem := List.mem_of_getElem? hpermit
  have hperm := Slices.perm_cons_eraseIdx hpermit
  have hnodup := List.nodup_cons.mp (hperm.nodup_iff.mp h.permits)
  obtain ⟨radio, hradio, -⟩ := (h.fits radioId).reserved.mp hmem
  refine h.change radioId hnodup.2 hregistry (fun other hne => ?_) (fun _ _ => List.Perm.refl _)
    h.once ?_
  · rw [RadioSystem.settle, hperm.mem_iff, List.mem_cons, or_iff_right hne.symm]
  · have hbefore := h.fits radioId
    rw [hradio] at hbefore
    exact (hfits radio hradio (hbefore.congr rfl (iff_of_true trivial hmem)
      (List.Perm.refl _))).congr
      rfl (iff_of_false hnodup.1 not_false) (List.Perm.refl _)

theorem Sound.connect (h : system.Sound) (radioId : Int) (identified hasState : Bool) :
    (system.connect radioId identified hasState).Sound := by
  rw [RadioSystem.connect, RadioRegistry.beginUse]
  have hfits := h.fits radioId
  cases hslot : system.registry[radioId]? with
  | none => exact h
  | some radio =>
      rw [hslot] at hfits
      dsimp only
      by_cases hreserved : radio.mutationReserved = true
      · rw [if_pos hreserved]
        exact h
      · rw [if_neg hreserved]
        refine h.change radioId h.permits (fun other => getElem?_insert_of_ne other)
          (fun _ _ => Iff.rfl) (fun other hne => ?_) (fun session hsession => ?_) ?_
        · exact List.Perm.of_eq (List.filter_cons_of_neg (RadioSession.holds_of_ne hne))
        · cases List.mem_cons.mp hsession with
          | inl hnew => rw [hnew]; rfl
          | inr hold => exact h.once session hold
        · dsimp only
          rw [getElem?_insert_key, if_pos rfl, sessionsOf, List.filter_cons_of_pos]
          · exact hfits.use hreserved rfl
          · exact RadioSession.holds_iff.mpr ⟨rfl, nofun⟩

theorem mem_sessionsOf {session : RadioSession Settings} :
    session ∈ system.sessionsOf radioId ↔
      session ∈ system.sessions ∧ session.radioId = radioId ∧ session.phase ≠ .returned := by
  rw [sessionsOf, List.mem_filter, RadioSession.holds_iff]

/-- The sessions that hold a radio are the same but for the one that proceeds. -/
theorem sessionsOf_proceed {index : Nat} {session : RadioSession Settings}
    (hsession : system.sessions[index]? = some session) (succeeds : Bool) :
    ∃ others : Int → List (RadioSession Settings), ∀ radioId,
      (system.sessionsOf radioId).Perm
        (if session.holds radioId then session :: others radioId else others radioId) ∧
      ((system.proceed index session succeeds).sessionsOf radioId).Perm
        (if (session.proceed succeeds).holds radioId then
          session.proceed succeeds :: others radioId else others radioId) := by
  refine ⟨fun radioId => (system.sessions.eraseIdx index).filter (·.holds radioId),
    fun radioId => ⟨?_, ?_⟩⟩
  · split
    · next hholds => exact Slices.filter_perm_of_pos _ hsession hholds
    · next hnot => exact Slices.filter_perm_of_neg _ hsession (Bool.not_eq_true _ ▸ hnot)
  · split
    · next hholds => exact Slices.filter_set_perm_of_pos _ hsession hholds
    · next hnot => exact Slices.filter_set_perm_of_neg _ hsession (Bool.not_eq_true _ ▸ hnot)

theorem Sound.proceed (h : system.Sound) {index : Nat} {session : RadioSession Settings}
    (hsession : system.sessions[index]? = some session) (succeeds : Bool) :
    (system.proceed index session succeeds).Sound := by
  obtain ⟨others, hothers⟩ := sessionsOf_proceed hsession succeeds
  have honce : ∀ later ∈ (system.proceed index session succeeds).sessions,
      later.GivesBackOnce := by
    intro later hlater
    rcases List.mem_or_eq_of_mem_set hlater with hold | rfl
    · exact h.once later hold
    · exact (h.once session (List.mem_of_getElem? hsession)).proceed succeeds
  have hother : ∀ other, session.radioId ≠ other →
      ((system.proceed index session succeeds).sessionsOf other).Perm
        (system.sessionsOf other) := by
    intro other hne
    obtain ⟨hbefore, hafter⟩ := hothers other
    have hlater : (session.proceed succeeds).radioId ≠ other := hne
    rw [if_neg (RadioSession.holds_of_ne hne)] at hbefore
    rw [if_neg (RadioSession.holds_of_ne hlater)] at hafter
    exact hafter.trans hbefore.symm
  obtain ⟨hbefore, hafter⟩ := hothers session.radioId
  have hnext : (session.proceed succeeds).phase = .returned ↔
      session.phase.finishesUse = true ∨ session.phase = .returned :=
    session.next_eq_returned_iff succeeds
  by_cases hfinishes : session.phase.finishesUse = true
  · -- the use is given back, and the session is over
    have hholds := RadioSession.not_returned_of_finishesUse hfinishes
    rw [if_pos (RadioSession.holds_iff.mpr ⟨rfl, hholds⟩)] at hbefore
    rw [if_neg (RadioSession.not_holds_of_returned (hnext.mpr (Or.inl hfinishes)))] at hafter
    have hfits := (h.fits session.radioId).congr rfl Iff.rfl hbefore.symm
    obtain ⟨radio, hradio, -⟩ := hfits.configured session List.mem_cons_self
    rw [hradio] at hfits
    refine h.change session.radioId h.permits (fun other hne => ?_) (fun _ _ => Iff.rfl) hother
      honce ?_
    · simp only [RadioSystem.proceed, if_pos hfinishes, RadioRegistry.finishUse, hradio]
      exact getElem?_insert_of_ne other hne
    · refine hfits.finish.congr ?_ Iff.rfl hafter
      simp only [RadioSystem.proceed, if_pos hfinishes, RadioRegistry.finishUse, hradio,
        getElem?_insert_key, if_pos]
  · have hregistry : (system.proceed index session succeeds).registry = system.registry :=
      if_neg hfinishes
    refine h.change session.radioId h.permits (fun other _ => by rw [hregistry])
      (fun _ _ => Iff.rfl) hother honce ?_
    rw [hregistry]
    by_cases hreturned : session.phase = .returned
    · rw [if_neg (RadioSession.not_holds_of_returned hreturned)] at hbefore
      rw [if_neg (RadioSession.not_holds_of_returned (hnext.mpr (Or.inr hreturned)))] at hafter
      exact (h.fits session.radioId).congr rfl Iff.rfl (hafter.trans hbefore.symm)
    · -- it still holds its radio
      rw [if_pos (RadioSession.holds_iff.mpr ⟨rfl, hreturned⟩)] at hbefore
      have hholds : (session.proceed succeeds).holds session.radioId = true :=
        RadioSession.holds_iff.mpr ⟨rfl, fun hnone => (hnext.mp hnone).elim hfinishes hreturned⟩
      rw [if_pos hholds] at hafter
      have hfits := (h.fits session.radioId).congr rfl Iff.rfl hbefore.symm
      have hconfig : (session.proceed succeeds).config = session.config := rfl
      exact (hfits.proceed hconfig).congr rfl Iff.rfl hafter

/-- The radio of a permit is there. -/
theorem Sound.radio_of_permit (h : system.Sound) {permit : Nat}
    (hpermit : system.permits[permit]? = some radioId) :
    ∃ radio, system.registry[radioId]? = some radio := by
  obtain ⟨radio, hradio, -⟩ := (h.fits radioId).reserved.mp (List.mem_of_getElem? hpermit)
  exact ⟨radio, hradio⟩

theorem Sound.settle_insert (h : system.Sound) {permit : Nat}
    (hpermit : system.permits[permit]? = some radioId) {radio : RegisteredRadio Settings}
    (hradio : system.registry[radioId]? = some radio) (config : ConfiguredRadio Settings) :
    (system.settle permit (.ok (system.registry.insert radioId
      { radio with config := config, mutationReserved := false }))).Sound := by
  refine h.settle hpermit (fun other hne => getElem?_insert_of_ne other hne)
    fun radio' hradio' hfits => ?_
  rw [hradio] at hradio'
  cases hradio'
  rw [getElem?_insert_key, if_pos rfl]
  exact hfits.settle trivial config

theorem Sound.commitUpdate (h : system.Sound) {permit : Nat}
    (hpermit : system.permits[permit]? = some radioId) (config : ConfiguredRadio Settings) :
    (system.settle permit (system.registry.commitUpdate radioId config)).Sound := by
  obtain ⟨radio, hradio⟩ := h.radio_of_permit hpermit
  rw [RadioRegistry.commitUpdate]
  by_cases hid : config.id ≠ radioId
  · rw [if_pos hid]
    exact h
  · rw [if_neg hid, hradio]
    exact h.settle_insert hpermit hradio config

theorem Sound.commitDelete (h : system.Sound) {permit : Nat}
    (hpermit : system.permits[permit]? = some radioId) :
    (system.settle permit (system.registry.commitDelete radioId)).Sound := by
  obtain ⟨radio, hradio⟩ := h.radio_of_permit hpermit
  rw [RadioRegistry.commitDelete, hradio]
  refine h.settle hpermit (fun other hne => ?_) fun radio' _ hfits => ?_
  · rw [getElem?_erase_key, if_neg hne]
  · rw [getElem?_erase_key, if_pos rfl]
    exact hfits.delete trivial

theorem Sound.dropPermit (h : system.Sound) {permit : Nat}
    (hpermit : system.permits[permit]? = some radioId) :
    (system.settle permit (.ok (system.registry.dropPermit radioId))).Sound := by
  obtain ⟨radio, hradio⟩ := h.radio_of_permit hpermit
  rw [RadioRegistry.dropPermit, hradio]
  exact h.settle_insert hpermit hradio radio.config

theorem Sound.step (h : system.Sound) (action : RegistryAction Settings) :
    (system.step action).Sound := by
  cases action with
  | addRadio config => exact h.addRadio config
  | beginMutation radioId => exact h.beginMutation radioId
  | commitUpdate permit config =>
      rw [RadioSystem.step]
      cases hpermit : system.permits[permit]? with
      | none => exact h
      | some radioId => exact h.commitUpdate hpermit config
  | commitDelete permit =>
      rw [RadioSystem.step]
      cases hpermit : system.permits[permit]? with
      | none => exact h
      | some radioId => exact h.commitDelete hpermit
  | dropPermit permit =>
      rw [RadioSystem.step]
      cases hpermit : system.permits[permit]? with
      | none => exact h
      | some radioId => exact h.dropPermit hpermit
  | connect radioId identified hasState => exact h.connect radioId identified hasState
  | proceed index succeeds =>
      rw [RadioSystem.step]
      cases hsession : system.sessions[index]? with
      | none => exact h
      | some session => exact h.proceed hsession succeeds

end RadioSystem

/-- How many waits are left at most. -/
def SessionPhase.rank : SessionPhase → Nat
  | acquiring => 12
  | acquireWsjtx => 11
  | acquireDigitalIo => 10
  | sendStatus => 9
  | sendState => 8
  | sendWsjtxTarget => 7
  | sendDigitalIoTarget => 6
  | serving => 5
  | undoWsjtx => 4
  | releaseWsjtx => 4
  | releaseDigitalIo => 3
  | releaseRadio => 2
  | finishUse => 1
  | acquireFailed => 1
  | returned => 0

theorem SessionPhase.rank_le (phase : SessionPhase) : phase.rank ≤ 12 := by
  cases phase <;> decide

namespace RadioSession

theorem rank_next (session : RadioSession Settings) (succeeds : Bool) :
    (session.next succeeds).rank ≤ session.phase.rank - 1 := by
  obtain ⟨radioId, config, identified, hasState, current, finishedUses⟩ := session
  cases current <;> cases succeeds <;> cases identified <;> cases hasState <;>
    exact Nat.le_of_ble_eq_true rfl

/-- A session comes to its end. -/
theorem goesOn_returned (session : RadioSession Settings) (outcomes : List Bool)
    (hmany : session.phase.rank ≤ outcomes.length) :
    (session.goesOn outcomes).phase = .returned := by
  induction outcomes generalizing session with
  | nil =>
      change session.phase = .returned
      have hzero : session.phase.rank = 0 := Nat.le_zero.mp hmany
      cases hphase : session.phase <;> rw [hphase] at hzero <;> first | rfl | cases hzero
  | cons succeeds outcomes ih =>
      have hrank := session.rank_next succeeds
      rw [List.length_cons] at hmany
      exact ih (session.proceed succeeds) (by
        change (session.next succeeds).rank ≤ outcomes.length
        omega)

end RadioSession

/-- A radio is used or changed: what holds whoever connects, changes and goes. A session has given
its use back when it has returned and not before, and whatever its waits come to it returns. -/
structure RadioSystem.Exclusive (system : RadioSystem Settings) : Prop where
  never_both : ∀ (radioId : Int) radio, system.registry[radioId]? = some radio →
    radio.mutationReserved = true → radio.users = 0
  one_permit : system.permits.Nodup
  permit_iff : ∀ radioId, radioId ∈ system.permits ↔
    ∃ radio, system.registry[radioId]? = some radio ∧ radio.mutationReserved = true
  users : ∀ (radioId : Int) radio, system.registry[radioId]? = some radio →
    radio.users = (system.sessionsOf radioId).length
  given_back : ∀ session ∈ system.sessions,
    session.finishedUses = if session.phase = .returned then 1 else 0
  ends : ∀ session ∈ system.sessions, ∀ outcomes, 12 ≤ outcomes.length →
    (session.goesOn outcomes).phase = .returned ∧ (session.goesOn outcomes).finishedUses = 1
  in_use : ∀ session ∈ system.sessions, session.phase ≠ .returned → ∃ radio,
    system.registry[session.radioId]? = some radio ∧ 0 < radio.users ∧
      radio.config = session.config

theorem radio_exclusive (radios : List (ConfiguredRadio Settings))
    (actions : List (RegistryAction Settings)) :
    (Runs.run RadioSystem.step (RadioSystem.new radios) actions).Exclusive := by
  have hsound := Runs.invariant_run_of_forall RadioSystem.Sound
    (fun _ action h => h.step action) (RadioSystem.sound_new radios) actions
  generalize Runs.run RadioSystem.step (RadioSystem.new radios) actions = system at hsound
  constructor
  case never_both => exact fun radioId => (hsound.fits radioId).idle
  case one_permit => exact hsound.permits
  case permit_iff => exact fun radioId => (hsound.fits radioId).reserved
  case users =>
    intro radioId radio hradio
    have hcounted := (hsound.fits radioId).counted
    rwa [hradio] at hcounted
  case given_back => exact hsound.once
  case ends =>
    intro session hsession outcomes hmany
    have hreturned := session.goesOn_returned outcomes (Nat.le_trans session.phase.rank_le hmany)
    refine ⟨hreturned, ?_⟩
    rw [(hsound.once session hsession).goesOn outcomes, if_pos hreturned]
  case in_use =>
    intro session hsession hholds
    have hmine := RadioSystem.mem_sessionsOf.mpr ⟨hsession, rfl, hholds⟩
    have hfits := hsound.fits session.radioId
    obtain ⟨radio, hradio, hconfig⟩ := hfits.configured session hmine
    rw [hradio] at hfits
    have hcounted : radio.users = (system.sessionsOf session.radioId).length := hfits.counted
    refine ⟨radio, hradio, ?_, hconfig⟩
    rw [hcounted]
    exact List.length_pos_of_mem hmine

end Log73.RadioIo
