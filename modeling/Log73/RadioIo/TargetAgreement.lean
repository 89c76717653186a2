import Log73.RadioIo.Targets

/-!
What a call does to the target and the registrations of a radio, and that the last broadcast
tells the target when the broadcasts come in the order of the calls.
-/

namespace Log73.RadioIo

open TreeMap
open Std (ExtTreeMap)

def LoggerRegistration.references : Option LoggerRegistration → Nat
  | some registration => registration.refcount
  | none => 0

/-- One reference less. -/
def LoggerRegistration.drop (registration : LoggerRegistration) : Option LoggerRegistration :=
  if registration.refcount - 1 = 0 then none
  else some { registration with refcount := registration.refcount - 1 }

theorem LoggerRegistration.logId_of_drop {registration left : LoggerRegistration}
    (h : registration.drop = some left) : left.logId = registration.logId := by
  rw [drop] at h
  split at h
  · cases h
  · cases h
    rfl

theorem getElem?_dropReference (registrations : ExtTreeMap String LoggerRegistration)
    (loggerId other : String) :
    (dropReference registrations loggerId).2[other]? =
      if loggerId = other then registrations[loggerId]?.bind LoggerRegistration.drop
      else registrations[other]? := by
  rw [dropReference]
  cases hregistration : registrations[loggerId]? with
  | none =>
      dsimp only
      split
      · next heq => rw [← heq, hregistration, Option.bind_none]
      · rfl
  | some registration =>
      rw [Option.bind_some, LoggerRegistration.drop]
      dsimp only
      split
      · rw [getElem?_erase_key]
      · rw [getElem?_insert_key]

theorem dropReference_last (registrations : ExtTreeMap String LoggerRegistration)
    (loggerId : String) :
    (dropReference registrations loggerId).1 = true ↔
      ∃ registration : LoggerRegistration, registrations[loggerId]? = some registration ∧
        registration.drop = none := by
  rw [dropReference]
  cases registrations[loggerId]? with
  | none => simp
  | some registration =>
      simp only [Option.some.injEq, exists_eq_left', LoggerRegistration.drop]
      split <;> simp

namespace ListenerManager

variable {ρ : Type} {manager later : ListenerManager ρ} {radioId logId : Int}
  {loggerId initialMode : String} {config : RadioConfig} {state : TargetState}

/-- A logger that is registered has one reference more, for the same log. -/
structure Acquired (manager later : ListenerManager ρ) (radioId : Int) (loggerId : String)
    (logId : Int) (state : TargetState) : Prop where
  state : state = targetState radioId (manager.targetOf radioId)
  targetOf : ∀ other, later.targetOf other = manager.targetOf other
  same_log : ∀ registration, manager.registered radioId loggerId = some registration →
    registration.logId = logId
  registered : ∀ other logger, later.registered other logger =
    if radioId = other ∧ loggerId = logger then
      some { logId := logId
             refcount := LoggerRegistration.references (manager.registered radioId loggerId) + 1 }
    else manager.registered other logger

theorem acquired_of_registerListener
    {registrations registered : ExtTreeMap String LoggerRegistration}
    (hregister : registerListener registrations loggerId logId = .ok registered) :
    (∀ registration : LoggerRegistration, registrations[loggerId]? = some registration →
        registration.logId = logId) ∧
      registered = registrations.insert loggerId
        { logId := logId
          refcount := LoggerRegistration.references registrations[loggerId]? + 1 } := by
  rw [registerListener] at hregister
  cases hregistration : registrations[loggerId]? with
  | none =>
      rw [hregistration] at hregister
      cases hregister
      exact ⟨fun _ hnone => (by cases hnone), rfl⟩
  | some registration =>
      rw [hregistration] at hregister
      dsimp only at hregister
      split at hregister
      · cases hregister
      · next hlog =>
          cases hregister
          have hlog := of_not_not hlog
          refine ⟨fun _ hsame => (Option.some.inj hsame) ▸ hlog, ?_⟩
          rw [LoggerRegistration.references, ← hlog]

theorem acquired (hacquire : manager.acquire radioId loggerId logId config initialMode =
    .ok (state, later)) : Acquired manager later radioId loggerId logId state := by
  rw [acquire] at hacquire
  cases hslot : manager.listeners[radioId]? with
  | none =>
      rw [hslot] at hacquire
      cases hacquire
      constructor
      case state => rw [ListenerManager.targetOf, hslot]; rfl
      case targetOf =>
        intro other
        rw [ListenerManager.targetOf, getElem?_insert_key, ListenerManager.targetOf]
        split
        · next heq => rw [← heq, hslot]; rfl
        · rfl
      case same_log =>
        intro registration hregistered
        rw [ListenerManager.registered, hslot] at hregistered
        cases hregistered
      case registered =>
        intro other logger
        simp only [ListenerManager.registered, getElem?_insert_key]
        by_cases heq : radioId = other
        · subst heq
          rw [if_pos rfl, Option.bind_some, getElem?_insert_key, hslot]
          simp [LoggerRegistration.references]
        · rw [if_neg heq, if_neg fun hboth => heq hboth.1]
  | some listener =>
      rw [hslot] at hacquire
      dsimp only at hacquire
      split at hacquire
      · cases hacquire
      · next registrations hregister =>
          cases hacquire
          obtain ⟨hsame, rfl⟩ := acquired_of_registerListener hregister
          constructor
          case state => rw [ListenerManager.targetOf, hslot]; rfl
          case targetOf =>
            intro other
            rw [ListenerManager.targetOf, getElem?_insert_key, ListenerManager.targetOf]
            split
            · next heq => rw [← heq, hslot]; rfl
            · rfl
          case same_log =>
            intro registration hregistered
            rw [ListenerManager.registered, hslot] at hregistered
            exact hsame registration hregistered
          case registered =>
            intro other logger
            simp only [ListenerManager.registered, getElem?_insert_key]
            by_cases heq : radioId = other
            · subst heq
              rw [if_pos rfl, Option.bind_some, getElem?_insert_key, hslot, Option.bind_some]
              simp
            · rw [if_neg heq, if_neg fun hboth => heq hboth.1]

/-- The registrations that are left when the last reference of a logger is gone. -/
theorem getElem?_none_of_dropReference {registrations : ExtTreeMap String LoggerRegistration}
    (hempty : (dropReference registrations loggerId).2.isEmpty = true) (other : String) :
    (if loggerId = other then registrations[loggerId]?.bind LoggerRegistration.drop
      else registrations[other]?) = none := by
  rw [← getElem?_dropReference, ExtTreeMap.isEmpty_iff.mp hempty]
  simp

/-- The slot that `release` leaves. -/
theorem getElem?_release {listener : ManagedListener}
    (hslot : manager.listeners[radioId]? = some listener) (other : Int) :
    (manager.release radioId loggerId).listeners[other]? =
      if radioId = other then
        if (dropReference listener.registrations loggerId).2.isEmpty then none
        else
          some
            { listener with
              registrations := (dropReference listener.registrations loggerId).2
              target :=
                if (dropReference listener.registrations loggerId).1 &&
                  isTargetOf loggerId listener.target then none
                else listener.target }
      else manager.listeners[other]? := by
  have hsame : ∀ sent : Bool,
      (if sent then manager.sendTarget listener.task none else manager).listeners =
        manager.listeners := fun sent => by cases sent <;> rfl
  rw [release, hslot]
  dsimp only
  split
  · rw [hsame, getElem?_erase_key]
  · rw [hsame, getElem?_insert_key]

theorem release_of_none (hslot : manager.listeners[radioId]? = none) :
    manager.release radioId loggerId = manager := by
  rw [release, hslot]

theorem registered_release (other : Int) (logger : String) :
    (manager.release radioId loggerId).registered other logger =
      if radioId = other ∧ loggerId = logger then
        (manager.registered radioId loggerId).bind LoggerRegistration.drop
      else manager.registered other logger := by
  cases hslot : manager.listeners[radioId]? with
  | none =>
      rw [release_of_none hslot]
      split
      · next heq =>
          obtain ⟨rfl, rfl⟩ := heq
          rw [registered, hslot]
          rfl
      · rfl
  | some listener =>
      simp only [registered, getElem?_release hslot]
      by_cases heq : radioId = other
      · subst heq
        rw [if_pos rfl, hslot]
        split
        · next hempty =>
            have hleft := getElem?_none_of_dropReference hempty logger
            simpa using hleft.symm
        · rw [Option.bind_some, getElem?_dropReference]
          simp
      · rw [if_neg heq, if_neg fun hboth => heq hboth.1]

/-- A target whose logger lets go of its last reference is gone, and its loggers are told. -/
structure Untargeted (manager later : ListenerManager ρ) (radioId : Int) (loggerId : String) :
    Prop where
  broadcast : manager.releaseBroadcast radioId loggerId = [noTargetState radioId]
  target : later.targetOf radioId = none
  others : ∀ other, radioId ≠ other → later.targetOf other = manager.targetOf other

/-- Every other target stays, and its logger registered. -/
structure Retargeted (manager later : ListenerManager ρ) (radioId : Int) (loggerId : String) :
    Prop where
  broadcast : manager.releaseBroadcast radioId loggerId = []
  targetOf : ∀ other, later.targetOf other = manager.targetOf other
  kept : ∀ registration, manager.registered radioId loggerId = some registration →
    isTargetOf loggerId (manager.targetOf radioId) = true → registration.drop ≠ none

theorem release_cases (hregistered : ∀ target, manager.targetOf radioId = some target →
    ∃ registration, manager.registered radioId target.loggerId = some registration) :
    Untargeted manager (manager.release radioId loggerId) radioId loggerId ∨
      Retargeted manager (manager.release radioId loggerId) radioId loggerId := by
  cases hslot : manager.listeners[radioId]? with
  | none =>
      refine .inr ⟨?_, fun _ => ?_, ?_⟩
      · rw [releaseBroadcast, hslot]
      · rw [release_of_none hslot]
      · intro registration hnone
        rw [registered, hslot] at hnone
        cases hnone
  | some listener =>
      have htarget : manager.targetOf radioId = listener.target := by
        rw [ListenerManager.targetOf, hslot]
        rfl
      have hothers : ∀ other, radioId ≠ other →
          (manager.release radioId loggerId).targetOf other = manager.targetOf other := by
        intro other hother
        rw [ListenerManager.targetOf, getElem?_release hslot, if_neg hother,
          ListenerManager.targetOf]
      have hmine : (manager.release radioId loggerId).targetOf radioId =
          if (dropReference listener.registrations loggerId).2.isEmpty then none
          else if (dropReference listener.registrations loggerId).1 &&
            isTargetOf loggerId listener.target then none
          else listener.target := by
        rw [ListenerManager.targetOf, getElem?_release hslot, if_pos rfl]
        split <;> rfl
      have hlast := dropReference_last listener.registrations loggerId
      cases hchanged : (dropReference listener.registrations loggerId).1 &&
          isTargetOf loggerId listener.target with
      | true =>
          refine .inl ⟨?_, ?_, hothers⟩
          · rw [releaseBroadcast, hslot]
            simp [hchanged]
          · rw [hmine, hchanged]
            simp
      | false =>
          have hkept : ∀ registration, listener.registrations[loggerId]? = some registration →
              isTargetOf loggerId listener.target = true → registration.drop ≠ none := by
            intro registration hregistration htargeted hdrop
            rw [htargeted, Bool.and_true,
              hlast.mpr ⟨registration, hregistration, hdrop⟩] at hchanged
            cases hchanged
          refine .inr ⟨?_, fun other => ?_, ?_⟩
          · rw [releaseBroadcast, hslot]
            simp [hchanged]
          · rcases eq_or_ne radioId other with rfl | hother
            · rw [hmine, hchanged, htarget]
              split
              · next hempty =>
                  cases hlistener : listener.target with
                  | none => rfl
                  | some target =>
                      obtain ⟨registration, hregistration⟩ :=
                        hregistered target (htarget.trans hlistener)
                      rw [registered, hslot, Option.bind_some] at hregistration
                      have hleft := getElem?_none_of_dropReference hempty target.loggerId
                      split at hleft
                      · next heq =>
                          rw [heq, hregistration, Option.bind_some] at hleft
                          refine absurd hleft (hkept registration (heq ▸ hregistration) ?_)
                          simp [isTargetOf, hlistener, heq]
                      · rw [hregistration] at hleft
                        cases hleft
              · rfl
            · exact hothers other hother
          · intro registration hregistration htargeted
            rw [registered, hslot] at hregistration
            rw [htarget] at htargeted
            exact hkept registration hregistration htargeted

/-- The logger takes the target, or gives it up. -/
def nextTarget (loggerId : String) (logId : Int) (enabled : Bool) (target : Option ListenerTarget) :
    Option ListenerTarget :=
  if enabled then some { loggerId := loggerId, logId := logId }
  else if isTargetOf loggerId target then none
  else target

structure Targeted (manager later : ListenerManager ρ) (radioId : Int) (loggerId : String)
    (state : TargetState) : Prop where
  registered : ∀ other logger, later.registered other logger = manager.registered other logger
  state : state = targetState radioId (later.targetOf radioId)
  targetOf : ∃ registration enabled, manager.registered radioId loggerId = some registration ∧
    later.targetOf radioId = nextTarget loggerId registration.logId enabled
      (manager.targetOf radioId)
  others : ∀ other, radioId ≠ other → later.targetOf other = manager.targetOf other

theorem targeted {enabled : Bool}
    (hset : manager.setTarget radioId loggerId enabled = .ok (state, later)) :
    Targeted manager later radioId loggerId state := by
  rw [setTarget] at hset
  cases hslot : manager.listeners[radioId]? with
  | none =>
      rw [hslot] at hset
      cases hset
  | some listener =>
      have htarget : manager.targetOf radioId = listener.target := by
        rw [ListenerManager.targetOf, hslot]
        rfl
      rw [hslot] at hset
      dsimp only at hset
      split at hset
      · cases hset
      · next registration hregistration =>
          have hregistered : manager.registered radioId loggerId = some registration := by
            rw [registered, hslot]
            exact hregistration
          have hnext : (if enabled then some { loggerId := loggerId, logId := registration.logId }
              else if isTargetOf loggerId listener.target then none else listener.target) =
                nextTarget loggerId registration.logId enabled (manager.targetOf radioId) := by
            rw [htarget, nextTarget]
          rw [hnext] at hset
          obtain ⟨target, hnamed⟩ : ∃ target, nextTarget loggerId registration.logId enabled
            (manager.targetOf radioId) = target := ⟨_, rfl⟩
          rw [hnamed] at hset
          split at hset
          · next hsame =>
              cases hset
              have hkept := htarget.trans hsame
              exact ⟨fun _ _ => rfl, by rw [hkept],
                ⟨registration, enabled, hregistered, hkept.trans hnamed.symm⟩, fun _ _ => rfl⟩
          · cases hset
            have hlisteners : ∀ other, (manager.listeners.insert radioId
                { listener with target := target })[other]? =
                  if radioId = other then some { listener with target := target }
                  else manager.listeners[other]? :=
              fun other => getElem?_insert_key manager.listeners radioId other _
            constructor
            case registered =>
              intro other logger
              rw [registered, hlisteners, registered]
              split
              · next heq => rw [← heq, hslot]; rfl
              · rfl
            case state =>
              rw [ListenerManager.targetOf, hlisteners, if_pos rfl, Option.bind_some]
            case targetOf =>
              refine ⟨registration, enabled, hregistered, ?_⟩
              rw [ListenerManager.targetOf, hlisteners, if_pos rfl, Option.bind_some, hnamed]
            case others =>
              intro other hother
              rw [ListenerManager.targetOf, hlisteners, if_neg hother, ListenerManager.targetOf]

end ListenerManager

end Log73.RadioIo
