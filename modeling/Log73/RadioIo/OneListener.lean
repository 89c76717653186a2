import Log73.RadioIo.ListenerManager

/-!
One controller a radio: every controller belongs to the slot of its radio, or to a shutdown
that waits for its end, so that a second one is started exactly by an `acquire` in between.
-/

namespace Log73.RadioIo

open TreeMap
open Std (ExtTreeMap)

namespace ListenerManager

variable {ρ : Type}

/-- A controller was started and has not ended. -/
def Alive (manager : ListenerManager ρ) (task : Nat) (radioId : Int) : Prop :=
  ∃ controller, manager.controllers[task]? = some controller ∧ controller.radioId = radioId

/-- What a controller runs holds the port of the radio. -/
def HoldsPort (manager : ListenerManager ρ) (task : Nat) (radioId : Int) : Prop :=
  ∃ controller, manager.controllers[task]? = some controller ∧ controller.radioId = radioId ∧
    controller.running.isSome

def owner (manager : ListenerManager ρ) (radioId : Int) : Option Nat :=
  manager.listeners[radioId]?.map (·.task)

/-- One controller is alive, and none starts while another holds the port. -/
structure OneListener (manager : ListenerManager ρ) : Prop where
  alive : ∀ (task other : Nat) (radioId : Int), manager.Alive task radioId →
    manager.Alive other radioId → task = other
  port : ∀ (task other : Nat) (radioId : Int), manager.HoldsPort task radioId →
    manager.Alive other radioId → task = other

/-- No `acquire` finds a radio without a slot while a shutdown waits for its controller. -/
def StepKeeps (manager : ListenerManager ρ) (action : ListenerAction) : Prop :=
  match action with
  | .acquire radioId .. =>
      manager.listeners[radioId]? = none → ∀ closing ∈ manager.closing,
        closing.radioId = radioId → manager.controllers[closing.task]? = none
  | _ => True

structure Sound (manager : ListenerManager ρ) : Prop where
  slot : ∀ (radioId : Int) (task : Nat), manager.owner radioId = some task →
    task < manager.nextTask ∧ ∀ other, manager.Alive task other → other = radioId
  closes : ∀ closing ∈ manager.closing,
    closing.task < manager.nextTask ∧ ∀ other, manager.Alive closing.task other →
      other = closing.radioId
  owned : ∀ (task : Nat) (radioId : Int), manager.Alive task radioId →
    manager.owner radioId = some task ∨ ⟨radioId, task⟩ ∈ manager.closing

variable {manager : ListenerManager ρ}

theorem oneListener_iff : manager.OneListener ↔ ∀ (task other : Nat) (radioId : Int),
    manager.Alive task radioId → manager.Alive other radioId → task = other := by
  refine ⟨OneListener.alive, fun h => ⟨h, fun task other radioId hholds hother => ?_⟩⟩
  obtain ⟨controller, hcontroller, hradio, -⟩ := hholds
  exact h task other radioId ⟨controller, hcontroller, hradio⟩ hother

theorem alive_adjustController {f : Controller ρ → Controller ρ}
    (hf : ∀ controller, (f controller).radioId = controller.radioId) (task other : Nat)
    (radioId : Int) :
    (manager.adjustController task f).Alive other radioId ↔ manager.Alive other radioId := by
  unfold Alive adjustController
  dsimp only
  rw [getElem?_adjust_key]
  split
  · cases manager.controllers[other]? with
    | none => simp
    | some controller => simp [hf]
  · exact Iff.rfl

theorem alive_sendTarget (task other : Nat) (target : Option ListenerTarget) (radioId : Int) :
    (manager.sendTarget task target).Alive other radioId ↔ manager.Alive other radioId := by
  refine alive_adjustController ?_ task other radioId
  intro controller
  rfl

/-- A step that starts nothing, and leaves every slot with its task. -/
theorem Sound.of_same {later : ListenerManager ρ} (h : manager.Sound)
    (halive : ∀ task radioId, later.Alive task radioId → manager.Alive task radioId)
    (howner : ∀ radioId, later.owner radioId = manager.owner radioId)
    (hclosing : later.closing = manager.closing) (hnext : later.nextTask = manager.nextTask) :
    later.Sound where
  slot radioId task hslot := by
    rw [howner] at hslot
    rw [hnext]
    exact ⟨(h.slot radioId task hslot).1,
      fun other hother => (h.slot radioId task hslot).2 other (halive task other hother)⟩
  closes closing hmem := by
    rw [hclosing] at hmem
    rw [hnext]
    exact ⟨(h.closes closing hmem).1,
      fun other hother => (h.closes closing hmem).2 other (halive closing.task other hother)⟩
  owned task radioId htask := by
    rw [howner, hclosing]
    exact h.owned task radioId (halive task radioId htask)

theorem owner_insert (listeners : ExtTreeMap Int ManagedListener) {radioId : Int}
    {listener : ManagedListener} (hslot : listeners[radioId]? = some listener)
    {changed : ManagedListener} (htask : changed.task = listener.task) (other : Int) :
    (listeners.insert radioId changed)[other]?.map ManagedListener.task =
      listeners[other]?.map ManagedListener.task := by
  rw [getElem?_insert_key]
  split
  · next heq =>
      rw [← heq, hslot]
      exact congrArg some htask
  · rfl

/-- A new controller is alive from then on. -/
theorem alive_started {radioId : Int} (hslot : manager.listeners[radioId]? = none)
    (loggerId : String) (logId : Int) (config : RadioConfig) (initialMode : String)
    (rules : ListenerRules ρ) (task : Nat) (other : Int) :
    (manager.step rules (.acquire radioId loggerId logId config initialMode)).Alive task other ↔
      if manager.nextTask = task then radioId = other else manager.Alive task other := by
  rw [step, acquire, hslot]
  unfold Alive
  simp only [Except.toOption, Option.elim_some]
  rw [getElem?_insert_key]
  split
  · simp
  · exact Iff.rfl

theorem Sound.started (h : manager.Sound) {radioId : Int}
    (hslot : manager.listeners[radioId]? = none) (loggerId : String) (logId : Int)
    (config : RadioConfig) (initialMode : String) (rules : ListenerRules ρ) :
    (manager.step rules (.acquire radioId loggerId logId config initialMode)).Sound := by
  have halive := alive_started hslot loggerId logId config initialMode rules
  have howner : ∀ other,
      (manager.step rules (.acquire radioId loggerId logId config initialMode)).owner other =
        if radioId = other then some manager.nextTask else manager.owner other := by
    intro other
    rw [step, acquire, hslot]
    unfold owner
    simp only [Except.toOption, Option.elim_some]
    rw [getElem?_insert_key]
    split
    · rfl
    · rfl
  have hclosing : (manager.step rules
      (.acquire radioId loggerId logId config initialMode)).closing = manager.closing := by
    rw [step, acquire, hslot]
    rfl
  have hnext : (manager.step rules
      (.acquire radioId loggerId logId config initialMode)).nextTask = manager.nextTask + 1 := by
    rw [step, acquire, hslot]
    rfl
  generalize manager.step rules (.acquire radioId loggerId logId config initialMode) = later at *
  refine ⟨?_, ?_, ?_⟩
  · intro other task htask
    rw [howner] at htask
    rw [hnext]
    split at htask
    · next heq =>
        cases htask
        refine ⟨Nat.lt_succ_self _, fun third hthird => ?_⟩
        rw [halive, if_pos rfl] at hthird
        exact hthird.symm.trans heq
    · have hold := h.slot other task htask
      refine ⟨Nat.lt_succ_of_lt hold.1, fun third hthird => hold.2 third ?_⟩
      rwa [halive, if_neg (Nat.ne_of_gt hold.1)] at hthird
  · intro closing hmem
    rw [hclosing] at hmem
    rw [hnext]
    have hold := h.closes closing hmem
    refine ⟨Nat.lt_succ_of_lt hold.1, fun third hthird => hold.2 third ?_⟩
    rwa [halive, if_neg (Nat.ne_of_gt hold.1)] at hthird
  · intro task other htask
    rw [halive] at htask
    rw [howner, hclosing]
    split at htask
    · next heq => exact Or.inl (by rw [if_pos htask, heq])
    · cases h.owned task other htask with
      | inr hmem => exact Or.inr hmem
      | inl hold =>
          refine Or.inl ?_
          rw [if_neg, hold]
          intro heq
          rw [owner, ← heq, hslot] at hold
          cases hold

/-- A slot whose loggers change keeps its controller. -/
theorem Sound.putListener (h : manager.Sound) {radioId : Int} {listener : ManagedListener}
    (hslot : manager.listeners[radioId]? = some listener) (changed : ManagedListener)
    (htask : changed.task = listener.task) {later : ListenerManager ρ}
    (halive : ∀ task radioId, later.Alive task radioId → manager.Alive task radioId)
    (hlisteners : later.listeners = manager.listeners.insert radioId changed)
    (hclosing : later.closing = manager.closing) (hnext : later.nextTask = manager.nextTask) :
    later.Sound := by
  refine h.of_same halive (fun other => ?_) hclosing hnext
  rw [owner, hlisteners]
  exact owner_insert manager.listeners hslot htask other

/-- A slot is removed, and its controller goes to the shutdown that waits for it. -/
theorem Sound.close (h : manager.Sound) {radioId : Int} {listener : ManagedListener}
    (hslot : manager.listeners[radioId]? = some listener) {later : ListenerManager ρ}
    (halive : ∀ task radioId, later.Alive task radioId → manager.Alive task radioId)
    (hlisteners : later.listeners = manager.listeners.erase radioId)
    (hclosing : later.closing = ⟨radioId, listener.task⟩ :: manager.closing)
    (hnext : later.nextTask = manager.nextTask) : later.Sound := by
  have hmine : manager.owner radioId = some listener.task := by rw [owner, hslot]; rfl
  have howner : ∀ other, later.owner other =
      if radioId = other then none else manager.owner other := by
    intro other
    rw [owner, hlisteners, getElem?_erase_key]
    split
    · rfl
    · rfl
  refine ⟨?_, ?_, ?_⟩
  · intro other task htask
    rw [howner] at htask
    rw [hnext]
    split at htask
    · cases htask
    · have hold := h.slot other task htask
      exact ⟨hold.1, fun third hthird => hold.2 third (halive task third hthird)⟩
  · intro closing hmem
    rw [hclosing] at hmem
    rw [hnext]
    cases List.mem_cons.mp hmem with
    | inl heq =>
        subst heq
        have hold := h.slot radioId listener.task hmine
        exact ⟨hold.1, fun third hthird => hold.2 third (halive listener.task third hthird)⟩
    | inr hmem =>
        have hold := h.closes closing hmem
        exact ⟨hold.1, fun third hthird => hold.2 third (halive closing.task third hthird)⟩
  · intro task other htask
    rw [howner, hclosing]
    cases h.owned task other (halive task other htask) with
    | inl hold =>
        by_cases heq : radioId = other
        · subst heq
          rw [hmine] at hold
          cases hold
          exact Or.inr List.mem_cons_self
        · exact Or.inl (by rw [if_neg heq, hold])
    | inr hmem => exact Or.inr (List.mem_cons_of_mem _ hmem)

/-- What every step keeps, but the start of a controller: no new one is alive. -/
structure Continues (manager later : ListenerManager ρ) : Prop where
  sound : later.Sound
  alive : ∀ (task : Nat) (radioId : Int), later.Alive task radioId → manager.Alive task radioId

theorem Sound.release (h : manager.Sound) (radioId : Int) (loggerId : String) :
    Continues manager (manager.release radioId loggerId) := by
  rw [ListenerManager.release]
  split
  · exact ⟨h, fun _ _ => id⟩
  · next listener hslot =>
      have hsend : ∀ (sent : Bool) (task : Nat) (other : Int),
          (if sent then manager.sendTarget listener.task none else manager).Alive task other →
            manager.Alive task other := by
        intro sent task other hother
        cases sent with
        | true => exact (alive_sendTarget listener.task task none other).mp hother
        | false => exact hother
      dsimp only
      generalize ((dropReference listener.registrations loggerId).1 &&
        isTargetOf loggerId listener.target) = sent
      have hlisteners : (if sent then manager.sendTarget listener.task
          none else manager).listeners =
          manager.listeners := by cases sent <;> rfl
      have hclosing : (if sent then manager.sendTarget listener.task none else manager).closing =
          manager.closing := by cases sent <;> rfl
      have hnext : (if sent then manager.sendTarget listener.task none else manager).nextTask =
          manager.nextTask := by cases sent <;> rfl
      split
      · refine ⟨h.close hslot (hsend sent) ?_ ?_ hnext, hsend sent⟩
        · exact congrArg (·.erase radioId) hlisteners
        · exact congrArg (List.cons _) hclosing
      · refine ⟨h.putListener hslot
          { registrations := (dropReference listener.registrations loggerId).2
            target := if sent then none else listener.target
            task := listener.task } rfl (hsend sent) ?_ hclosing hnext, hsend sent⟩
        dsimp only
        rw [hlisteners]

theorem Sound.setTarget (h : manager.Sound) (radioId : Int) (loggerId : String) (enabled : Bool) :
    Continues manager
      ((manager.setTarget radioId loggerId enabled).toOption.elim manager Prod.snd) := by
  rw [ListenerManager.setTarget]
  split
  · exact ⟨h, fun _ _ => id⟩
  · next listener hslot =>
      split
      · exact ⟨h, fun _ _ => id⟩
      · next registration _ =>
          dsimp only
          generalize (if enabled then some { loggerId := loggerId, logId := registration.logId }
            else if isTargetOf loggerId listener.target then none else listener.target) = target
          split
          · exact ⟨h, fun _ _ => id⟩
          · have halive : ∀ (task : Nat) (other : Int),
                (manager.sendTarget listener.task target).Alive task other →
                  manager.Alive task other :=
              fun task other => (alive_sendTarget listener.task task target other).mp
            refine ⟨h.putListener hslot _ ?_ halive rfl rfl rfl, halive⟩
            rfl

theorem Sound.shutdownAll (h : manager.Sound) : Continues manager manager.shutdownAll := by
  refine ⟨⟨?_, ?_, ?_⟩, fun _ _ => id⟩
  · intro radioId task htask
    simp [owner, ListenerManager.shutdownAll] at htask
  · intro closing hmem
    cases List.mem_append.mp hmem with
    | inl hmem =>
        obtain ⟨⟨radioId, listener⟩, hslot, rfl⟩ := List.mem_map.mp hmem
        have hget := ExtTreeMap.mem_toList_iff_getElem?_eq_some.mp hslot
        exact h.slot radioId listener.task (by rw [owner, hget]; rfl)
    | inr hmem => exact h.closes closing hmem
  · intro task radioId htask
    refine Or.inr (List.mem_append.mpr ?_)
    cases h.owned task radioId htask with
    | inr hmem => exact Or.inr hmem
    | inl hslot =>
        obtain ⟨listener, hlistener, rfl⟩ := Option.map_eq_some_iff.mp hslot
        refine Or.inl (List.mem_map.mpr ⟨(radioId, listener), ?_, rfl⟩)
        exact ExtTreeMap.mem_toList_iff_getElem?_eq_some.mpr hlistener

theorem Sound.adjustController (h : manager.Sound) (task : Nat) {f : Controller ρ → Controller ρ}
    (hf : ∀ controller, (f controller).radioId = controller.radioId) :
    Continues manager (manager.adjustController task f) := by
  have halive : ∀ (other : Nat) (radioId : Int),
      (manager.adjustController task f).Alive other radioId → manager.Alive other radioId :=
    fun other radioId => (alive_adjustController hf task other radioId).mp
  exact ⟨h.of_same halive (fun _ => rfl) rfl rfl, halive⟩

theorem Sound.endController (h : manager.Sound) (task : Nat) :
    Continues manager (manager.endController task) := by
  have halive : ∀ (other : Nat) (radioId : Int),
      (manager.endController task).Alive other radioId → manager.Alive other radioId := by
    intro other radioId hother
    obtain ⟨controller, hcontroller, hradio⟩ := hother
    rw [ListenerManager.endController, getElem?_erase_key] at hcontroller
    split at hcontroller
    · cases hcontroller
    · exact ⟨controller, hcontroller, hradio⟩
  exact ⟨h.of_same halive (fun _ => rfl) rfl rfl, halive⟩

/-- A shutdown that is over had no controller left. -/
theorem Sound.finishShutdown (h : manager.Sound) (closing : Closing) :
    Continues manager (manager.finishShutdown closing) := by
  rw [ListenerManager.finishShutdown]
  split
  · exact ⟨h, fun _ _ => id⟩
  · next hended =>
      refine ⟨⟨h.slot, fun other hmem => ?_, fun task radioId htask => ?_⟩, fun _ _ => id⟩
      · exact h.closes other (List.mem_of_mem_erase hmem)
      · cases h.owned task radioId htask with
        | inl hslot => exact Or.inl hslot
        | inr hmem =>
            refine Or.inr ((List.mem_erase_of_ne fun heq => hended ?_).mpr hmem)
            obtain ⟨controller, hcontroller, -⟩ := htask
            rw [← heq, ExtTreeMap.contains_iff_mem, ExtTreeMap.mem_iff_isSome_getElem?, hcontroller]
            rfl

/-- A step continues with the controllers there are, or starts one where there is no slot. -/
theorem Sound.continues (h : manager.Sound) (rules : ListenerRules ρ) (action : ListenerAction)
    (hslot : ∀ radioId loggerId logId config initialMode,
      action = .acquire radioId loggerId logId config initialMode →
        manager.listeners[radioId]? ≠ none) :
    Continues manager (manager.step rules action) := by
  cases action with
  | acquire radioId loggerId logId config initialMode =>
      cases hlistener : manager.listeners[radioId]? with
      | none => exact absurd hlistener (hslot radioId loggerId logId config initialMode rfl)
      | some listener =>
          rw [step, acquire, hlistener]
          dsimp only
          split
          · exact ⟨h, fun _ _ => id⟩
          · refine ⟨h.putListener hlistener _ ?_ (fun _ _ => id) rfl rfl rfl, fun _ _ => id⟩
            rfl
  | release radioId loggerId => exact h.release radioId loggerId
  | setTarget radioId loggerId enabled => exact h.setTarget radioId loggerId enabled
  | shutdownAll => exact h.shutdownAll
  | radioUpdate task mode available =>
      refine h.adjustController task fun controller => ?_
      split
      · rfl
      · rfl
  | reconcile task available => exact h.adjustController task fun controller => rfl
  | endController task => exact h.endController task
  | finishShutdown closing => exact h.finishShutdown closing

/-- The new controller is alone exactly when no shutdown waits for one of its radio. -/
theorem Sound.oneListener_started (h : manager.Sound) (hone : manager.OneListener) {radioId : Int}
    (hslot : manager.listeners[radioId]? = none) (loggerId : String) (logId : Int)
    (config : RadioConfig) (initialMode : String) (rules : ListenerRules ρ) :
    (manager.step rules (.acquire radioId loggerId logId config initialMode)).OneListener ↔
      ∀ closing ∈ manager.closing, closing.radioId = radioId →
        manager.controllers[closing.task]? = none := by
  have halive := alive_started hslot loggerId logId config initialMode rules
  rw [oneListener_iff]
  constructor
  · intro hlater closing hmem hradio
    cases hcontroller : manager.controllers[closing.task]? with
    | none => rfl
    | some controller =>
        have hcloses := h.closes closing hmem
        have hsame := hcloses.2 controller.radioId ⟨controller, hcontroller, rfl⟩
        have hold := (halive closing.task radioId).mpr
          ((if_neg (Nat.ne_of_gt hcloses.1)).mpr ⟨controller, hcontroller, hsame.trans hradio⟩)
        have hnew := (halive manager.nextTask radioId).mpr ((if_pos rfl).mpr rfl)
        exact absurd (hlater _ _ radioId hold hnew) (Nat.ne_of_lt hcloses.1)
  · intro hclosed
    have halone : ∀ task : Nat, ¬ manager.Alive task radioId := by
      intro task htask
      cases h.owned task radioId htask with
      | inl howner =>
          rw [owner, hslot] at howner
          cases howner
      | inr hmem =>
          obtain ⟨controller, hcontroller, -⟩ := htask
          have hnone := hclosed _ hmem rfl
          rw [hcontroller] at hnone
          cases hnone
    intro task other third htask hother
    rw [halive] at htask hother
    split at htask
    · next htask' =>
        split at hother
        · next hother' => exact htask'.symm.trans hother'
        · rw [← htask] at hother
          exact absurd hother (halone other)
    · split at hother
      · rw [← hother] at htask
        exact absurd htask (halone task)
      · exact hone.alive task other third htask hother

/-- From one controller a radio, the steps that are allowed are those that keep it so. -/
theorem Sound.step (h : manager.Sound) (rules : ListenerRules ρ) (action : ListenerAction) :
    (manager.step rules action).Sound ∧ (manager.OneListener →
      ((manager.step rules action).OneListener ↔ manager.StepKeeps action)) := by
  by_cases hslot : ∀ radioId loggerId logId config initialMode,
      action = .acquire radioId loggerId logId config initialMode →
        manager.listeners[radioId]? ≠ none
  · have hcontinues := h.continues rules action hslot
    refine ⟨hcontinues.sound, fun hone => ?_⟩
    refine iff_of_true (oneListener_iff.mpr fun task other radioId htask hother => ?_) ?_
    · exact hone.alive task other radioId (hcontinues.alive task radioId htask)
        (hcontinues.alive other radioId hother)
    · cases action with
      | acquire radioId loggerId logId config initialMode =>
          intro hnone
          exact absurd hnone (hslot radioId loggerId logId config initialMode rfl)
      | _ => trivial
  · push Not at hslot
    obtain ⟨radioId, loggerId, logId, config, initialMode, rfl, hslot⟩ := hslot
    refine ⟨h.started hslot loggerId logId config initialMode rules, fun hone => ?_⟩
    rw [h.oneListener_started hone hslot]
    exact ⟨fun hclosed _ => hclosed, fun hkeeps => hkeeps hslot⟩

theorem sound_empty : Sound ({} : ListenerManager ρ) where
  slot _ _ hslot := by simp [owner] at hslot
  closes _ hmem := nomatch hmem
  owned _ _ halive := by simp [Alive] at halive

theorem oneListener_empty : OneListener ({} : ListenerManager ρ) := by
  rw [oneListener_iff]
  intro task _ radioId halive
  simp [Alive] at halive

/-- The runs with one controller a radio throughout are those without an `acquire` between a
slot's removal and the end of its controller. -/
theorem keeps_iff_oneListener (rules : ListenerRules ρ) (actions : List ListenerAction) :
    Runs.Keeps (fun manager action => step manager rules action) StepKeeps {} actions ↔
      ∀ earlier, earlier <+: actions → (run {} rules earlier).OneListener :=
  Runs.keeps_iff_forall_prefix Sound OneListener
    (fun _ action hsound => (hsound.step rules action).1)
    (fun _ action hsound hone => (hsound.step rules action).2 hone)
    sound_empty oneListener_empty actions

end ListenerManager

/-- Of both managers: one controller of a radio is alive throughout a run, and alone holds the
port, exactly when no `acquire` comes between a slot's removal and its controller's end. -/
theorem managers_oneListener_iff (actions : List ListenerAction) :
    ((∀ earlier, earlier <+: actions → (ListenerManager.run {} WsjtX.rules earlier).OneListener) ↔
      Runs.Keeps (fun manager action => ListenerManager.step manager WsjtX.rules action)
        ListenerManager.StepKeeps {} actions) ∧
    ((∀ earlier, earlier <+: actions →
        (ListenerManager.run {} DigitalIo.rules earlier).OneListener) ↔
      Runs.Keeps (fun manager action => ListenerManager.step manager DigitalIo.rules action)
        ListenerManager.StepKeeps {} actions) :=
  ⟨(ListenerManager.keeps_iff_oneListener WsjtX.rules actions).symm,
    (ListenerManager.keeps_iff_oneListener DigitalIo.rules actions).symm⟩

/-- The only logger of a radio is given back, and another one comes before the controller that
still listens was told to shut down. -/
def overlappingActions : List ListenerAction :=
  [.acquire 1 "a" 10 ⟨true, true, true⟩ "DATA", .setTarget 1 "a" true, .reconcile 0 true,
    .release 1 "a", .acquire 1 "b" 11 ⟨true, true, true⟩ "DATA"]

theorem not_oneListener_overlapping :
    ¬ (ListenerManager.run {} WsjtX.rules overlappingActions).OneListener ∧
      ¬ (ListenerManager.run {} DigitalIo.rules overlappingActions).OneListener := by
  constructor
  · intro h
    have hold : (ListenerManager.run {} WsjtX.rules overlappingActions).HoldsPort 0 1 :=
      ⟨_, rfl, rfl, rfl⟩
    have hnew : (ListenerManager.run {} WsjtX.rules overlappingActions).Alive 1 1 := ⟨_, rfl, rfl⟩
    cases h.port 0 1 1 hold hnew
  · intro h
    have hold : (ListenerManager.run {} DigitalIo.rules overlappingActions).HoldsPort 0 1 :=
      ⟨_, rfl, rfl, rfl⟩
    have hnew : (ListenerManager.run {} DigitalIo.rules overlappingActions).Alive 1 1 :=
      ⟨_, rfl, rfl⟩
    cases h.port 0 1 1 hold hnew

end Log73.RadioIo
