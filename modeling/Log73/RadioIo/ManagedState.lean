import Log73.Library.Histories
import Log73.RadioIo.ManagedRadio

/-!
What a managed radio publishes over every run: whoever subscribes to it and has read it once
knows its status and its state from then on by what they are told, and the loggers see a radio
online only while it has a connection.
-/

namespace Log73.RadioIo

open Following

/-- The task has no connection that could be used, or shuts down one that was lost. -/
def RadioPhase.away : RadioPhase → Bool
  | .waiting | .connecting => true
  | .closing _ reconnect | .joining _ reconnect => reconnect
  | .connected _ | .forwarding _ _ | .returned => false

namespace ManagedRadio

variable {radio next last : ManagedRadio}

/-- What the subscribers of a radio are told from one state of its task to a later one. -/
structure Told (radio next : ManagedRadio) : Prop where
  status : ∃ changes, next.statusUpdates = radio.statusUpdates ++ changes ∧
    Follows radio.currentStatus changes next.currentStatus
  state : ∃ changes : List RadioState, next.updates = radio.updates ++ changes ∧
    Follows radio.current (changes.map some) next.current

theorem Told.silent (hstatus : next.currentStatus = radio.currentStatus)
    (hstatusUpdates : next.statusUpdates = radio.statusUpdates)
    (hstate : next.current = radio.current) (hupdates : next.updates = radio.updates) :
    radio.Told next :=
  ⟨⟨[], by rw [hstatusUpdates, List.append_nil], hstatus ▸ .start⟩,
    ⟨[], by rw [hupdates, List.append_nil], hstate ▸ .start⟩⟩

theorem Told.refl (radio : ManagedRadio) : radio.Told radio := .silent rfl rfl rfl rfl

theorem Told.trans (h : radio.Told next) (hlast : next.Told last) : radio.Told last := by
  obtain ⟨statuses, hstatuses, hstatus⟩ := h.status
  obtain ⟨states, hstates, hstate⟩ := h.state
  obtain ⟨laterStatuses, hlaterStatuses, hlaterStatus⟩ := hlast.status
  obtain ⟨laterStates, hlaterStates, hlaterState⟩ := hlast.state
  constructor
  · refine ⟨statuses ++ laterStatuses, ?_, hstatus.trans hlaterStatus⟩
    rw [hlaterStatuses, hstatuses, List.append_assoc]
  · refine ⟨states ++ laterStates, ?_, ?_⟩
    · rw [hlaterStates, hstates, List.append_assoc]
    · rw [List.map_append]
      exact hstate.trans hlaterState

/-- Only what is published is told. -/
theorem Told.keep (h : radio.Told next) (hstatus : last.currentStatus = next.currentStatus)
    (hstatusUpdates : last.statusUpdates = next.statusUpdates)
    (hstate : last.current = next.current) (hupdates : last.updates = next.updates) :
    radio.Told last := h.trans (.silent hstatus hstatusUpdates hstate hupdates)

theorem Told.withPhase (h : radio.Told next) (phase : RadioPhase) :
    radio.Told { next with phase := phase } := h.keep rfl rfl rfl rfl

/-! ### What each step tells -/

theorem online_setRadioStatus (radio : ManagedRadio) (online : Bool) :
    (radio.setRadioStatus online).currentStatus.online = online := by
  unfold setRadioStatus
  split
  · assumption
  · rfl

theorem told_setRadioStatus (radio : ManagedRadio) (online : Bool) :
    radio.Told (radio.setRadioStatus online) := by
  unfold setRadioStatus
  split
  · exact .refl radio
  · next hchanged =>
      refine ⟨⟨[{ online := online }], rfl, .one fun heq => hchanged ?_⟩, [], ?_, .start⟩
      · rw [← heq]
      · rw [List.append_nil]

theorem told_publish {state : RadioState} (h : radio.current ≠ some state) :
    radio.Told (radio.publish state) :=
  ⟨⟨[], (List.append_nil _).symm, .start⟩, [state], rfl, .one h.symm⟩

theorem told_publishCatSnapshot [Platform] (radio : ManagedRadio) (state : CatState) :
    radio.Told (radio.publishCatSnapshot state) := by
  have hstatus := told_setRadioStatus radio (state.connection = .ready)
  unfold publishCatSnapshot
  dsimp only
  split
  · exact hstatus
  · split
    · exact hstatus
    · next hchanged => exact hstatus.trans (told_publish hchanged)

theorem online_publishCatSnapshot [Platform] (radio : ManagedRadio) (state : CatState) :
    (radio.publishCatSnapshot state).currentStatus.online = decide (state.connection = .ready) := by
  have hstatus := online_setRadioStatus radio (state.connection = .ready)
  unfold publishCatSnapshot
  dsimp only
  split
  · exact hstatus
  · split <;> exact hstatus

theorem told_publishRequestedLoggerMode [Platform] (radio : ManagedRadio) (mode : String) :
    radio.Told (radio.publishRequestedLoggerMode mode) := by
  unfold publishRequestedLoggerMode
  dsimp only
  split
  · exact .refl radio
  · next state hcurrent =>
      split
      · exact .refl radio
      · next hchanged =>
          refine told_publish fun heq => hchanged ?_
          rw [hcurrent, Option.some.injEq] at heq
          rw [heq]

theorem told_setMode [Platform] (radio : ManagedRadio) (cat : CatRadio) (mode : String)
    (lastError : Option RadioError) (radioModes : List Mode) :
    radio.Told (radio.setMode cat mode lastError radioModes).2 := by
  induction radioModes generalizing lastError with
  | nil => exact .refl radio
  | cons radioMode radioModes ih =>
      unfold setMode
      split
      · exact told_publishRequestedLoggerMode radio mode
      · exact ih _

theorem told_applyCommand [Platform] (radio : ManagedRadio) (cat : CatRadio) (bands : List Band)
    (command : RadioCommand) (connection : CatConnection) :
    radio.Told (radio.applyCommand cat bands command connection).2 := by
  cases command with
  | setMode mode =>
      simp only [applyCommand]
      exact told_setMode ..
  | _ =>
      simp only [applyCommand]
      exact .refl radio

theorem told_lose (radio : ManagedRadio) (connection : CatConnection) :
    radio.Told (radio.lose connection) := (told_setRadioStatus radio false).withPhase _

theorem told_handleUpdate [Platform] (radio : ManagedRadio) (connection : CatConnection)
    (update : CatUpdate) : radio.Told (radio.handleUpdate connection update) := by
  cases update with
  | update state =>
      unfold handleUpdate
      dsimp only
      split
      · exact (told_publishCatSnapshot radio state).withPhase _
      · exact (told_publishCatSnapshot radio state).withPhase _
  | lagged latest => exact (told_publishCatSnapshot radio latest).withPhase _
  | closed => exact told_lose radio connection

theorem told_finishCommand (radio : ManagedRadio) (connection : CatConnection)
    (result : Except RadioError CatConnection) :
    radio.Told (radio.finishCommand connection result) := by
  cases result with
  | ok other => exact (Told.refl radio).withPhase _
  | error error =>
      unfold finishCommand
      dsimp only
      split
      · exact (Told.refl radio).withPhase _
      split
      · exact told_lose radio connection
      · exact (Told.refl radio).withPhase _

theorem told_handleCommand [Platform] (radio : ManagedRadio) (connection : CatConnection)
    (cat : CatRadio) (bands : List Band) (command : RadioCommand) :
    radio.Told (radio.handleCommand connection cat bands command) := by
  have hown : radio.Told (let applied := radio.applyCommand cat bands command connection
      applied.2.finishCommand connection applied.1) :=
    (told_applyCommand radio cat bands command connection).trans (told_finishCommand _ _ _)
  cases command with
  | sendText text waitForCompletion => exact .silent rfl rfl rfl rfl
  | stopKeying | setWpm _ => exact (Told.refl radio).withPhase _
  | _ => exact hown

theorem told_forward (radio : ManagedRadio) (connection : CatConnection)
    (command : CwTaskCommand) : radio.Told (radio.forward connection command) := by
  unfold forward
  split
  · split <;> exact .silent rfl rfl rfl rfl
  · split <;> exact .silent rfl rfl rfl rfl

theorem told_withConnection (radio : ManagedRadio) (f : CatConnection → CatConnection) :
    radio.Told (radio.withConnection f) := by
  unfold withConnection
  split <;> exact .silent rfl rfl rfl rfl

theorem told_step [Platform] (radio : ManagedRadio) (move : RadioMove) :
    radio.Told (radio.step move) := by
  have hrefl := Told.refl radio
  cases move with
  | receive | keyer _ => exact told_withConnection radio _
  | shutdown =>
      unfold step
      cases radio.phase <;> first | exact hrefl | exact hrefl.withPhase _
  | deadline =>
      unfold step
      cases radio.phase <;> first | exact hrefl | exact hrefl.withPhase _
  | connect result =>
      unfold step
      cases radio.phase with
      | connecting =>
          cases result with
          | ok connected => exact (told_publishCatSnapshot radio connected.state).withPhase _
          | error error => exact (told_setRadioStatus radio false).withPhase _
      | _ => exact hrefl
  | update update =>
      unfold step
      cases radio.phase with
      | connected connection => exact told_handleUpdate radio connection update
      | _ => exact hrefl
  | command command cat bands =>
      have hfail : ∀ command reason,
          radio.Told (radio.failUnavailableRadioCommand command reason) := by
        intro command reason
        unfold failUnavailableRadioCommand
        split <;> exact .silent rfl rfl rfl rfl
      unfold step
      cases radio.phase with
      | waiting | connecting =>
          cases command with
          | none => exact hrefl.withPhase _
          | some command => exact hfail command _
      | connected connection =>
          cases command with
          | none => exact hrefl.withPhase _
          | some command => exact told_handleCommand radio connection cat bands command
      | forwarding _ _ | closing _ _ | joining _ _ | returned => exact hrefl
  | forward =>
      unfold step
      cases radio.phase with
      | forwarding connection command => exact told_forward radio connection command
      | closing connection reconnect =>
          dsimp only
          unfold close
          split
          · exact hrefl.withPhase _
          · split
            · exact hrefl.withPhase _
            · exact hrefl
      | _ => exact hrefl
  | join =>
      unfold step
      cases radio.phase with
      | joining connection reconnect =>
          dsimp only
          unfold join
          split
          · exact .silent rfl rfl rfl rfl
          · exact hrefl
      | _ => exact hrefl

/-! ### No radio is online without a connection -/

/-- A radio that is away is known to be offline. -/
def Candid (radio : ManagedRadio) : Prop :=
  radio.phase.away = true → radio.currentStatus.online = false

theorem candid_handleUpdate [Platform] (radio : ManagedRadio) (connection : CatConnection)
    (update : CatUpdate) : (radio.handleUpdate connection update).Candid := by
  intro haway
  cases update with
  | update state =>
      unfold handleUpdate at haway ⊢
      dsimp only at haway ⊢
      split at haway
      · next herror =>
          rw [if_pos herror]
          refine (online_publishCatSnapshot radio state).trans (decide_eq_false ?_)
          rw [herror]
          exact CatConnectionState.noConfusion
      · cases haway
  | lagged latest => cases haway
  | closed => exact online_setRadioStatus radio false

theorem candid_finishCommand (radio : ManagedRadio) (connection : CatConnection)
    (result : Except RadioError CatConnection) :
    (radio.finishCommand connection result).Candid := by
  intro haway
  cases result with
  | ok other => cases haway
  | error error =>
      unfold finishCommand at haway ⊢
      dsimp only at haway ⊢
      split at haway
      · cases haway
      · next hsupported =>
          rw [if_neg hsupported]
          split at haway
          · next hreconnect =>
              rw [if_pos hreconnect]
              exact online_setRadioStatus radio false
          · cases haway

theorem candid_handleCommand [Platform] (radio : ManagedRadio) (connection : CatConnection)
    (cat : CatRadio) (bands : List Band) (command : RadioCommand) :
    (radio.handleCommand connection cat bands command).Candid := by
  have hown := candid_finishCommand (radio.applyCommand cat bands command connection).2 connection
    (radio.applyCommand cat bands command connection).1
  cases command with
  | sendText _ _ | stopKeying | setWpm _ =>
      intro haway
      cases haway
  | _ => exact hown

/-- A phase in which the task is not further away. -/
theorem Candid.withPhase (h : radio.Candid) {phase : RadioPhase}
    (hphase : phase.away = true → radio.phase.away = true) :
    Candid { radio with phase := phase } := fun haway => h (hphase haway)

theorem Candid.withConnection (h : radio.Candid) (f : CatConnection → CatConnection) :
    (radio.withConnection f).Candid := by
  unfold ManagedRadio.withConnection
  cases hradio : radio.phase with
  | waiting | connecting | returned => exact h
  | connected connection => exact h.withPhase fun haway => hradio ▸ haway
  | forwarding connection command => exact h.withPhase fun haway => hradio ▸ haway
  | closing connection reconnect => exact h.withPhase fun haway => hradio ▸ haway
  | joining connection reconnect => exact h.withPhase fun haway => hradio ▸ haway

theorem Candid.step [Platform] (h : radio.Candid) (move : RadioMove) :
    (radio.step move).Candid := by
  have hnever : ∀ (next : ManagedRadio) (phase : RadioPhase), phase.away = false →
      Candid { next with phase := phase } := fun next phase hphase haway =>
    absurd (hphase.symm.trans haway) Bool.false_ne_true
  cases move with
  | receive | keyer _ => exact h.withConnection _
  | shutdown =>
      unfold ManagedRadio.step
      cases radio.phase with
      | waiting | connecting => exact hnever radio .returned rfl
      | connected connection => exact hnever radio (.closing connection false) rfl
      | _ => exact h
  | deadline =>
      unfold ManagedRadio.step
      cases hradio : radio.phase with
      | waiting => exact h.withPhase fun _ => hradio ▸ rfl
      | _ => exact h
  | connect result =>
      unfold ManagedRadio.step
      cases radio.phase with
      | connecting =>
          cases result with
          | ok connected => exact hnever (radio.publishCatSnapshot connected.state) _ rfl
          | error error => exact fun _ => online_setRadioStatus radio false
      | _ => exact h
  | update update =>
      unfold ManagedRadio.step
      cases radio.phase with
      | connected connection => exact candid_handleUpdate radio connection update
      | _ => exact h
  | command command cat bands =>
      have hfail : ∀ command reason, (radio.failUnavailableRadioCommand command reason).Candid := by
        intro command reason
        unfold failUnavailableRadioCommand
        split <;> exact h
      unfold ManagedRadio.step
      cases radio.phase with
      | waiting | connecting =>
          cases command with
          | none => exact hnever radio .returned rfl
          | some command => exact hfail command _
      | connected connection =>
          cases command with
          | none => exact hnever radio (.closing connection false) rfl
          | some command => exact candid_handleCommand radio connection cat bands command
      | forwarding _ _ | closing _ _ | joining _ _ | returned => exact h
  | forward =>
      unfold ManagedRadio.step
      cases hradio : radio.phase with
      | forwarding connection command =>
          dsimp only
          unfold ManagedRadio.forward
          split
          · split
            · exact hnever _ _ rfl
            · exact hnever radio _ rfl
          · split
            · exact hnever radio _ rfl
            · exact h
      | closing connection reconnect =>
          have haway : ∀ other, (RadioPhase.joining other reconnect).away = true →
              radio.phase.away = true := by
            intro other haway
            rw [hradio]
            exact haway
          dsimp only
          unfold ManagedRadio.close
          split
          · exact h.withPhase (haway connection)
          · split
            · exact h.withPhase (haway _)
            · exact h
      | _ => exact h
  | join =>
      unfold ManagedRadio.step
      cases hradio : radio.phase with
      | joining connection reconnect =>
          dsimp only
          unfold ManagedRadio.join
          split
          · intro haway
            refine h ?_
            rw [hradio]
            cases reconnect <;> exact haway
          · exact h
      | _ => exact h

/-! ### Every run -/

/-- Who has read the status and the state of a radio at any time knows them ever after by what they
are told, never the same twice in a row; and a radio that waits, connects or shuts down what is left
of a lost connection is known to be offline. -/
theorem run_told [Platform] (config : ManagedConfig) (earlier later : List RadioMove) :
    let radio := ({ config := config } : ManagedRadio).run earlier
    let next := radio.run later
    (∃ changes, next.statusUpdates = radio.statusUpdates ++ changes ∧
      changes.getLastD radio.currentStatus = next.currentStatus ∧
      (radio.currentStatus :: changes).IsChain (· ≠ ·)) ∧
    (∃ changes, next.updates = radio.updates ++ changes ∧
      (changes.map some).getLastD radio.current = next.current ∧
      (radio.current :: changes.map some).IsChain (· ≠ ·)) ∧
    (next.phase.away = true → next.currentStatus.online = false) := by
  intro radio next
  have htold : ∀ (moves : List RadioMove) (radio : ManagedRadio), radio.Told (radio.run moves) := by
    intro moves
    induction moves with
    | nil => exact Told.refl
    | cons move moves ih => exact fun radio => (told_step radio move).trans (ih (radio.step move))
  have hcandid : ∀ (moves : List RadioMove) (radio : ManagedRadio), radio.Candid →
      (radio.run moves).Candid := fun moves radio h =>
    Runs.invariant_run_of_forall Candid (fun radio move h => h.step move) h moves
  obtain ⟨⟨statuses, hstatuses, hstatus⟩, states, hstates, hstate⟩ := htold later radio
  exact ⟨⟨statuses, hstatuses, hstatus.getLastD_eq, hstatus.isChain⟩,
    ⟨states, hstates, hstate.getLastD_eq, hstate.isChain⟩,
    hcandid later radio (hcandid earlier _ fun _ => rfl)⟩

end ManagedRadio

end Log73.RadioIo
