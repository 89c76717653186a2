import Log73.Library.Checks
import Log73.RadioIo.CwQueue
import Log73.RadioIo.ManagedRadio

/-!
The texts of a managed radio over every run: whatever becomes of its connections, each text it
takes is answered once, and the keyers get the texts in the order in which they were taken.
-/

namespace Log73.RadioIo

/-! ### A step of the keying task -/

def CwTaskCommand.isText : CwTaskCommand → Bool
  | .sendText _ _ => true
  | _ => false

/-- The task goes on, having taken some texts. -/
structure CwTask.Proceeds (task next : CwTask) (texts : Nat) : Prop where
  received : next.received = task.received + texts
  live : next.phase.over = false

namespace CwTask

variable {task : CwTask}

theorem received_nextSend : task.nextSend.received = task.received := by
  unfold nextSend
  split <;> rfl

theorem over_nextSend : task.nextSend.phase.over = false := by
  unfold nextSend
  split <;> rfl

theorem received_finish (send : PendingCwSend) (result : Except String Unit) :
    (task.finish send result).received = task.received := by
  unfold finish
  dsimp only
  split
  · rfl
  · exact received_nextSend

theorem over_finish (send : PendingCwSend) (result : Except String Unit) :
    (task.finish send result).phase.over = isShutdown result := by
  unfold finish
  dsimp only
  split
  · next hdown => exact hdown.symm
  · next hdown => rw [over_nextSend, Bool.eq_false_iff.mpr hdown]

theorem proceeds_finish {send : PendingCwSend} {result : Except String Unit}
    (h : isShutdown result = false) : task.Proceeds (task.finish send result) 0 :=
  ⟨received_finish send result, (over_finish send result).trans h⟩

theorem proceeds_waitCommand {send : PendingCwSend} {context : WaitContext}
    (hlive : task.phase.over = false) (hstop : isShutdown (.error context.stopReason) = false)
    {command : CwTaskCommand} (h : command ≠ .shutdown) :
    task.Proceeds (task.waitCommand send (some command) context)
      (if command.isText then 1 else 0) := by
  cases command with
  | sendText text waitForCompletion => exact ⟨rfl, hlive⟩
  | setWpm wpm => exact ⟨rfl, hlive⟩
  | stop =>
      exact ⟨received_finish send (.error context.stopReason),
        (over_finish send (.error context.stopReason)).trans hstop⟩
  | shutdown => exact absurd rfl h

theorem shutdown_waitCommand {send : PendingCwSend} (context : WaitContext)
    (hdown : isShutdown (.error context.shutdownReason) = true) :
    (task.waitCommand send (some .shutdown) context).received = task.received ∧
      (task.waitCommand send (some .shutdown) context).phase.over = true :=
  ⟨received_finish send (.error context.shutdownReason),
    (over_finish send (.error context.shutdownReason)).trans hdown⟩

/-- A task that takes a command other than its shutdown goes on. -/
theorem proceeds_receive [Platform] (hreceives : task.phase.receives = true)
    {command : CwTaskCommand} (h : command ≠ .shutdown) :
    task.Proceeds (task.step (.command (some command))) (if command.isText then 1 else 0) := by
  unfold step
  cases hphase : task.phase with
  | receiving =>
      cases command with
      | sendText text waitForCompletion => exact ⟨rfl, rfl⟩
      | stop => exact ⟨rfl, congrArg CwPhase.over hphase⟩
      | setWpm wpm => exact ⟨rfl, congrArg CwPhase.over hphase⟩
      | shutdown => exact absurd rfl h
  | voicePlayback send => exact proceeds_waitCommand (congrArg CwPhase.over hphase) (by decide) h
  | busyWait send => exact proceeds_waitCommand (congrArg CwPhase.over hphase) (by decide) h
  | idleWait send => exact proceeds_waitCommand (congrArg CwPhase.over hphase) (by decide) h
  | radioCatWait send => exact proceeds_waitCommand (congrArg CwPhase.over hphase) (by decide) h
  | sending send => rw [hphase] at hreceives; cases hreceives
  | exited => rw [hphase] at hreceives; cases hreceives

/-- A task that takes its shutdown is over. -/
theorem shutdown_receive [Platform] (hreceives : task.phase.receives = true) :
    (task.step (.command (some .shutdown))).received = task.received ∧
      (task.step (.command (some .shutdown))).phase.over = true := by
  unfold step
  cases hphase : task.phase with
  | receiving => exact ⟨rfl, rfl⟩
  | voicePlayback send => exact shutdown_waitCommand voiceContext (by decide)
  | busyWait send | idleWait send | radioCatWait send =>
      exact shutdown_waitCommand cwContext (by decide)
  | sending send => rw [hphase] at hreceives; cases hreceives
  | exited => rw [hphase] at hreceives; cases hreceives

theorem proceeds_sendText [Platform] {send : PendingCwSend} {mode : Option Mode}
    {play : Except String Unit} {queued : Except String CwSendCompletion}
    (h : (CwMove.answer mode play queued).Foreign) :
    task.Proceeds (task.sendText send mode play queued) 0 := by
  obtain ⟨hplay, hqueued⟩ := h
  unfold sendText
  split
  · exact proceeds_finish rfl
  split
  · unfold sendVoiceFile
    split
    · dsimp only
      cases play with
      | error error => exact ⟨received_finish send _, (over_finish send _).trans hplay⟩
      | ok played => exact ⟨rfl, rfl⟩
    · exact proceeds_finish (by decide)
  · split
    · exact proceeds_finish (by decide)
    · dsimp only
      cases queued with
      | error error => exact ⟨received_finish send _, (over_finish send _).trans hqueued⟩
      | ok completion =>
          dsimp only
          split
          · exact ⟨received_finish send _, over_finish send _⟩
          · split <;> exact ⟨rfl, rfl⟩

/-- By itself the task takes no text and does not end. -/
theorem proceeds_step [Platform] (hlive : task.phase.over = false) {move : CwMove}
    (hown : ∀ command, move ≠ .command command) (hforeign : move.Foreign) :
    task.Proceeds (task.step move) 0 := by
  have hsame : task.Proceeds task 0 := ⟨rfl, hlive⟩
  unfold step
  cases hphase : task.phase with
  | receiving =>
      cases move with
      | command command => exact absurd rfl (hown command)
      | _ => exact hsame
  | sending send =>
      cases move with
      | answer mode play queued => exact proceeds_sendText hforeign
      | _ => exact hsame
  | voicePlayback send =>
      cases move with
      | command command => exact absurd rfl (hown command)
      | playbackDone result =>
          cases result with
          | none =>
              exact @proceeds_finish _ send (.error "voice keyer thread unavailable") (by decide)
          | some result => exact proceeds_finish hforeign
      | _ => exact hsame
  | busyWait send =>
      cases move with
      | command command => exact absurd rfl (hown command)
      | deadline =>
          exact @proceeds_finish _ send (.error "cw keyer did not become busy") (by decide)
      | status answer =>
          dsimp only [waitUntilBusyOrStopped]
          split
          · exact ⟨rfl, rfl⟩
          · exact hsame
          · next hstatus => exact proceeds_finish (keyerStatus_foreign hforeign hstatus)
      | _ => exact hsame
  | idleWait send =>
      cases move with
      | command command => exact absurd rfl (hown command)
      | status answer =>
          dsimp only [waitUntilIdleOrStopped]
          split
          · exact proceeds_finish rfl
          · exact hsame
          · next hstatus => exact proceeds_finish (keyerStatus_foreign hforeign hstatus)
      | _ => exact hsame
  | radioCatWait send =>
      cases move with
      | command command => exact absurd rfl (hown command)
      | update update =>
          dsimp only [waitUntilRadioCatCwCompleteOrStopped]
          split
          · next heq => cases heq
          · exact proceeds_finish rfl
          · exact proceeds_finish rfl
          · exact proceeds_finish (by decide)
          · exact hsame
      | _ => exact hsame
  | exited => rw [hphase] at hlive; cases hlive

end CwTask

/-! ### A connection -/

/-- The texts in a channel. -/
def textsIn (channel : List CwTaskCommand) : Nat := channel.countP CwTaskCommand.isText

/-- The numbers of the texts a connection has answered, among all that the radio took. -/
def CatConnection.answered (connection : CatConnection) : List Nat :=
  (completions connection.task.log).map (connection.base + ·)

/-- The numbers of the texts a connection has handed to a keyer. -/
def CatConnection.handedTexts (connection : CatConnection) : List Nat :=
  (handed connection.task.log).map fun send => connection.base + send.completed

/-- A connection in use: `ahead` of the taken texts are not in its channel yet. -/
structure CatConnection.Live [Platform] (connection : CatConnection) (taken ahead : Nat) :
    Prop where
  queued : connection.task.Queued
  numbered : connection.base + connection.task.received + textsIn connection.channel + ahead = taken
  running : connection.task.phase.over = false
  unended : CwTaskCommand.shutdown ∉ connection.channel

/-- A connection whose keying task is told to end, or has ended with nothing left in its channel. -/
structure CatConnection.Leaving [Platform] (connection : CatConnection) (taken : Nat) : Prop where
  queued : connection.task.Queued
  numbered : connection.base + connection.task.received + textsIn connection.channel = taken
  last : (connection.task.phase.over = false ∧ ∃ before,
      connection.channel = before ++ [CwTaskCommand.shutdown] ∧ CwTaskCommand.shutdown ∉ before) ∨
    (connection.task.phase.over = true ∧ connection.channel = [])

namespace CatConnection

variable {connection : CatConnection} {taken ahead : Nat}

theorem textsIn_append (channel later : List CwTaskCommand) :
    textsIn (channel ++ later) = textsIn channel + textsIn later := List.countP_append

theorem Live.receive [Platform] (h : connection.Live taken ahead) :
    connection.receive.Live taken ahead := by
  unfold CatConnection.receive
  split
  · exact h
  · next command channel hchannel =>
      split
      · next hreceives =>
          have hne : command ≠ .shutdown := by
            rintro rfl
            exact h.unended (hchannel ▸ List.mem_cons_self)
          have hproceeds := CwTask.proceeds_receive hreceives hne
          refine ⟨h.queued.step (.command (some command)) trivial, ?_, hproceeds.live,
            fun hmem => h.unended ?_⟩
          · have hnumbered := h.numbered
            rw [hchannel, textsIn, List.countP_cons] at hnumbered
            have hreceived := hproceeds.received
            dsimp only
            rw [hreceived, textsIn]
            omega
          · exact hchannel ▸ List.mem_cons_of_mem _ hmem
      · exact h

theorem Leaving.receive [Platform] (h : connection.Leaving taken) :
    connection.receive.Leaving taken := by
  unfold CatConnection.receive
  split
  · exact h
  · next command channel hchannel =>
      split
      · next hreceives =>
          have hqueued := h.queued.step (.command (some command)) trivial
          have hnumbered := h.numbered
          rw [hchannel, textsIn, List.countP_cons] at hnumbered
          rcases h.last with ⟨-, before, hbefore, hnone⟩ | ⟨-, hempty⟩
          · rw [hchannel] at hbefore
            cases before with
            | nil =>
                obtain ⟨rfl, rfl⟩ := List.cons.inj hbefore
                obtain ⟨hreceived, hover⟩ := CwTask.shutdown_receive hreceives
                refine ⟨hqueued, ?_, Or.inr ⟨hover, rfl⟩⟩
                dsimp only
                rw [hreceived, textsIn]
                simpa [CwTaskCommand.isText] using hnumbered
            | cons first before =>
                obtain ⟨rfl, hrest⟩ := List.cons.inj hbefore
                have hne : command ≠ .shutdown := fun heq => hnone (heq ▸ List.mem_cons_self)
                have hproceeds := CwTask.proceeds_receive hreceives hne
                refine ⟨hqueued, ?_, Or.inl ⟨hproceeds.live, before, hrest, fun hmem =>
                  hnone (List.mem_cons_of_mem _ hmem)⟩⟩
                have hreceived := hproceeds.received
                dsimp only
                rw [hreceived, textsIn]
                omega
          · rw [hchannel] at hempty
            cases hempty
      · exact h

theorem Live.keyer [Platform] (h : connection.Live taken ahead) {move : CwMove}
    (hforeign : move.Foreign) : (connection.keyer move).Live taken ahead := by
  unfold CatConnection.keyer
  split
  · exact h
  · next hown =>
      have hproceeds := CwTask.proceeds_step h.running
          (fun command heq => hown command heq) hforeign
      exact ⟨h.queued.step move hforeign, by
        have hreceived := hproceeds.received
        have hnumbered := h.numbered
        dsimp only
        omega, hproceeds.live, h.unended⟩

theorem step_of_over [Platform] {task : CwTask} (h : task.phase.over = true) (move : CwMove) :
    task.step move = task := by
  unfold CwTask.step
  cases hphase : task.phase with
  | exited => rfl
  | _ => rw [hphase] at h; cases h

theorem Leaving.keyer [Platform] (h : connection.Leaving taken) {move : CwMove}
    (hforeign : move.Foreign) : (connection.keyer move).Leaving taken := by
  unfold CatConnection.keyer
  split
  · exact h
  · next hown =>
      rcases h.last with ⟨hrunning, hbefore⟩ | ⟨hover, hempty⟩
      · have hproceeds := CwTask.proceeds_step hrunning
            (fun command heq => hown command heq) hforeign
        refine ⟨h.queued.step move hforeign, ?_, Or.inl ⟨hproceeds.live, hbefore⟩⟩
        have hreceived := hproceeds.received
        have hnumbered := h.numbered
        dsimp only
        omega
      · rw [step_of_over hover]
        exact h

/-- What a keying task has answered are texts it took, each once. -/
theorem answered_of_queued [Platform] (h : connection.task.Queued) :
    connection.answered.Nodup ∧ ∀ number ∈ connection.answered,
      connection.base ≤ number ∧ number < connection.base + connection.task.received := by
  refine ⟨h.law.once.map fun first second heq => Nat.add_left_cancel heq, fun number hnumber => ?_⟩
  obtain ⟨completed, hcompleted, rfl⟩ := List.mem_map.mp hnumber
  obtain ⟨send, hsend, rfl⟩ := h.law.asked completed hcompleted
  have hrange : send.completed ∈ (accepted connection.task.log).map PendingCwSend.completed :=
    List.mem_map_of_mem hsend
  rw [h.accounted.numbered, List.mem_range] at hrange
  omega

/-- A keying task that is over has answered all it took. -/
theorem answered_of_over [Platform] (h : connection.task.Queued)
    (hover : connection.task.phase.over = true) :
    connection.answered.Perm ((List.range connection.task.received).map (connection.base + ·)) := by
  have hexited : connection.task.phase = .exited := by
    cases hphase : connection.task.phase with
    | exited => rfl
    | _ => rw [hphase] at hover; cases hover
  have hsettled := h.accounted.settled
  rw [hexited, h.exited hexited] at hsettled
  apply List.Perm.map
  simpa [CwPhase.busy, CwPhase.next] using hsettled

/-- The keyers get the texts of a connection in the order of their numbers. -/
theorem handedTexts_of_queued [Platform] (h : connection.task.Queued) :
    connection.handedTexts.Pairwise (· < ·) ∧ ∀ number ∈ connection.handedTexts,
      connection.base ≤ number ∧ number < connection.base + connection.task.received := by
  have hsub : connection.handedTexts.Sublist
      ((List.range connection.task.received).map (connection.base + ·)) := by
    rw [← h.accounted.numbered, List.map_map]
    exact h.law.ordered.map _
  refine ⟨List.Pairwise.sublist hsub (List.pairwise_map.mpr
    (List.pairwise_lt_range.imp fun hlt => Nat.add_lt_add_left hlt _)), fun number hnumber => ?_⟩
  obtain ⟨index, hindex, rfl⟩ := List.mem_map.mp (hsub.subset hnumber)
  have hlt := List.mem_range.mp hindex
  omega

end CatConnection

/-! ### The radio -/

def RadioPhase.connection : RadioPhase → Option CatConnection
  | .connected connection | .forwarding connection _ | .closing connection _
  | .joining connection _ => some connection
  | .waiting | .connecting | .returned => none

def RadioPhase.Sound [Platform] (taken : Nat) : RadioPhase → Prop
  | .waiting | .connecting | .returned => True
  | .connected connection | .closing connection _ => connection.Live taken 0
  | .forwarding connection command =>
      connection.Live taken (if command.isText then 1 else 0) ∧ command ≠ .shutdown
  | .joining connection _ => connection.Leaving taken

/-- The keyers report none of the errors by which a keying task shuts itself down. -/
def RadioMove.Foreign : RadioMove → Prop
  | .keyer move => move.Foreign
  | _ => True

namespace ManagedRadio

variable {radio next : ManagedRadio}

/-- The texts that the present connection does not answer for. -/
def base (radio : ManagedRadio) : Nat :=
  (radio.phase.connection.map CatConnection.base).getD radio.taken

/-- The numbers of the texts that were answered before the present connection. -/
def settledTexts (radio : ManagedRadio) : List Nat :=
  radio.rejected.map Prod.fst ++ radio.ended.flatMap CatConnection.answered

/-- The numbers of all texts that have been answered. -/
def answeredTexts (radio : ManagedRadio) : List Nat :=
  radio.settledTexts ++ radio.phase.connection.toList.flatMap CatConnection.answered

/-- The numbers of the texts that have been handed to a keyer, as they were. -/
def handedTexts (radio : ManagedRadio) : List Nat :=
  (radio.ended ++ radio.phase.connection.toList).flatMap CatConnection.handedTexts

structure Settled [Platform] (radio : ManagedRadio) : Prop where
  phase : radio.phase.Sound radio.taken
  answered : radio.settledTexts.Perm (List.range radio.base)
  ordered : (radio.ended.flatMap CatConnection.handedTexts).Pairwise (· < ·)
  before : ∀ number ∈ radio.ended.flatMap CatConnection.handedTexts, number < radio.base

/-- A step that takes no text and ends no connection. -/
structure SameTexts (radio next : ManagedRadio) : Prop where
  taken : next.taken = radio.taken
  rejected : next.rejected = radio.rejected
  ended : next.ended = radio.ended

theorem SameTexts.refl (radio : ManagedRadio) : radio.SameTexts radio := ⟨rfl, rfl, rfl⟩

theorem SameTexts.trans {last : ManagedRadio} (h : radio.SameTexts next)
    (hlast : next.SameTexts last) : radio.SameTexts last :=
  ⟨hlast.taken.trans h.taken, hlast.rejected.trans h.rejected, hlast.ended.trans h.ended⟩

theorem SameTexts.withPhase (h : radio.SameTexts next) (phase : RadioPhase) :
    radio.SameTexts { next with phase := phase } := ⟨h.taken, h.rejected, h.ended⟩

theorem Settled.move [Platform] (h : radio.Settled) (hsame : radio.SameTexts next)
    (hphase : next.phase.Sound radio.taken) (hbase : next.base = radio.base) : next.Settled := by
  have hsettled : next.settledTexts = radio.settledTexts := by
    rw [settledTexts, settledTexts, hsame.rejected, hsame.ended]
  refine ⟨hsame.taken ▸ hphase, ?_, ?_, ?_⟩
  · rw [hsettled, hbase]
    exact h.answered
  · rw [hsame.ended]
    exact h.ordered
  · rw [hsame.ended, hbase]
    exact h.before

/-! ### What is published takes no text -/

theorem sameTexts_setRadioStatus (radio : ManagedRadio) (online : Bool) :
    radio.SameTexts (radio.setRadioStatus online) := by
  unfold setRadioStatus
  split
  · exact .refl radio
  · exact ⟨rfl, rfl, rfl⟩

theorem sameTexts_publishCatSnapshot [Platform] (radio : ManagedRadio) (state : CatState) :
    radio.SameTexts (radio.publishCatSnapshot state) := by
  have hstatus := sameTexts_setRadioStatus radio (state.connection = .ready)
  unfold publishCatSnapshot
  dsimp only
  split
  · exact hstatus
  · split
    · exact hstatus
    · exact ⟨hstatus.taken, hstatus.rejected, hstatus.ended⟩

theorem sameTexts_publishRequestedLoggerMode [Platform] (radio : ManagedRadio) (mode : String) :
    radio.SameTexts (radio.publishRequestedLoggerMode mode) := by
  unfold publishRequestedLoggerMode
  dsimp only
  split
  · exact .refl radio
  · split
    · exact .refl radio
    · exact ⟨rfl, rfl, rfl⟩

theorem sameTexts_setMode [Platform] (radio : ManagedRadio) (cat : CatRadio) (mode : String)
    (lastError : Option RadioError) (radioModes : List Mode) :
    radio.SameTexts (radio.setMode cat mode lastError radioModes).2 := by
  induction radioModes generalizing lastError with
  | nil => exact .refl radio
  | cons radioMode radioModes ih =>
      unfold setMode
      split
      · exact sameTexts_publishRequestedLoggerMode radio mode
      · exact ih _

theorem sameTexts_applyCommand [Platform] (radio : ManagedRadio) (cat : CatRadio)
    (bands : List Band) (command : RadioCommand) (connection : CatConnection) :
    radio.SameTexts (radio.applyCommand cat bands command connection).2 := by
  cases command with
  | setMode mode =>
      simp only [applyCommand]
      exact sameTexts_setMode ..
  | _ =>
      simp only [applyCommand]
      exact .refl radio

/-- A connection as far as its texts go. -/
def SameKeying (connection other : CatConnection) : Prop :=
  other.base = connection.base ∧ other.task = connection.task ∧ other.channel = connection.channel

theorem sameKeying_changeRit {cat : CatRadio} {deltaHz : Int} {connection other : CatConnection}
    (h : changeRit cat deltaHz connection = .ok other) : SameKeying connection other := by
  unfold changeRit at h
  dsimp only at h
  split at h
  · cases h
    exact ⟨rfl, rfl, rfl⟩
  · obtain ⟨applied, -, happlied⟩ := Checks.bind_eq_ok.mp h
    split at happlied <;> cases happlied <;> exact ⟨rfl, rfl, rfl⟩

theorem sameKeying_clearRit {cat : CatRadio} {connection other : CatConnection}
    (h : clearRit cat connection = .ok other) : SameKeying connection other := by
  obtain ⟨applied, -, happlied⟩ := Checks.bind_eq_ok.mp h
  split at happlied <;> cases happlied <;> exact ⟨rfl, rfl, rfl⟩

theorem sameKeying_applyCommand [Platform] {cat : CatRadio} {bands : List Band}
    {command : RadioCommand} {connection other : CatConnection}
    (h : (radio.applyCommand cat bands command connection).1 = .ok other) :
    SameKeying connection other := by
  have hkept : ∀ result : Except RadioError Unit, result.map (fun _ => connection) = .ok other →
      SameKeying connection other := by
    intro result hresult
    cases result with
    | error error => cases hresult
    | ok done =>
        cases hresult
        exact ⟨rfl, rfl, rfl⟩
  cases command <;> simp only [applyCommand] at h
  case setFrequency frequencyHz => exact hkept _ h
  case setMode mode => exact hkept _ h
  case ritClear => exact sameKeying_clearRit h
  case ritIncrement hz => exact sameKeying_changeRit h
  case ritDecrement hz => exact sameKeying_changeRit h
  all_goals
    cases h
    exact ⟨rfl, rfl, rfl⟩

theorem live_of_sameKeying [Platform] {connection other : CatConnection} {taken ahead : Nat}
    (h : SameKeying connection other) (hlive : connection.Live taken ahead) :
    other.Live taken ahead := by
  obtain ⟨hbase, htask, hchannel⟩ := h
  refine ⟨htask ▸ hlive.queued, ?_, htask ▸ hlive.running, hchannel ▸ hlive.unended⟩
  rw [hbase, htask, hchannel]
  exact hlive.numbered

/-! ### A step -/

/-- The phase a task without a connection goes on to keeps the account when it has none either. -/
theorem Settled.idle [Platform] (h : radio.Settled) (hsame : radio.SameTexts next)
    (hradio : radio.phase.connection = none) (hnext : next.phase.connection = none) :
    next.Settled := by
  refine h.move hsame ?_ ?_
  · cases hphase : next.phase with
    | waiting | connecting | returned => trivial
    | _ => rw [hphase] at hnext; cases hnext
  · rw [base, base, hnext, hradio, hsame.taken]

/-- A step within a connection. -/
theorem Settled.within [Platform] (h : radio.Settled) (hsame : radio.SameTexts next)
    {connection other : CatConnection} (hradio : radio.phase.connection = some connection)
    (hnext : next.phase.connection = some other) (hbase : other.base = connection.base)
    (hphase : next.phase.Sound radio.taken) : next.Settled := by
  refine h.move hsame hphase ?_
  rw [base, base, hnext, hradio]
  exact hbase

theorem Settled.failUnavailableRadioCommand [Platform] (h : radio.Settled)
    (hradio : radio.phase.connection = none) (command : RadioCommand) (reason : String) :
    (radio.failUnavailableRadioCommand command reason).Settled := by
  unfold ManagedRadio.failUnavailableRadioCommand
  split
  · have hbase : radio.base = radio.taken := by rw [base, hradio]; rfl
    have hnext : base { radio with
        taken := radio.taken + 1, rejected := radio.rejected ++ [(radio.taken, reason)] } =
        radio.taken + 1 := by rw [base, hradio]; rfl
    refine ⟨?_, ?_, h.ordered, ?_⟩
    · cases hphase : radio.phase with
      | waiting | connecting | returned => exact trivial
      | _ => rw [hphase] at hradio; cases hradio
    · have hanswered := h.answered
      rw [hbase] at hanswered
      rw [hnext, List.range_succ]
      refine List.Perm.trans ?_ (hanswered.append_right [radio.taken])
      simp only [settledTexts, List.map_append, List.map_cons, List.map_nil, List.append_assoc]
      exact List.Perm.append_left _ List.perm_append_comm
    · intro number hnumber
      rw [hnext]
      exact Nat.lt_succ_of_lt (hbase ▸ h.before number hnumber)
  · exact h

theorem Settled.connect [Platform] (h : radio.Settled) (hradio : radio.phase.connection = none)
    (connected : CatConnected) : (radio.connect connected).Settled := by
  have hsame := sameTexts_publishCatSnapshot radio connected.state
  have htaken := hsame.taken
  refine h.move (hsame.withPhase _) ?_ ?_
  · exact ⟨CwTask.queued_new _ _, by
      dsimp only
      rw [htaken]
      rfl, rfl, List.not_mem_nil⟩
  · rw [base, base, hradio]
    exact htaken

theorem Settled.lose [Platform] (h : radio.Settled) (hsame : radio.SameTexts next)
    {connection : CatConnection} (hradio : radio.phase = .connected connection) :
    (next.lose connection).Settled := by
  have hphase := h.phase
  rw [hradio] at hphase
  have hlost := hsame.trans (sameTexts_setRadioStatus next false)
  have hbefore : radio.phase.connection = some connection := congrArg RadioPhase.connection hradio
  have hafter : (next.lose connection).phase.connection = some connection := rfl
  exact h.within (hlost.withPhase _) hbefore hafter rfl hphase

theorem Settled.handleUpdate [Platform] (h : radio.Settled) {connection : CatConnection}
    (hradio : radio.phase = .connected connection) (update : CatUpdate) :
    (radio.handleUpdate connection update).Settled := by
  have hlive := h.phase
  rw [hradio] at hlive
  have hconnection := congrArg RadioPhase.connection hradio
  cases update with
  | update state =>
      have hsame := sameTexts_publishCatSnapshot radio state
      have hkept : CatConnection.Live { connection with
          lastRitOffsetHz := state.ritOffsetHz.getD connection.lastRitOffsetHz } radio.taken 0 :=
        @live_of_sameKeying _ connection _ _ _ ⟨rfl, rfl, rfl⟩ hlive
      unfold ManagedRadio.handleUpdate
      dsimp only
      split
      · exact h.within (hsame.withPhase _) hconnection rfl rfl hkept
      · exact h.within (hsame.withPhase _) hconnection rfl rfl hkept
  | lagged latest =>
      exact h.within ((sameTexts_publishCatSnapshot radio latest).withPhase _) hconnection rfl rfl
        hlive
  | closed => exact h.lose (.refl radio) hradio

theorem Settled.finishCommand [Platform] (h : radio.Settled) (hsame : radio.SameTexts next)
    {connection : CatConnection} (hradio : radio.phase = .connected connection)
    {result : Except RadioError CatConnection}
    (hresult : ∀ other, result = .ok other → SameKeying connection other) :
    (next.finishCommand connection result).Settled := by
  have hlive := h.phase
  rw [hradio] at hlive
  have hconnection := congrArg RadioPhase.connection hradio
  cases result with
  | ok other =>
      have hkept := hresult other rfl
      exact h.within (hsame.withPhase _) hconnection rfl hkept.1 (live_of_sameKeying hkept hlive)
  | error error =>
      unfold ManagedRadio.finishCommand
      dsimp only
      split
      · exact h.within (hsame.withPhase _) hconnection rfl rfl hlive
      split
      · exact h.lose hsame hradio
      · exact h.within (hsame.withPhase _) hconnection rfl rfl hlive

theorem Settled.handleCommand [Platform] (h : radio.Settled) {connection : CatConnection}
    (hradio : radio.phase = .connected connection) (cat : CatRadio) (bands : List Band)
    (command : RadioCommand) : (radio.handleCommand connection cat bands command).Settled := by
  have hlive := h.phase
  rw [hradio] at hlive
  have hconnection := congrArg RadioPhase.connection hradio
  have hown : (let applied := radio.applyCommand cat bands command connection
      applied.2.finishCommand connection applied.1).Settled :=
    h.finishCommand (sameTexts_applyCommand radio cat bands command connection) hradio
      fun other hother => sameKeying_applyCommand hother
  have hforwarding : ∀ command : CwTaskCommand, command.isText = false → command ≠ .shutdown →
      ({ radio with phase := .forwarding connection command } : ManagedRadio).Settled := by
    intro command htext hshutdown
    refine h.within ((SameTexts.refl radio).withPhase _) hconnection rfl rfl ⟨?_, hshutdown⟩
    rw [htext]
    exact hlive
  cases command with
  | sendText text waitForCompletion =>
      refine ⟨⟨⟨hlive.queued, ?_, hlive.running, hlive.unended⟩, nofun⟩, ?_, h.ordered, ?_⟩
      · exact congrArg (· + 1) hlive.numbered
      · have hanswered := h.answered
        rw [base, hconnection] at hanswered
        exact hanswered
      · have hbefore := h.before
        rw [base, hconnection] at hbefore
        exact hbefore
  | stopKeying => exact hforwarding .stop rfl nofun
  | setWpm wpm => exact hforwarding (.setWpm wpm) rfl nofun
  | _ => exact hown

theorem Settled.forward [Platform] (h : radio.Settled) {connection : CatConnection}
    {command : CwTaskCommand}
    (hradio : radio.phase = .forwarding connection command) :
    (radio.forward connection command).Settled := by
  have hlive := h.phase
  rw [hradio] at hlive
  obtain ⟨hlive, hshutdown⟩ := hlive
  unfold ManagedRadio.forward
  rw [hlive.running, if_neg Bool.false_ne_true]
  split
  · refine h.within ((SameTexts.refl radio).withPhase _)
      (congrArg RadioPhase.connection hradio) rfl rfl ⟨hlive.queued, ?_, hlive.running, ?_⟩
    · have hnumbered := hlive.numbered
      dsimp only
      rw [CatConnection.textsIn_append, textsIn, textsIn, List.countP_singleton]
      rw [textsIn] at hnumbered
      omega
    · intro hmem
      rcases List.mem_append.mp hmem with hmem | hmem
      · exact hlive.unended hmem
      · exact hshutdown (List.mem_singleton.mp hmem).symm
  · exact h

theorem Settled.close [Platform] (h : radio.Settled) {connection : CatConnection} {reconnect : Bool}
    (hradio : radio.phase = .closing connection reconnect) :
    (radio.close connection reconnect).Settled := by
  have hlive := h.phase
  rw [hradio] at hlive
  unfold ManagedRadio.close
  rw [hlive.running, if_neg Bool.false_ne_true]
  split
  · refine h.within ((SameTexts.refl radio).withPhase _)
      (congrArg RadioPhase.connection hradio) rfl rfl
      ⟨hlive.queued, ?_, Or.inl ⟨hlive.running, connection.channel, rfl, hlive.unended⟩⟩
    dsimp only
    rw [CatConnection.textsIn_append]
    exact hlive.numbered
  · exact h

/-- A connection that has ended leaves no text unanswered. -/
theorem Settled.join [Platform] (h : radio.Settled) {connection : CatConnection} {reconnect : Bool}
    (hradio : radio.phase = .joining connection reconnect) :
    (radio.join connection reconnect).Settled := by
  have hleaving := h.phase
  rw [hradio] at hleaving
  have hbase : radio.base = connection.base := by rw [base, hradio]; rfl
  unfold ManagedRadio.join
  split
  · next hover =>
      have hempty : connection.channel = [] := by
        rcases hleaving.last with ⟨hrunning, -⟩ | ⟨-, hempty⟩
        · rw [hrunning] at hover
          cases hover
        · exact hempty
      have htaken : connection.base + connection.task.received = radio.taken := by
        have hnumbered := hleaving.numbered
        rw [hempty] at hnumbered
        exact hnumbered
      have hnext : base { radio with
          phase := if reconnect then .waiting else .returned
          ended := radio.ended ++ [connection] } = radio.taken := by
        cases reconnect <;> rfl
      obtain ⟨hordered, hrange⟩ := CatConnection.handedTexts_of_queued hleaving.queued
      refine ⟨?_, ?_, ?_, ?_⟩
      · cases reconnect <;> trivial
      · have hanswered := h.answered
        rw [hbase] at hanswered
        rw [hnext, ← htaken, List.range_add]
        refine List.Perm.trans ?_
          (hanswered.append (CatConnection.answered_of_over hleaving.queued hover))
        simp only [settledTexts, List.flatMap_append, List.flatMap_cons, List.flatMap_nil,
          List.append_nil, List.append_assoc]
        exact List.Perm.refl _
      · rw [List.flatMap_append, List.flatMap_singleton]
        refine List.pairwise_append.mpr ⟨h.ordered, hordered,
          fun earlier hearlier later hlater => ?_⟩
        have hbefore := h.before earlier hearlier
        have hafter := (hrange later hlater).1
        omega
      · intro number hnumber
        rw [hnext]
        rw [List.flatMap_append, List.flatMap_singleton] at hnumber
        rcases List.mem_append.mp hnumber with hnumber | hnumber
        · have hbefore := h.before number hnumber
          omega
        · have hafter := (hrange number hnumber).2
          omega
  · exact h

theorem Settled.withConnection [Platform] (h : radio.Settled) {f : CatConnection → CatConnection}
    (hbase : ∀ connection, (f connection).base = connection.base)
    (hlive : ∀ connection taken ahead, connection.Live taken ahead →
      (f connection).Live taken ahead)
    (hleaving : ∀ connection taken, connection.Leaving taken → (f connection).Leaving taken) :
    (radio.withConnection f).Settled := by
  have hphase := h.phase
  unfold ManagedRadio.withConnection
  cases hradio : radio.phase with
  | waiting | connecting | returned => exact h
  | connected connection =>
      rw [hradio] at hphase
      exact h.within ((SameTexts.refl radio).withPhase _) (congrArg RadioPhase.connection hradio)
        rfl (hbase connection) (hlive connection _ _ hphase)
  | forwarding connection command =>
      rw [hradio] at hphase
      exact h.within ((SameTexts.refl radio).withPhase _) (congrArg RadioPhase.connection hradio)
        rfl (hbase connection) ⟨hlive connection _ _ hphase.1, hphase.2⟩
  | closing connection reconnect =>
      rw [hradio] at hphase
      exact h.within ((SameTexts.refl radio).withPhase _) (congrArg RadioPhase.connection hradio)
        rfl (hbase connection) (hlive connection _ _ hphase)
  | joining connection reconnect =>
      rw [hradio] at hphase
      exact h.within ((SameTexts.refl radio).withPhase _) (congrArg RadioPhase.connection hradio)
        rfl (hbase connection) (hleaving connection _ hphase)

theorem base_receive [Platform] (connection : CatConnection) :
    connection.receive.base = connection.base := by
  unfold CatConnection.receive
  split
  · rfl
  · split <;> rfl

theorem base_keyer [Platform] (move : CwMove) (connection : CatConnection) :
    (connection.keyer move).base = connection.base := by
  unfold CatConnection.keyer
  split <;> rfl

theorem Settled.step [Platform] (h : radio.Settled) {move : RadioMove} (hforeign : move.Foreign) :
    (radio.step move).Settled := by
  have hsame := SameTexts.refl radio
  cases move with
  | receive =>
      exact h.withConnection base_receive (fun _ _ _ hlive => hlive.receive)
        fun _ _ hleaving => hleaving.receive
  | keyer move =>
      exact h.withConnection (base_keyer move) (fun _ _ _ hlive => hlive.keyer hforeign)
        fun _ _ hleaving => hleaving.keyer hforeign
  | shutdown =>
      unfold ManagedRadio.step
      cases hradio : radio.phase with
      | waiting | connecting =>
          exact h.idle (hsame.withPhase _) (congrArg RadioPhase.connection hradio) rfl
      | connected connection =>
          have hphase := h.phase
          rw [hradio] at hphase
          exact h.within (hsame.withPhase _) (congrArg RadioPhase.connection hradio) rfl rfl hphase
      | forwarding _ _ | closing _ _ | joining _ _ | returned => exact h
  | deadline =>
      unfold ManagedRadio.step
      cases hradio : radio.phase with
      | waiting => exact h.idle (hsame.withPhase _) (congrArg RadioPhase.connection hradio) rfl
      | _ => exact h
  | connect result =>
      unfold ManagedRadio.step
      cases hradio : radio.phase with
      | connecting =>
          have hidle := congrArg RadioPhase.connection hradio
          cases result with
          | ok connected => exact h.connect hidle connected
          | error error =>
              exact h.idle ((sameTexts_setRadioStatus radio false).withPhase _) hidle rfl
      | _ => exact h
  | update update =>
      unfold ManagedRadio.step
      cases hradio : radio.phase with
      | connected connection => exact h.handleUpdate hradio update
      | _ => exact h
  | command command cat bands =>
      unfold ManagedRadio.step
      cases hradio : radio.phase with
      | waiting | connecting =>
          have hidle := congrArg RadioPhase.connection hradio
          cases command with
          | none => exact h.idle (hsame.withPhase _) hidle rfl
          | some command => exact h.failUnavailableRadioCommand hidle command _
      | connected connection =>
          cases command with
          | none =>
              have hphase := h.phase
              rw [hradio] at hphase
              exact h.within (hsame.withPhase _) (congrArg RadioPhase.connection hradio) rfl rfl
                hphase
          | some command => exact h.handleCommand hradio cat bands command
      | forwarding _ _ | closing _ _ | joining _ _ | returned => exact h
  | forward =>
      unfold ManagedRadio.step
      cases hradio : radio.phase with
      | forwarding connection command => exact h.forward hradio
      | closing connection reconnect => exact h.close hradio
      | _ => exact h
  | join =>
      unfold ManagedRadio.step
      cases hradio : radio.phase with
      | joining connection reconnect => exact h.join hradio
      | _ => exact h

/-! ### Every run -/

/-- What the senders of texts to a radio can count on, whatever becomes of its connections. -/
structure TextLaw (radio : ManagedRadio) : Prop where
  once : radio.answeredTexts.Nodup
  asked : ∀ number ∈ radio.answeredTexts, number < radio.taken
  settled : radio.phase.connection = none → ∀ number < radio.taken, number ∈ radio.answeredTexts
  ordered : radio.handedTexts.Pairwise (· < ·)

end ManagedRadio

/-- How far the texts of a connection go that is in use or is left. -/
theorem RadioPhase.Sound.queued [Platform] {taken : Nat} {phase : RadioPhase}
    (h : phase.Sound taken)
    {connection : CatConnection} (hconnection : phase.connection = some connection) :
    connection.task.Queued ∧ connection.base + connection.task.received ≤ taken := by
  cases phase with
  | waiting | connecting | returned => cases hconnection
  | connected other | closing other _ =>
      cases hconnection
      have hnumbered := CatConnection.Live.numbered h
      exact ⟨CatConnection.Live.queued h, by omega⟩
  | forwarding other command =>
      cases hconnection
      have hnumbered := h.1.numbered
      exact ⟨h.1.queued, by omega⟩
  | joining other _ =>
      cases hconnection
      have hnumbered := CatConnection.Leaving.numbered h
      exact ⟨CatConnection.Leaving.queued h, by omega⟩

namespace ManagedRadio

variable {radio : ManagedRadio}

theorem Settled.law [Platform] (h : radio.Settled) : radio.TextLaw := by
  have hnodup := h.answered.nodup_iff.mpr List.nodup_range
  cases hconnection : radio.phase.connection with
  | none =>
      have hbase : radio.base = radio.taken := by rw [base, hconnection]; rfl
      have hanswered := h.answered
      rw [hbase] at hanswered
      have hall : radio.answeredTexts = radio.settledTexts := by
        rw [answeredTexts, hconnection]
        exact List.append_nil _
      refine ⟨hall ▸ hnodup, fun number hnumber => ?_, fun _ number hnumber => ?_, ?_⟩
      · exact List.mem_range.mp (hanswered.subset (hall ▸ hnumber))
      · rw [hall]
        exact hanswered.symm.subset (List.mem_range.mpr hnumber)
      · rw [handedTexts, hconnection, Option.toList_none, List.append_nil]
        exact h.ordered
  | some connection =>
      have hbase : radio.base = connection.base := by rw [base, hconnection]; rfl
      have hanswered := h.answered
      rw [hbase] at hanswered
      obtain ⟨hqueued, hbound⟩ := h.phase.queued hconnection
      obtain ⟨honce, hrange⟩ := CatConnection.answered_of_queued hqueued
      obtain ⟨hordered, hhanded⟩ := CatConnection.handedTexts_of_queued hqueued
      have hall : radio.answeredTexts = radio.settledTexts ++ connection.answered := by
        rw [answeredTexts, hconnection, Option.toList_some, List.flatMap_singleton]
      refine ⟨?_, fun number hnumber => ?_, fun hnone => ?_, ?_⟩
      · rw [hall]
        refine List.nodup_append.mpr ⟨hnodup, honce, fun earlier hearlier later hlater => ?_⟩
        have hbefore := List.mem_range.mp (hanswered.subset hearlier)
        have hafter := (hrange later hlater).1
        omega
      · rw [hall] at hnumber
        rcases List.mem_append.mp hnumber with hnumber | hnumber
        · have hbefore := List.mem_range.mp (hanswered.subset hnumber)
          omega
        · have hafter := (hrange number hnumber).2
          omega
      · rw [hconnection] at hnone
        cases hnone
      · rw [handedTexts, hconnection, Option.toList_some, List.flatMap_append,
          List.flatMap_singleton]
        refine List.pairwise_append.mpr
          ⟨h.ordered, hordered, fun earlier hearlier later hlater => ?_⟩
        have hbefore := h.before earlier hearlier
        have hafter := (hhanded later hlater).1
        omega

theorem settled_new [Platform] (config : ManagedConfig) :
    ({ config := config } : ManagedRadio).Settled :=
  ⟨trivial, List.Perm.refl _, List.Pairwise.nil, nofun⟩

/-- Every text a managed radio takes is answered once, and by the time it waits to connect again
or has returned none is owed an answer; no text overtakes another on its way to the keyers. -/
theorem run_textLaw [Platform] (config : ManagedConfig) (moves : List RadioMove)
    (hforeign : ∀ move ∈ moves, move.Foreign) :
    (({ config := config } : ManagedRadio).run moves).TextLaw := by
  have hrun : ∀ (moves : List RadioMove) (radio : ManagedRadio),
      (∀ move ∈ moves, move.Foreign) → radio.Settled → (radio.run moves).Settled := by
    intro moves
    induction moves with
    | nil => exact fun _ _ h => h
    | cons move moves ih =>
        intro radio hforeign h
        have hrest : ∀ move ∈ moves, move.Foreign := fun move hmove =>
          hforeign move (List.mem_cons_of_mem _ hmove)
        exact ih (radio.step move) hrest (h.step (hforeign move List.mem_cons_self))
  exact (hrun moves _ hforeign (settled_new config)).law

section Witness

attribute [local instance] asciiPlatform

/-- A radio that is on the air. -/
def onAir : CatState where
  connection := .ready
  frequencyHz := some 14025000
  mode := some .cw
  ritOffsetHz := some 0

def silentRadio : CatRadio where
  latestState := onAir
  setMainFrequency _ := .ok ()
  setMainMode _ := .ok ()
  setMainRitEnabled := .ok ()
  ritXitOffset _ := .ok ()
  setMainRitOffset _ := .ok ()

def sending (text : String) : RadioMove := .command (some (.sendText text true)) silentRadio []

/-- A text before there is a connection, one that is keyed when the connection is lost, and one
that waits behind it. -/
theorem run_textLaw_lostConnection :
    let moves : List RadioMove := [sending "CQ",
      .connect (.ok { state := onAir, keyer := some "winkeyer", voicePlayback := true }),
      sending "CQ TEST", .forward, sending "TU", .forward, .receive,
      .keyer (.answer (some .cw) (.ok ()) (.ok (.pollStatus false))), .receive,
      .update .closed, .forward, .receive, .join]
    let radio := ({ config := { dataMode := none, rttyMode := none, flrigEnabled := false } } :
      ManagedRadio).run moves
    radio.TextLaw ∧ radio.answeredTexts = [0, 2, 1] ∧ radio.handedTexts = [1] :=
  ⟨run_textLaw _ _ (by simp [sending, RadioMove.Foreign, CwMove.Foreign, CwTask.isShutdown,
    Except.map]), by decide, by decide⟩

end Witness

end ManagedRadio

end Log73.RadioIo
