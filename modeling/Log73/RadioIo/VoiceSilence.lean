import Log73.RadioIo.VoiceThread

/-!
Playback over every run of the keying task and its thread: the thread is never asked to play
while it plays, every playback is answered once and in order, and when the task does not wait for
a playback, none is heard that is not about to be stopped, nor is the radio left keyed.
-/

namespace Log73.RadioIo

/-! ### What the task says to its thread -/

/-- An event of the task that its thread hears. -/
def CwEvent.isWord : CwEvent → Bool
  | .handed .voice _ | .cleared => true
  | _ => false

/-- What the thread hears of a move, and whether the task waits for a playback before and after. -/
inductive CwTask.Says (move : CwMove) (before after : Bool) : List CwEvent → Prop
  | quiet : after = before → Says move before after []
  | done (result : Option (Except String Unit)) : move = .playbackDone result → before = true →
      after = false → Says move before after []
  | stop : after = false → Says move before after [.cleared]
  | play (send : PendingCwSend) (mode : Option Mode) (queued : Except String CwSendCompletion) :
      move = .answer mode (.ok ()) queued → before = false → after = true →
      Says move before after [.handed .voice send]
  | failed (send : PendingCwSend) (mode : Option Mode) (error : String)
      (queued : Except String CwSendCompletion) : move = .answer mode (.error error) queued →
      after = false → Says move before after [.handed .voice send]

namespace CwTask

variable {task : CwTask} {move : CwMove}

/-- What the events of a move come to for the thread. -/
def Speaks (task : CwTask) (move : CwMove) (next : CwTask) : Prop :=
  ∃ events, next.log = task.log ++ events ∧
    Says move task.phase.isVoice next.phase.isVoice (events.filter CwEvent.isWord)

theorem log_nextSend (task : CwTask) : task.nextSend.log = task.log := by
  unfold nextSend
  split <;> rfl

theorem log_finish (task : CwTask) (send : PendingCwSend) (result : Except String Unit) :
    (task.finish send result).log = task.log ++ [.completed send.completed result] := by
  unfold finish
  dsimp only
  split
  · rfl
  · exact log_nextSend _

theorem isVoice_finish (task : CwTask) (send : PendingCwSend) (result : Except String Unit) :
    (task.finish send result).phase.isVoice = false := by
  unfold finish nextSend
  dsimp only
  split
  · rfl
  · split <;> rfl

theorem speaks_same (task : CwTask) (move : CwMove) : task.Speaks move task :=
  ⟨[], (List.append_nil _).symm, .quiet rfl⟩

theorem speaks_finish (hbefore : task.phase.isVoice = false) (send : PendingCwSend)
    (result : Except String Unit) : task.Speaks move (task.finish send result) :=
  ⟨_, log_finish task send result, .quiet ((isVoice_finish task send result).trans hbefore.symm)⟩

theorem filter_failed (pending : List PendingCwSend) (reason : String) :
    (pending.map fun send => CwEvent.completed send.completed (.error reason)).filter
      CwEvent.isWord = [] := by
  induction pending with
  | nil => rfl
  | cons send pending ih => exact ih

/-- A loop that waits stops its keyer before it gives up its send. -/
theorem speaks_waitCommand (send : PendingCwSend) (command : Option CwTaskCommand)
    (context : WaitContext) : task.Speaks move (task.waitCommand send command context) := by
  have hinterrupt : ∀ (event : CwEvent) (reason : String), event.isWord = false →
      task.Speaks move
        (((task.failPendingCwSends reason).record event).stop.finish send (.error reason)) := by
    intro event reason hevent
    refine ⟨task.pending.map (fun send => .completed send.completed (.error reason)) ++
      [event, .cleared, .completed send.completed (.error reason)], ?_, ?_⟩
    · rw [log_finish]
      simp [failPendingCwSends, record, stop]
    · rw [isVoice_finish, List.filter_append, filter_failed, List.nil_append,
        List.filter_cons_of_neg (by simp [hevent])]
      exact .stop rfl
  cases command with
  | none => exact hinterrupt _ _ rfl
  | some command =>
      cases command with
      | stop => exact hinterrupt _ _ rfl
      | shutdown => exact hinterrupt _ _ rfl
      | setWpm wpm => exact ⟨[.wpm wpm], rfl, .quiet rfl⟩
      | sendText text waitForCompletion => exact ⟨[.accepted _], rfl, .quiet rfl⟩

theorem speaks_sendText [Platform] (hbefore : task.phase.isVoice = false) (send : PendingCwSend)
    (mode : Option Mode) (play : Except String Unit) (queued : Except String CwSendCompletion) :
    task.Speaks (.answer mode play queued) (task.sendText send mode play queued) := by
  have hhanded : ∀ result : Except String Unit, task.Speaks (.answer mode play queued)
      ((task.record (.handed .cw send)).finish send result) := by
    intro result
    refine ⟨[.handed .cw send, .completed send.completed result], ?_, .quiet ?_⟩
    · rw [log_finish]
      simp [record]
    · rw [isVoice_finish, hbefore]
  unfold sendText
  split
  · exact speaks_finish hbefore _ _
  split
  · unfold sendVoiceFile
    split
    · dsimp only
      cases play with
      | error error =>
          refine ⟨[.handed .voice send, .completed send.completed (.error error)], ?_,
            .failed send mode error queued rfl (isVoice_finish _ _ _)⟩
          rw [log_finish]
          simp [record]
      | ok played => exact ⟨[.handed .voice send], rfl, .play send mode queued rfl hbefore rfl⟩
    · exact speaks_finish hbefore _ _
  · split
    · exact speaks_finish hbefore _ _
    · dsimp only
      cases queued with
      | error error => exact hhanded _
      | ok completion =>
          dsimp only
          split
          · exact hhanded _
          · split <;> exact ⟨[.handed .cw send], rfl, .quiet hbefore.symm⟩

theorem speaks_receive (hphase : task.phase = .receiving) (command : Option CwTaskCommand) :
    task.Speaks move (task.receive command) := by
  have hbefore : task.phase.isVoice = false := by rw [hphase]; rfl
  have hdown : task.Speaks move (task.receive none) := by
    refine ⟨task.pending.map (fun send => .completed send.completed (.error "cw shutdown")) ++
      [.shutDown], ?_, ?_⟩
    · simp [receive, failPendingCwSends, record]
    · rw [List.filter_append, filter_failed]
      exact .quiet hbefore.symm
  cases command with
  | none => exact hdown
  | some command =>
      cases command with
      | shutdown => exact hdown
      | stop =>
          refine ⟨[.cleared, .stopped], ?_, .stop hbefore⟩
          simp [receive, stop, record]
      | setWpm wpm => exact ⟨[.wpm wpm], rfl, .quiet rfl⟩
      | sendText text waitForCompletion => exact ⟨[.accepted _], rfl, .quiet hbefore.symm⟩

/-- Every move of the task says to its thread what it means for the playback. -/
theorem speaks_step [Platform] (task : CwTask) (move : CwMove) :
    task.Speaks move (task.step move) := by
  have hsame := speaks_same task move
  unfold step
  cases hphase : task.phase with
  | receiving =>
      cases move with
      | command command => exact speaks_receive hphase command
      | _ => exact hsame
  | sending send =>
      cases move with
      | answer mode play queued => exact speaks_sendText (hphase ▸ rfl) send mode play queued
      | _ => exact hsame
  | voicePlayback send =>
      have hdone : ∀ result reply, task.Speaks (.playbackDone reply) (task.finish send result) :=
        fun result reply => ⟨_, log_finish task send result,
          .done reply rfl (hphase ▸ rfl) (isVoice_finish task send result)⟩
      cases move with
      | command command => exact speaks_waitCommand send command _
      | playbackDone result =>
          cases result with
          | none => exact hdone _ _
          | some result => exact hdone _ _
      | _ => exact hsame
  | busyWait send =>
      have hbefore : task.phase.isVoice = false := hphase ▸ rfl
      cases move with
      | command command => exact speaks_waitCommand send command _
      | deadline => exact speaks_finish hbefore _ _
      | status answer =>
          dsimp only [waitUntilBusyOrStopped]
          split
          · exact ⟨[], (List.append_nil _).symm, .quiet hbefore.symm⟩
          · exact hsame
          · exact speaks_finish hbefore _ _
      | _ => exact hsame
  | idleWait send =>
      have hbefore : task.phase.isVoice = false := hphase ▸ rfl
      cases move with
      | command command => exact speaks_waitCommand send command _
      | status answer =>
          dsimp only [waitUntilIdleOrStopped]
          split
          · exact speaks_finish hbefore _ _
          · exact hsame
          · exact speaks_finish hbefore _ _
      | _ => exact hsame
  | radioCatWait send =>
      have hbefore : task.phase.isVoice = false := hphase ▸ rfl
      cases move with
      | command command => exact speaks_waitCommand send command _
      | update update =>
          dsimp only [waitUntilRadioCatCwCompleteOrStopped]
          split
          · rename_i heq
            cases heq
          · exact speaks_finish hbefore _ _
          · exact speaks_finish hbefore _ _
          · exact speaks_finish hbefore _ _
          · exact hsame
      | _ => exact hsame
  | exited => exact hsame

end CwTask

/-! ### What waits for the thread -/

def VoiceCommand.asked : VoiceCommand → Option Nat
  | .play asked _ => some asked
  | .stop | .shutdown => none

def VoicePhase.current : VoicePhase → Option Nat
  | .playing current _ => some current
  | .receiving | .ended => none

/-- No command asks a thread to play that plays, and none comes after a shutdown. -/
def Orderly : Bool → List VoiceCommand → Prop
  | _, [] => True
  | playing, .play _ _ :: commands => playing = false ∧ Orderly true commands
  | _, .stop :: commands => Orderly false commands
  | _, .shutdown :: commands => commands = []

/-- Whether the thread plays after the commands, when every file can be opened. -/
def playsAfter : Bool → List VoiceCommand → Bool
  | playing, [] => playing
  | _, .play _ _ :: commands => playsAfter true commands
  | _, .stop :: commands => playsAfter false commands
  | _, .shutdown :: _ => false

theorem Orderly.quiet {playing : Bool} {commands : List VoiceCommand}
    (h : Orderly playing commands) : Orderly false commands := by
  cases commands with
  | nil => trivial
  | cons command commands =>
      cases command with
      | play play path => exact ⟨rfl, h.2⟩
      | stop => exact h
      | shutdown => exact h

theorem playsAfter_quiet {playing : Bool} {commands : List VoiceCommand}
    (h : playsAfter playing commands = false) : playsAfter false commands = false := by
  cases commands with
  | nil => rfl
  | cons command commands => cases command <;> exact h

theorem Orderly.append {commands later : List VoiceCommand} (hopen : .shutdown ∉ commands)
    {playing : Bool} (h : Orderly playing commands)
    (hlater : Orderly (playsAfter playing commands) later) :
    Orderly playing (commands ++ later) := by
  induction commands generalizing playing with
  | nil => exact hlater
  | cons command commands ih =>
      have hrest : .shutdown ∉ commands := fun hmem => hopen (List.mem_cons_of_mem _ hmem)
      cases command with
      | play play path => exact ⟨h.1, ih hrest h.2 hlater⟩
      | stop => exact ih hrest h hlater
      | shutdown => exact absurd (List.mem_cons_self ..) hopen

theorem playsAfter_append {commands : List VoiceCommand} (hopen : .shutdown ∉ commands)
    (playing : Bool) (later : List VoiceCommand) :
    playsAfter playing (commands ++ later) = playsAfter (playsAfter playing commands) later := by
  induction commands generalizing playing with
  | nil => rfl
  | cons command commands ih =>
      have hrest : .shutdown ∉ commands := fun hmem => hopen (List.mem_cons_of_mem _ hmem)
      cases command with
      | play play path => exact ih hrest true
      | stop => exact ih hrest false
      | shutdown => exact absurd (List.mem_cons_self ..) hopen

theorem playsAfter_eq_false {commands : List VoiceCommand}
    (h : commands.filterMap VoiceCommand.asked = []) : playsAfter false commands = false := by
  induction commands with
  | nil => rfl
  | cons command commands ih =>
      cases command with
      | play play path => cases h
      | stop => exact ih h
      | shutdown => rfl

/-- In a queue that is in order, the next command of a thread that plays is not to play, and when
the thread is silent afterwards it is to stop. -/
theorem head_playing {commands : List VoiceCommand} (h : Orderly true commands) :
    (∀ play path, commands.head? ≠ some (.play play path)) ∧
      (playsAfter true commands = false →
        commands.head? = some .stop ∨ commands.head? = some .shutdown) := by
  cases commands with
  | nil => exact ⟨fun play path heq => (by cases heq), Bool.noConfusion⟩
  | cons command commands =>
      cases command with
      | play play path => cases h.1
      | stop => exact ⟨fun play path heq => (by cases heq), fun _ => .inl rfl⟩
      | shutdown => exact ⟨fun play path heq => (by cases heq), fun _ => .inr rfl⟩

namespace VoiceThread

variable {thread : VoiceThread} {waits : Bool} {plays : Nat}

def isPlaying (thread : VoiceThread) : Bool := thread.phase.current.isSome

/-- The playbacks that the thread has yet to answer. -/
def outstanding (thread : VoiceThread) : List Nat :=
  thread.phase.current.toList ++ thread.commands.filterMap VoiceCommand.asked

/-- The thread will take another command. -/
def Attends (thread : VoiceThread) : Prop := thread.phase ≠ .ended ∧ .shutdown ∉ thread.commands

/-- A thread that was asked for so many playbacks, by a task that waits for the last or not. -/
structure Serves (thread : VoiceThread) (waits : Bool) (plays : Nat) : Prop where
  orderly : Orderly thread.isPlaying thread.commands
  silent : waits = false → playsAfter thread.isPlaying thread.commands = false
  answered : thread.completed.map Prod.fst ++ thread.outstanding = List.range plays
  ended : thread.phase = .ended → thread.commands = []

theorem Attends.send_commands (h : thread.Attends) (command : VoiceCommand) :
    (thread.send command).commands = thread.commands ++ [command] := by
  rw [send, if_neg h.1]

theorem send_phase (thread : VoiceThread) (command : VoiceCommand) :
    (thread.send command).phase = thread.phase := by
  unfold send
  split <;> rfl

theorem send_completed (thread : VoiceThread) (command : VoiceCommand) :
    (thread.send command).completed = thread.completed := by
  unfold send
  split <;> rfl

theorem Attends.send (h : thread.Attends) {command : VoiceCommand}
    (hcommand : command ≠ .shutdown) :
    (thread.send command).Attends := by
  refine ⟨?_, ?_⟩
  · rw [send_phase]
    exact h.1
  · rw [h.send_commands, List.mem_append, List.mem_singleton]
    exact fun hmem => hmem.elim h.2 fun heq => hcommand heq.symm

/-- A command that the thread can follow is followed. -/
theorem Serves.send (h : thread.Serves waits plays) (hattends : thread.Attends)
    {command : VoiceCommand} {waits' : Bool} {plays' : Nat}
    (horderly : Orderly (playsAfter thread.isPlaying thread.commands) [command])
    (hsilent : waits' = false →
      playsAfter (playsAfter thread.isPlaying thread.commands) [command] = false)
    (hplays : List.range plays ++ command.asked.toList = List.range plays') :
    (thread.send command).Serves waits' plays' := by
  have hcommands := hattends.send_commands command
  have hphase := send_phase thread command
  constructor
  · rw [isPlaying, hphase, hcommands]
    exact h.orderly.append hattends.2 horderly
  · intro hwaits
    rw [isPlaying, hphase, hcommands, playsAfter_append hattends.2]
    exact hsilent hwaits
  · rw [send_completed, outstanding, hphase, hcommands, List.filterMap_append, ← hplays,
      ← h.answered, outstanding]
    simp only [List.append_assoc]
    cases command <;> rfl
  · rw [hphase]
    exact fun hended => absurd hended hattends.1

theorem Serves.stop (h : thread.Serves waits plays) (hattends : thread.Attends) (waits' : Bool) :
    (thread.send .stop).Serves waits' plays :=
  h.send hattends trivial (fun _ => rfl) (List.append_nil _)

theorem Serves.shutdown (h : thread.Serves waits plays) (hattends : thread.Attends)
    (waits' : Bool) : (thread.send .shutdown).Serves waits' plays :=
  h.send hattends rfl (fun _ => rfl) (List.append_nil _)

/-- A task that does not wait for a playback may ask for the next. -/
theorem Serves.play (h : thread.Serves false plays) (hattends : thread.Attends) (path : String) :
    (thread.send (.play plays path)).Serves true (plays + 1) :=
  h.send hattends ⟨h.silent rfl, trivial⟩ Bool.noConfusion List.range_succ.symm

/-- Once the last playback is answered, none is left. -/
theorem Serves.done (h : thread.Serves waits plays) {result : Except String Nat}
    (hresult : thread.result (plays - 1) = some result) : thread.Serves false plays := by
  refine ⟨h.orderly, fun _ => ?_, h.answered, h.ended⟩
  have hmem : plays - 1 ∈ thread.completed.map Prod.fst := by
    rw [VoiceThread.result, Option.map_eq_some_iff] at hresult
    obtain ⟨completion, hfind, -⟩ := hresult
    have heq := List.find?_some hfind
    exact List.mem_map.mpr ⟨completion, List.mem_of_find?_eq_some hfind, of_decide_eq_true heq⟩
  have hnone : thread.outstanding = [] := by
    refine List.eq_nil_iff_forall_not_mem.mpr fun play hplay => ?_
    have hsorted : (List.range plays).Pairwise (· < ·) := List.pairwise_lt_range
    have hlt : play < plays := by
      rw [← List.mem_range, ← h.answered]
      exact List.mem_append_right _ hplay
    rw [← h.answered, List.pairwise_append] at hsorted
    have := hsorted.2.2 _ hmem _ hplay
    omega
  rw [outstanding, List.append_eq_nil_iff] at hnone
  have hplaying : thread.isPlaying = false := by
    rw [isPlaying]
    cases hcurrent : thread.phase.current with
    | none => rfl
    | some current =>
        rw [hcurrent] at hnone
        cases hnone.1
  rw [hplaying]
  exact playsAfter_eq_false hnone.2

/-- A command that is taken leaves the rest in order. -/
theorem Serves.receive (h : thread.Serves waits plays) (opened : Except String Nat) :
    (thread.receive opened).Serves waits plays := by
  have horderly := h.orderly
  have hsilent := h.silent
  have hanswered := h.answered
  unfold VoiceThread.receive
  cases hcommands : thread.commands with
  | nil => exact h
  | cons command commands =>
      rw [isPlaying, hcommands] at horderly hsilent
      rw [outstanding, hcommands] at hanswered
      cases hphase : thread.phase with
      | ended => exact h
      | receiving =>
          rw [hphase] at horderly hsilent hanswered
          cases command with
          | play play path =>
              cases opened with
              | ok duration => exact ⟨horderly.2, hsilent, hanswered, VoicePhase.noConfusion⟩
              | error error =>
                  refine ⟨horderly.2.quiet, fun hwaits => playsAfter_quiet (hsilent hwaits), ?_,
                    VoicePhase.noConfusion⟩
                  rw [← hanswered]
                  simp [handle, complete, outstanding, VoicePhase.current, VoiceCommand.asked]
          | stop => exact ⟨horderly, hsilent, hanswered, VoicePhase.noConfusion⟩
          | shutdown =>
              exact ⟨horderly ▸ trivial, fun _ => horderly ▸ rfl, hanswered, fun _ => horderly⟩
      | playing current duration =>
          rw [hphase] at horderly hsilent hanswered
          cases command with
          | play play path => cases horderly.1
          | stop =>
              refine ⟨horderly, hsilent, ?_, VoicePhase.noConfusion⟩
              rw [← hanswered]
              simp [handleWhilePlaying, complete, outstanding, VoicePhase.current,
                VoiceCommand.asked,
                List.filterMap_cons]
          | shutdown =>
              refine ⟨horderly ▸ trivial, fun _ => horderly ▸ rfl, ?_, fun _ => horderly⟩
              rw [← hanswered]
              simp [handleWhilePlaying, complete, outstanding, VoicePhase.current,
                VoiceCommand.asked,
                List.filterMap_cons]

theorem Serves.timeout (h : thread.Serves waits plays) : thread.timeout.Serves waits plays := by
  unfold VoiceThread.timeout
  cases hphase : thread.phase with
  | receiving => exact h
  | ended => exact h
  | playing current duration =>
      refine ⟨h.orderly.quiet, fun hwaits => playsAfter_quiet (h.silent hwaits), ?_,
        VoicePhase.noConfusion⟩
      rw [← h.answered]
      simp [complete, outstanding, VoicePhase.current, hphase]

theorem Attends.receive (h : thread.Attends) (opened : Except String Nat) :
    (thread.receive opened).Attends := by
  unfold VoiceThread.receive
  cases hcommands : thread.commands with
  | nil => exact h
  | cons command commands =>
      have hrest : .shutdown ∉ commands := fun hmem =>
        h.2 (hcommands ▸ List.mem_cons_of_mem _ hmem)
      have hcommand : command ≠ .shutdown := fun heq =>
        h.2 (hcommands ▸ heq ▸ List.mem_cons_self ..)
      cases hphase : thread.phase with
      | ended => exact absurd hphase h.1
      | receiving =>
          cases command with
          | play play path =>
              cases opened with
              | ok duration => exact ⟨VoicePhase.noConfusion, hrest⟩
              | error error => exact ⟨VoicePhase.noConfusion, hrest⟩
          | stop => exact ⟨VoicePhase.noConfusion, hrest⟩
          | shutdown => exact absurd rfl hcommand
      | playing current duration =>
          cases command with
          | play play path => exact ⟨VoicePhase.noConfusion, hrest⟩
          | stop => exact ⟨VoicePhase.noConfusion, hrest⟩
          | shutdown => exact absurd rfl hcommand

/-- A thread that is to end will, or has. -/
theorem receive_leaves (h : thread.phase = .ended ∨ .shutdown ∈ thread.commands)
    (opened : Except String Nat) :
    (thread.receive opened).phase = .ended ∨ .shutdown ∈ (thread.receive opened).commands := by
  unfold VoiceThread.receive
  cases hcommands : thread.commands with
  | nil => exact h
  | cons command commands =>
      rw [hcommands] at h
      cases hphase : thread.phase with
      | ended => exact .inl hphase
      | receiving =>
          have hmem := h.resolve_left fun heq => VoicePhase.noConfusion (hphase.symm.trans heq)
          cases command with
          | play play path =>
              have hrest := (List.mem_cons.mp hmem).resolve_left VoiceCommand.noConfusion
              cases opened with
              | ok duration => exact .inr hrest
              | error error => exact .inr hrest
          | stop => exact .inr ((List.mem_cons.mp hmem).resolve_left VoiceCommand.noConfusion)
          | shutdown => exact .inl rfl
      | playing current duration =>
          have hmem := h.resolve_left fun heq => VoicePhase.noConfusion (hphase.symm.trans heq)
          cases command with
          | play play path =>
              exact .inr ((List.mem_cons.mp hmem).resolve_left VoiceCommand.noConfusion)
          | stop => exact .inr ((List.mem_cons.mp hmem).resolve_left VoiceCommand.noConfusion)
          | shutdown => exact .inl rfl

theorem timeout_leaves (h : thread.phase = .ended ∨ .shutdown ∈ thread.commands) :
    thread.timeout.phase = .ended ∨ .shutdown ∈ thread.timeout.commands := by
  unfold VoiceThread.timeout
  cases hphase : thread.phase with
  | receiving => exact h
  | ended => exact h
  | playing current duration =>
      exact .inr (h.resolve_left fun heq => VoicePhase.noConfusion (hphase.symm.trans heq))

theorem Attends.timeout (h : thread.Attends) : thread.timeout.Attends := by
  unfold VoiceThread.timeout
  cases hphase : thread.phase with
  | receiving => exact h
  | ended => exact h
  | playing current duration => exact ⟨VoicePhase.noConfusion, h.2⟩

end VoiceThread

/-! ### The task with its thread -/

namespace VoiceKeying

variable {keying : VoiceKeying}

/-- What holds of a keying task and its thread in every state they come to. -/
structure Sound (keying : VoiceKeying) : Prop where
  serves : keying.thread.Serves keying.task.phase.isVoice keying.plays
  attends : keying.task.phase ≠ .exited → keying.thread.Attends
  leaves : keying.task.phase = .exited →
    keying.thread.phase = .ended ∨ .shutdown ∈ keying.thread.commands
  guarded : keying.guard = true → keying.task.phase.isVoice = true
  keyed : keying.dataPtt = true →
    keying.guard = true ∨ 0 < keying.failedReleases ∨ 0 < keying.abandonedReleases

/-- The events that the thread does not hear change nothing. -/
theorem foldl_tell (events : List CwEvent) (keying : VoiceKeying) :
    events.foldl tell keying = (events.filter CwEvent.isWord).foldl tell keying := by
  induction events generalizing keying with
  | nil => rfl
  | cons event events ih =>
      cases event with
      | handed keyer send =>
          cases keyer with
          | cw => exact ih keying
          | voice => exact ih _
      | cleared => exact ih _
      | accepted send => exact ih keying
      | completed send result => exact ih keying
      | stopped => exact ih keying
      | shutDown => exact ih keying
      | wpm wpm => exact ih keying

theorem tell_ptt (keying : VoiceKeying) (event : CwEvent) :
    (keying.tell event).dataPtt = keying.dataPtt ∧ (keying.tell event).guard = keying.guard ∧
      (keying.tell event).failedReleases = keying.failedReleases ∧
      (keying.tell event).abandonedReleases = keying.abandonedReleases ∧
      (keying.tell event).task = keying.task := by
  unfold tell
  split <;> exact ⟨rfl, rfl, rfl, rfl, rfl⟩

theorem foldl_tell_ptt (events : List CwEvent) (keying : VoiceKeying) :
    (events.foldl tell keying).dataPtt = keying.dataPtt ∧
      (events.foldl tell keying).guard = keying.guard ∧
      (events.foldl tell keying).failedReleases = keying.failedReleases ∧
      (events.foldl tell keying).abandonedReleases = keying.abandonedReleases ∧
      (events.foldl tell keying).task = keying.task := by
  induction events generalizing keying with
  | nil => exact ⟨rfl, rfl, rfl, rfl, rfl⟩
  | cons event events ih =>
      obtain ⟨hdataPtt, hguard, hfailed, habandoned, htask⟩ := ih (keying.tell event)
      obtain ⟨hdataPtt', hguard', hfailed', habandoned', htask'⟩ := tell_ptt keying event
      exact ⟨hdataPtt.trans hdataPtt', hguard.trans hguard', hfailed.trans hfailed',
        habandoned.trans habandoned', htask.trans htask'⟩

theorem movePtt_same (keying : VoiceKeying) (before after takesPtt : Bool) :
    (keying.movePtt before after takesPtt).thread = keying.thread ∧
      (keying.movePtt before after takesPtt).plays = keying.plays ∧
      (keying.movePtt before after takesPtt).task = keying.task := by
  unfold movePtt
  split
  · exact ⟨rfl, rfl, rfl⟩
  · split
    · split <;> exact ⟨rfl, rfl, rfl⟩
    · exact ⟨rfl, rfl, rfl⟩

/-- The guard is held while the task waits, and the radio is not left keyed unless a release was
refused. -/
theorem movePtt_keyed (keying : VoiceKeying) {before : Bool} (after takesPtt : Bool)
    (hguarded : keying.guard = true → before = true)
    (hkeyed : keying.dataPtt = true →
      keying.guard = true ∨ 0 < keying.failedReleases ∨ 0 < keying.abandonedReleases) :
    ((keying.movePtt before after takesPtt).guard = true → after = true) ∧
      ((keying.movePtt before after takesPtt).dataPtt = true →
        (keying.movePtt before after takesPtt).guard = true ∨
          0 < (keying.movePtt before after takesPtt).failedReleases ∨
          0 < (keying.movePtt before after takesPtt).abandonedReleases) := by
  obtain ⟨task, thread, plays, pttSupported, dataPtt, guard, failedReleases, abandonedReleases⟩ :=
    keying
  unfold movePtt
  cases before with
  | false =>
      have hguard : guard = false := eq_false_of_ne_true fun h => Bool.false_ne_true (hguarded h)
      cases after with
      | false => exact ⟨hguarded, hkeyed⟩
      | true =>
          refine ⟨fun _ => rfl, fun hdataPtt => ?_⟩
          rcases (Bool.or_eq_true ..).mp hdataPtt with hold | hactive
          · exact .inr ((hkeyed hold).resolve_left fun h =>
              Bool.false_ne_true (hguard.symm.trans h))
          · exact .inl hactive
  | true =>
      cases after with
      | true => exact ⟨fun _ => rfl, hkeyed⟩
      | false =>
          cases guard with
          | false => exact ⟨Bool.noConfusion, hkeyed⟩
          | true =>
              cases takesPtt with
              | true => exact ⟨Bool.noConfusion, Bool.noConfusion⟩
              | false => exact ⟨Bool.noConfusion, fun _ => .inr (.inl (Nat.succ_pos _))⟩

/-- What the task can hear of a thread that still attends. -/
def Heard (keying : VoiceKeying) : CwMove → Prop
  | .playbackDone _ => ∃ answer, keying.thread.result (keying.plays - 1) = some answer
  | .answer _ play _ => play = .ok ()
  | _ => True

theorem heard_eq {move heard : CwMove} (hattends : keying.thread.Attends)
    (h : keying.heard move = some heard) : keying.Heard heard := by
  unfold VoiceKeying.heard at h
  cases move with
  | answer mode play queued =>
      rw [if_neg hattends.1] at h
      cases h
      rfl
  | playbackDone result =>
      cases hresult : keying.thread.result (keying.plays - 1) with
      | some answer =>
          rw [hresult] at h
          cases h
          exact ⟨answer, hresult⟩
      | none =>
          rw [hresult] at h
          dsimp only at h
          rw [if_neg hattends.1] at h
          cases h
  | command command => cases h; trivial
  | deadline => cases h; trivial
  | status answer => cases h; trivial
  | update update => cases h; trivial

/-- The words of a move leave the thread in the service of the task. -/
theorem serves_says (keying : VoiceKeying) {move : CwMove} {before after : Bool}
    {words : List CwEvent}
    (hwords : CwTask.Says move before after words)
    (hserves : keying.thread.Serves before keying.plays)
    (hattends : keying.thread.Attends) (hheard : keying.Heard move) :
    (words.foldl tell keying).thread.Serves after (words.foldl tell keying).plays ∧
      (words.foldl tell keying).thread.Attends := by
  cases hwords with
  | quiet hsame => exact ⟨hsame ▸ hserves, hattends⟩
  | done result hmove hbefore hafter =>
      rw [hmove] at hheard
      obtain ⟨answer, hanswer⟩ := hheard
      exact ⟨hafter ▸ hserves.done hanswer, hattends⟩
  | stop hafter => exact ⟨hserves.stop hattends after, hattends.send VoiceCommand.noConfusion⟩
  | play send mode queued hmove hbefore hafter =>
      rw [hbefore] at hserves
      exact ⟨hafter ▸ hserves.play hattends _, hattends.send VoiceCommand.noConfusion⟩
  | failed send mode error queued hmove hafter =>
      rw [hmove] at hheard
      cases hheard

variable [Platform]

theorem stepTask_exited (hphase : keying.task.phase = .exited) (move : CwMove) (takesPtt : Bool) :
    keying.stepTask move takesPtt = keying := by
  unfold stepTask
  rw [hphase]

theorem sound_stepTask (h : keying.Sound) (hphase : keying.task.phase ≠ .exited) {move : CwMove}
    (hheard : keying.Heard move) (takesPtt : Bool) : (keying.stepTask move takesPtt).Sound := by
  have hattends := h.attends hphase
  obtain ⟨events, hlog, hwords⟩ := CwTask.speaks_step keying.task move
  obtain ⟨hserves, hattends⟩ := serves_says { keying with task := keying.task.step move } hwords
    h.serves hattends hheard
  unfold stepTask
  dsimp only
  rw [hlog, List.drop_left, foldl_tell]
  obtain ⟨hdataPtt, hguard, hfailed, habandoned, htask⟩ := foldl_tell_ptt
    (events.filter CwEvent.isWord) { keying with task := keying.task.step move }
  generalize (events.filter CwEvent.isWord).foldl tell
    { keying with task := keying.task.step move } = told at *
  have hptt := movePtt_keyed told (keying.task.step move).phase.isVoice takesPtt
    (fun hheld => h.guarded (hguard ▸ hheld)) (by
      rw [hdataPtt, hguard, hfailed, habandoned]
      exact h.keyed)
  obtain ⟨hthread, hplays, hstep⟩ := movePtt_same told keying.task.phase.isVoice
    (keying.task.step move).phase.isVoice takesPtt
  replace hstep := hstep.trans htask
  generalize told.movePtt keying.task.phase.isVoice (keying.task.step move).phase.isVoice takesPtt =
    held at *
  rw [← hthread, ← hplays] at hserves
  rw [← hthread] at hattends
  split
  · exact absurd ‹_› hphase
  · rename_i hnext _
    refine ⟨?_, ?_, ?_, ?_, hptt.2⟩
    · exact hserves.shutdown hattends _
    · exact fun hlive => absurd (hstep ▸ hnext) hlive
    · intro _
      refine .inr ?_
      dsimp only
      rw [hattends.send_commands]
      exact List.mem_append_right _ (List.mem_singleton.mpr rfl)
    · exact hstep ▸ hptt.1
  · rename_i hnext
    refine ⟨hstep ▸ hserves, fun _ => hattends, ?_, hstep ▸ hptt.1, hptt.2⟩
    intro hended
    rw [hstep] at hended
    exact absurd hended hnext

theorem sound_step (h : keying.Sound) (move : VoiceMove) : (keying.step move).Sound := by
  cases move with
  | task move takesPtt =>
      dsimp only [step]
      cases hheard : keying.heard move with
      | none => exact h
      | some heard =>
          by_cases hphase : keying.task.phase = .exited
          · rw [Option.elim_some, stepTask_exited hphase heard takesPtt]
            exact h
          · exact sound_stepTask h hphase (heard_eq (h.attends hphase) hheard) takesPtt
  | receive opened =>
      refine ⟨h.serves.receive opened, fun hphase =>
        (h.attends hphase).receive opened, ?_, h.guarded,
        h.keyed⟩
      intro hphase
      exact VoiceThread.receive_leaves (h.leaves hphase) opened
  | timeout =>
      exact ⟨h.serves.timeout, fun hphase => (h.attends hphase).timeout,
        fun hphase => VoiceThread.timeout_leaves (h.leaves hphase), h.guarded, h.keyed⟩
  | release takesPtt =>
      dsimp only [step]
      split
      · exact h
      · cases takesPtt with
        | true => exact ⟨h.serves, h.attends, h.leaves, h.guarded, Bool.noConfusion⟩
        | false =>
            exact ⟨h.serves, h.attends, h.leaves, h.guarded,
              fun _ => .inr (.inr (Nat.succ_pos _))⟩

/-- A keying task that starts with its thread. -/
def start (radioId : Int) (keyer : Option String) (pttSupported : Bool) : VoiceKeying where
  task := { keyer := keyer, voicePlayback := true }
  thread := { radioId := radioId }
  pttSupported := pttSupported

theorem sound_run (radioId : Int) (keyer : Option String) (pttSupported : Bool)
    (moves : List VoiceMove) : ((start radioId keyer pttSupported).run moves).Sound := by
  refine Runs.invariant_run_of_forall Sound (fun _ move h => sound_step h move) ?_ moves
  refine ⟨⟨trivial, fun _ => rfl, rfl, VoicePhase.noConfusion⟩, fun _ => ?_, CwPhase.noConfusion,
    Bool.noConfusion, Bool.noConfusion⟩
  exact ⟨VoicePhase.noConfusion, List.not_mem_nil⟩

/-- Over every run the playbacks are answered once each and in the order they were asked for. A
thread that plays is not asked to play next, and when its task does not wait for the playback it
is told to stop or to shut down next. The thread ends with the task, with every playback answered.
The radio is keyed only while the task waits for a playback, unless it refused a release. -/
theorem run_playback (radioId : Int) (keyer : Option String) (pttSupported : Bool)
    (moves : List VoiceMove) :
    let keying := (start radioId keyer pttSupported).run moves
    let thread := keying.thread
    thread.completed.map Prod.fst ++ thread.outstanding = List.range keying.plays ∧
      (thread.isPlaying = true →
        (∀ play path, thread.commands.head? ≠ some (.play play path)) ∧
          (keying.task.phase.isVoice = false →
            thread.commands.head? = some .stop ∨ thread.commands.head? = some .shutdown)) ∧
      (keying.task.phase = .exited →
        thread.phase = .ended ∨ VoiceCommand.shutdown ∈ thread.commands) ∧
      (thread.phase = .ended →
        keying.task.phase = .exited ∧
          thread.completed.map Prod.fst = List.range keying.plays) ∧
      (keying.dataPtt = true →
        keying.task.phase.isVoice = true ∨ 0 < keying.failedReleases ∨
          0 < keying.abandonedReleases) := by
  intro keying thread
  have hsound : keying.Sound := sound_run radioId keyer pttSupported moves
  have hserves := hsound.serves
  refine ⟨hserves.answered, fun hplaying => ?_, hsound.leaves, fun hended => ⟨?_, ?_⟩,
    fun hkeyed => (hsound.keyed hkeyed).imp_left hsound.guarded⟩
  · obtain ⟨hplay, hstop⟩ := head_playing (hplaying ▸ hserves.orderly)
    exact ⟨hplay, fun hvoice => hstop (hplaying ▸ hserves.silent hvoice)⟩
  · by_contra hlive
    exact (hsound.attends hlive).1 hended
  · rw [← hserves.answered, VoiceThread.outstanding, hended, hserves.ended hended]
    exact (List.append_nil _).symm

end VoiceKeying

end Log73.RadioIo
