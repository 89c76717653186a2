import Mathlib.Data.List.Perm.Basic
import Mathlib.Data.List.Sublists
import Log73.RadioIo.CwTask

/-!
The queue of the keying task over every run: each text it takes from its channel is answered
once, texts reach the keyers in the order they came, a stop lets no earlier text through, and
changes of speed leave the queue alone, whichever loop of the task receives the commands.
-/

namespace Log73.RadioIo

/-! ### What a log says -/

def CwEvent.acceptedSend : CwEvent → Option PendingCwSend
  | .accepted send => some send
  | _ => none

def CwEvent.handedSend : CwEvent → Option PendingCwSend
  | .handed _ send => some send
  | _ => none

def CwEvent.completedSend : CwEvent → Option Nat
  | .completed send _ => some send
  | _ => none

/-- A stop or a shutdown has been processed. -/
def CwEvent.ends : CwEvent → Bool
  | .stopped | .shutDown => true
  | _ => false

def accepted (log : List CwEvent) : List PendingCwSend := log.filterMap CwEvent.acceptedSend

def handed (log : List CwEvent) : List PendingCwSend := log.filterMap CwEvent.handedSend

def completions (log : List CwEvent) : List Nat := log.filterMap CwEvent.completedSend

section Log

variable (log later : List CwEvent) (event : CwEvent)

@[simp] theorem accepted_singleton : accepted [event] = event.acceptedSend.toList := by
  cases event <;> rfl

@[simp] theorem handed_singleton : handed [event] = event.handedSend.toList := by
  cases event <;> rfl

@[simp] theorem completions_singleton : completions [event] = event.completedSend.toList := by
  cases event <;> rfl

@[simp] theorem accepted_append : accepted (log ++ later) = accepted log ++ accepted later :=
  List.filterMap_append

@[simp] theorem handed_append : handed (log ++ later) = handed log ++ handed later :=
  List.filterMap_append

@[simp] theorem completions_append :
    completions (log ++ later) = completions log ++ completions later :=
  List.filterMap_append

end Log

/-- The text was taken from the channel before a stop or a shutdown that has been processed. -/
def CancelledIn (log : List CwEvent) (send : PendingCwSend) : Prop :=
  ∃ earlier event later, log = earlier ++ event :: later ∧ event.ends = true ∧
    send ∈ accepted earlier

/-- What the task answers, by its stop or its shutdown, to a text it has not handed over. -/
def cancelReasons : List String :=
  ["cw stopped", "cw shutdown", "keying stopped", "keying shutdown"]

/-- Why a text is answered that was handed to no keyer: there is nothing in it, there is no keyer
to hand it to, or it was cancelled. -/
inductive Unkeyed [Platform] (keyer : Option String) (voicePlayback : Bool) (cancelled : Prop)
    (text : String) : Except String Unit → Prop where
  | blank (htext : (trim text).isEmpty = true) : Unkeyed keyer voicePlayback cancelled text (.ok ())
  | noKeyer (hkeyer : keyer = none) :
      Unkeyed keyer voicePlayback cancelled text (.error "cw keyer unavailable")
  | noVoice (hvoice : voicePlayback = false) :
      Unkeyed keyer voicePlayback cancelled text (.error "voice keyer thread unavailable")
  | cancelled (reason : String) (hreason : reason ∈ cancelReasons) (hcancelled : cancelled) :
      Unkeyed keyer voicePlayback cancelled text (.error reason)

theorem Unkeyed.imp [Platform] {keyer : Option String} {voicePlayback : Bool} {old new : Prop}
    {text : String} {result : Except String Unit} (h : Unkeyed keyer voicePlayback old text result)
    (himp : old → new) : Unkeyed keyer voicePlayback new text result := by
  cases h with
  | blank htext => exact .blank htext
  | noKeyer hkeyer => exact .noKeyer hkeyer
  | noVoice hvoice => exact .noVoice hvoice
  | cancelled reason hreason hold => exact .cancelled reason hreason (himp hold)

theorem CancelledIn.append {log : List CwEvent} {send : PendingCwSend} (h : CancelledIn log send)
    (new : List CwEvent) : CancelledIn (log ++ new) send := by
  obtain ⟨earlier, event, later, rfl, hends, hsend⟩ := h
  exact ⟨earlier, event, later ++ new, by simp, hends, hsend⟩

/-- The account of the texts taken so far: `busy` is with a keyer, `waiting` still is to be handed
over, and every other one has been answered. While a stop or a shutdown is processed, `ending`,
texts are answered whose cancellation the log does not show yet. -/
structure Accounted [Platform] (keyer : Option String) (voicePlayback : Bool) (ending : Prop)
    (log : List CwEvent) (busy waiting : List PendingCwSend) (received : Nat) : Prop where
  numbered : (accepted log).map PendingCwSend.completed = List.range received
  settled : (completions log ++ (busy ++ waiting).map PendingCwSend.completed).Perm
    (List.range received)
  ordered : (handed log ++ waiting).Sublist (accepted log)
  stopped : ∀ earlier event later, log = earlier ++ event :: later → event.ends = true →
    ∀ send ∈ accepted earlier, send ∉ handed later ∧ send ∉ waiting
  held : ∀ send ∈ busy, send ∈ handed log
  unkeyed : ∀ send ∈ accepted log, send ∉ handed log → ∀ result,
    .completed send.completed result ∈ log →
      Unkeyed keyer voicePlayback (ending ∨ CancelledIn log send) send.text result

namespace Accounted

variable [Platform] {keyer : Option String} {voicePlayback : Bool} {ending : Prop}
  {log : List CwEvent} {busy waiting : List PendingCwSend} {received : Nat}

omit [Platform] in
/-- A log that grows by an event has the new event last or where it was before. -/
theorem split_append {earlier later : List CwEvent} {event new : CwEvent}
    (h : log ++ [new] = earlier ++ event :: later) :
    (earlier = log ∧ event = new ∧ later = []) ∨
      ∃ rest, later = rest ++ [new] ∧ log = earlier ++ event :: rest := by
  rcases List.eq_nil_or_concat later with rfl | ⟨rest, last, rfl⟩
  · obtain ⟨hlog, hnew⟩ := List.append_inj' h rfl
    exact Or.inl ⟨hlog.symm, (List.singleton_inj.mp hnew).symm, rfl⟩
  · rw [List.concat_eq_append, ← List.cons_append, ← List.append_assoc] at h
    obtain ⟨hlog, hnew⟩ := List.append_inj' h rfl
    exact Or.inr ⟨rest, by rw [List.concat_eq_append, List.singleton_inj.mp hnew], hlog⟩

/-- A text that is taken has a number which no text before it has. -/
theorem fresh (h : Accounted keyer voicePlayback ending log busy waiting received)
    {send : PendingCwSend} (hsend : send ∈ accepted log) : send.completed < received := by
  have hnumber : send.completed ∈ (accepted log).map PendingCwSend.completed :=
    List.mem_map_of_mem hsend
  rw [h.numbered, List.mem_range] at hnumber
  exact hnumber

/-- The number tells the text. -/
theorem eq_of_completed (h : Accounted keyer voicePlayback ending log busy waiting received)
    {send other : PendingCwSend} (hsend : send ∈ accepted log) (hother : other ∈ accepted log)
    (hnumber : other.completed = send.completed) : other = send := by
  have hnodup : ((accepted log).map PendingCwSend.completed).Nodup := by
    rw [h.numbered]
    exact List.nodup_range
  exact List.inj_on_of_nodup_map hnodup hother hsend hnumber

theorem not_completed (h : Accounted keyer voicePlayback ending log busy waiting received)
    (result : Except String Unit) : .completed received result ∉ log := by
  intro hmem
  have hcompleted : received ∈ completions log := List.mem_filterMap.mpr ⟨_, hmem, rfl⟩
  have hrange := h.settled.subset (List.mem_append_left _ hcompleted)
  simp at hrange

theorem accept (h : Accounted keyer voicePlayback ending log busy waiting received)
    (send : PendingCwSend) (hsend : send.completed = received) :
    Accounted keyer voicePlayback ending (log ++ [.accepted send]) busy (waiting ++ [send])
      (received + 1) := by
  have hfresh : send ∉ accepted log := fun hmem => by
    have hlt := h.fresh hmem
    omega
  refine ⟨?_, ?_, ?_, ?_, ?_, ?_⟩
  · simp [CwEvent.acceptedSend, List.range_succ, ← h.numbered, hsend]
  · have hold := h.settled.append_right [received]
    rw [List.range_succ]
    simpa [CwEvent.completedSend, hsend] using hold
  · have hold := h.ordered.append (List.Sublist.refl [send])
    simpa [CwEvent.acceptedSend, CwEvent.handedSend] using hold
  · intro earlier event later hlog hends old hold
    rcases split_append hlog with ⟨-, rfl, -⟩ | ⟨rest, rfl, hrest⟩
    · simp [CwEvent.ends] at hends
    · obtain ⟨hhanded, hwaiting⟩ := h.stopped earlier event rest hrest hends old hold
      have hne : old ≠ send := by
        rintro rfl
        exact hfresh (by simp [hrest, hold])
      simp [CwEvent.handedSend, hhanded, hwaiting, hne]
  · intro old hold
    simp [h.held old hold]
  · intro old hold hhanded result hresult
    have hlog : .completed old.completed result ∈ log := by simpa using hresult
    have hne : old ≠ send := by
      rintro rfl
      exact h.not_completed result (hsend ▸ hlog)
    have hmem : old ∈ accepted log := by simpa [CwEvent.acceptedSend, hne] using hold
    have hnot : old ∉ handed log := fun hmem => hhanded (by simp [hmem])
    exact (h.unkeyed old hmem hnot result hlog).imp (Or.imp_right fun hin => hin.append _)

theorem hand {send : PendingCwSend}
    (h : Accounted keyer voicePlayback ending log [] (send :: waiting) received)
    (kind : KeyerKind) :
    Accounted keyer voicePlayback ending (log ++ [.handed kind send]) [send] waiting received := by
  refine ⟨?_, ?_, ?_, ?_, ?_, ?_⟩
  · simpa [CwEvent.acceptedSend] using h.numbered
  · simpa [CwEvent.completedSend] using h.settled
  · simpa [CwEvent.acceptedSend, CwEvent.handedSend] using h.ordered
  · intro earlier event later hlog hends old hold
    rcases split_append hlog with ⟨-, rfl, -⟩ | ⟨rest, rfl, hrest⟩
    · simp [CwEvent.ends] at hends
    · obtain ⟨hhanded, hwaiting⟩ := h.stopped earlier event rest hrest hends old hold
      simp only [List.mem_cons, not_or] at hwaiting
      simp [CwEvent.handedSend, hhanded, hwaiting]
  · simp [CwEvent.handedSend]
  · intro old hold hhanded result hresult
    have hlog : .completed old.completed result ∈ log := by simpa using hresult
    have hmem : old ∈ accepted log := by simpa [CwEvent.acceptedSend] using hold
    have hnot : old ∉ handed log := fun hmem => hhanded (by simp [hmem])
    exact (h.unkeyed old hmem hnot result hlog).imp (Or.imp_right fun hin => hin.append _)

/-- An event that neither takes a text nor hands one over, after which less is waiting. A text it
answers is with a keyer or has its reason not to be. -/
theorem settle {event : CwEvent} {busy' waiting' : List PendingCwSend}
    (h : Accounted keyer voicePlayback ending log busy waiting received)
    (haccepted : event.acceptedSend = none) (hhanded : event.handedSend = none)
    (hbusy : ∀ send ∈ busy', send ∈ busy) (hwaiting : waiting'.Sublist waiting)
    (hsettled : (event.completedSend.toList ++ (busy' ++ waiting').map PendingCwSend.completed).Perm
      ((busy ++ waiting).map PendingCwSend.completed))
    (hends : event.ends = true → waiting' = [])
    (hunkeyed : ∀ send ∈ accepted log, send ∉ handed log → ∀ result,
      event = .completed send.completed result →
        Unkeyed keyer voicePlayback (ending ∨ CancelledIn log send) send.text result) :
    Accounted keyer voicePlayback ending (log ++ [event]) busy' waiting' received := by
  refine ⟨?_, ?_, ?_, ?_, ?_, ?_⟩
  · simpa [haccepted] using h.numbered
  · rw [completions_append, completions_singleton, List.append_assoc]
    exact (hsettled.append_left (completions log)).trans h.settled
  · have hold := (List.Sublist.append_left hwaiting (handed log)).trans h.ordered
    simpa [haccepted, hhanded] using hold
  · intro earlier old later hlog holds send hsend
    rcases split_append hlog with ⟨-, rfl, rfl⟩ | ⟨rest, rfl, hrest⟩
    · simp [handed, hends holds]
    · obtain ⟨hnot, hrested⟩ := h.stopped earlier old rest hrest holds send hsend
      refine ⟨by simpa [hhanded] using hnot, fun hmem => hrested (hwaiting.subset hmem)⟩
  · intro send hsend
    simp [h.held send (hbusy send hsend)]
  · intro send hsend hnot result hresult
    have hmem : send ∈ accepted log := by simpa [haccepted] using hsend
    have hkeyed : send ∉ handed log := by simpa [hhanded] using hnot
    rw [List.mem_append, List.mem_singleton] at hresult
    rcases hresult with hold | hnew
    · exact (h.unkeyed send hmem hkeyed result hold).imp (Or.imp_right fun hin => hin.append _)
    · exact (hunkeyed send hmem hkeyed result hnew.symm).imp
        (Or.imp_right fun hin => hin.append _)

theorem complete {send : PendingCwSend}
    (h : Accounted keyer voicePlayback ending log [send] waiting received)
    (result : Except String Unit) :
    Accounted keyer voicePlayback ending (log ++ [.completed send.completed result]) [] waiting
      received := by
  refine h.settle rfl rfl nofun (List.Sublist.refl _) (List.Perm.refl _) nofun ?_
  intro other hother hnot given hgiven
  have hheld := h.held send List.mem_cons_self
  have htaken : send ∈ accepted log :=
    h.ordered.subset (List.mem_append_left waiting hheld)
  have hsame := h.eq_of_completed htaken hother (CwEvent.completed.inj hgiven).1.symm
  exact absurd (hsame ▸ hheld) hnot

/-- A text may be answered without having been handed over, where there is a reason. -/
theorem refuse {send : PendingCwSend} {result : Except String Unit}
    (h : Accounted keyer voicePlayback ending log busy (send :: waiting) received)
    (hresult : Unkeyed keyer voicePlayback ending send.text result) :
    Accounted keyer voicePlayback ending (log ++ [.completed send.completed result]) busy waiting
      received := by
  refine h.settle rfl rfl (fun _ => id) (List.sublist_cons_self send waiting) ?_ nofun ?_
  · simp only [CwEvent.completedSend, Option.toList_some, List.map_append, List.map_cons,
      List.singleton_append]
    exact List.perm_middle.symm
  · intro other hother hnot given hgiven
    obtain ⟨hnumber, rfl⟩ := CwEvent.completed.inj hgiven
    have htaken : send ∈ accepted log := h.ordered.subset (by simp)
    rw [h.eq_of_completed htaken hother hnumber.symm]
    exact hresult.imp Or.inl

theorem refuseAll (h : Accounted keyer voicePlayback ending log busy waiting received)
    {reason : String} (hreason : reason ∈ cancelReasons) (hending : ending) :
    Accounted keyer voicePlayback ending
      (log ++ waiting.map fun send => .completed send.completed (.error reason)) busy []
      received := by
  induction waiting generalizing log with
  | nil => simpa using h
  | cons send waiting ih =>
      have hrest := ih (h.refuse (.cancelled reason hreason hending))
      simpa using hrest

theorem note (h : Accounted keyer voicePlayback ending log busy waiting received)
    (event : CwEvent) (haccepted : event.acceptedSend = none)
    (hhanded : event.handedSend = none) (hcompleted : event.completedSend = none)
    (hends : event.ends = true → waiting = []) :
    Accounted keyer voicePlayback ending (log ++ [event]) busy waiting received := by
  refine h.settle haccepted hhanded (fun _ => id) (List.Sublist.refl _)
    (by simp [hcompleted]) hends ?_
  intro send _ _ result hresult
  rw [hresult] at hcompleted
  cases hcompleted

theorem toEnding (h : Accounted keyer voicePlayback False log busy waiting received) :
    Accounted keyer voicePlayback True log busy waiting received :=
  ⟨h.numbered, h.settled, h.ordered, h.stopped, h.held, fun send hsend hnot result hresult =>
    (h.unkeyed send hsend hnot result hresult).imp fun _ => Or.inl trivial⟩

/-- The log shows the stop or the shutdown: what was answered until then was cancelled by it. -/
theorem ended {event : CwEvent} (h : Accounted keyer voicePlayback True log busy [] received)
    (hevent : event = .stopped ∨ event = .shutDown) :
    Accounted keyer voicePlayback False (log ++ [event]) busy [] received := by
  have hnoted : Accounted keyer voicePlayback True (log ++ [event]) busy [] received := by
    refine h.note event ?_ ?_ ?_ fun _ => rfl
    all_goals rcases hevent with rfl | rfl <;> rfl
  refine ⟨hnoted.numbered, hnoted.settled, hnoted.ordered, hnoted.stopped, hnoted.held, ?_⟩
  intro send hsend hnot result hresult
  have hmem : send ∈ accepted log := by
    rcases hevent with rfl | rfl <;> simpa [CwEvent.acceptedSend] using hsend
  have hends : event.ends = true := by rcases hevent with rfl | rfl <;> rfl
  exact (hnoted.unkeyed send hsend hnot result hresult).imp fun _ =>
    Or.inr ⟨log, event, [], rfl, hends, hmem⟩

end Accounted

/-! ### What a move keeps -/

/-- The text a keyer is at work on. -/
def CwPhase.busy : CwPhase → List PendingCwSend
  | .voicePlayback send | .busyWait send | .idleWait send | .radioCatWait send => [send]
  | .receiving | .sending _ | .exited => []

/-- The text that is about to be sent. -/
def CwPhase.next : CwPhase → List PendingCwSend
  | .sending send => [send]
  | _ => []

/-- The account of a task between two awaits. -/
abbrev CwTask.Accounts [Platform] (task : CwTask) (busy waiting : List PendingCwSend) : Prop :=
  Accounted task.keyer task.voicePlayback False task.log busy waiting task.received

structure CwTask.Queued [Platform] (task : CwTask) : Prop where
  accounted : task.Accounts task.phase.busy (task.phase.next ++ task.pending)
  receiving : task.phase = .receiving → task.pending = []
  exited : task.phase = .exited → task.pending = []

/-- The keyer and the voice keyer report none of the errors by which the task shuts itself down. -/
def CwMove.Foreign : CwMove → Prop
  | .answer _ play queued =>
      CwTask.isShutdown play = false ∧ CwTask.isShutdown (queued.map fun _ => ()) = false
  | .playbackDone (some result) => CwTask.isShutdown result = false
  | .status reply => CwTask.isShutdown (reply.map fun _ => ()) = false
  | _ => True

namespace CwTask

variable [Platform] {task : CwTask} {send : PendingCwSend}

theorem queued_nextSend (h : task.Accounts [] task.pending) :
    task.nextSend.Queued := by
  unfold nextSend
  split
  · next send pending hpending =>
      exact ⟨by simpa [CwPhase.busy, CwPhase.next, hpending] using h, nofun, nofun⟩
  · next hpending =>
      exact ⟨by simpa [CwPhase.busy, CwPhase.next, hpending] using h, fun _ => hpending, nofun⟩

/-- A send that is over is followed by the next one that is pending. -/
theorem queued_finish {result : Except String Unit}
    (h : (task.record (.completed send.completed result)).Accounts [] task.pending)
    (hshutdown : isShutdown result = true → task.pending = []) :
    (task.finish send result).Queued := by
  unfold finish
  dsimp only
  split
  · next hdown =>
      have hpending := hshutdown hdown
      exact ⟨by simpa [CwPhase.busy, CwPhase.next, record, hpending] using h, nofun,
        fun _ => hpending⟩
  · exact queued_nextSend h

theorem queued_finish_busy (h : task.Accounts [send] task.pending)
    {result : Except String Unit} (hforeign : isShutdown result = false) :
    (task.finish send result).Queued :=
  queued_finish (h.complete result) fun hdown => absurd (hforeign.symm.trans hdown) nofun

theorem queued_refuse (h : task.Accounts [] (send :: task.pending))
    {result : Except String Unit} (hforeign : isShutdown result = false)
    (hresult : Unkeyed task.keyer task.voicePlayback False send.text result) :
    (task.finish send result).Queued :=
  queued_finish (h.refuse hresult) fun hdown => absurd (hforeign.symm.trans hdown) nofun

/-- A loop that waits takes every command: texts join the queue, and a stop or a shutdown empties
it and ends the send. -/
theorem queued_waitCommand (h : task.Queued) (hbusy : task.phase.busy = [send])
    (command : Option CwTaskCommand) {context : WaitContext}
    (hstop : context.stopReason ∈ cancelReasons)
    (hshutdown : context.shutdownReason ∈ cancelReasons) :
    (task.waitCommand send command context).Queued := by
  have haccounted : task.Accounts [send] task.pending := by
    have hnext : task.phase.next = [] := by
      cases hphase : task.phase <;> simp_all [CwPhase.busy, CwPhase.next]
    simpa [hbusy, hnext] using h.accounted
  have hinterrupt : ∀ (event : CwEvent) (reason : String), event = .stopped ∨ event = .shutDown →
      reason ∈ cancelReasons →
      (((task.failPendingCwSends reason).record event).stop.finish send
        (.error reason)).Queued := by
    intro event reason hevent hreason
    have hfailed := haccounted.toEnding.refuseAll hreason trivial
    have hcleared := (hfailed.ended hevent).note .cleared rfl rfl rfl nofun
    exact queued_finish (hcleared.complete (.error reason)) fun _ => rfl
  cases command with
  | none => exact hinterrupt _ _ (Or.inr rfl) hshutdown
  | some command =>
      cases command with
      | stop => exact hinterrupt _ _ (Or.inl rfl) hstop
      | shutdown => exact hinterrupt _ _ (Or.inr rfl) hshutdown
      | setWpm wpm =>
          have hnoted := h.accounted.note (.wpm wpm) rfl rfl rfl nofun
          exact ⟨hnoted, h.receiving, h.exited⟩
      | sendText text waitForCompletion =>
          have htaken := h.accounted.accept (task.incoming text waitForCompletion) rfl
          rw [List.append_assoc] at htaken
          refine ⟨htaken, ?_, ?_⟩
          · intro hphase
            have hphase' : task.phase = .receiving := hphase
            simp [hphase', CwPhase.busy] at hbusy
          · intro hphase
            have hphase' : task.phase = .exited := hphase
            simp [hphase', CwPhase.busy] at hbusy

omit [Platform] in
/-- The keyer's status is the keyer's own, or tells that there is none. -/
theorem keyerStatus_foreign {answer : Except String (Option Bool)} {reason : String}
    (h : isShutdown (answer.map fun _ => ()) = false)
    (hstatus : task.keyerStatus answer = .error reason) : isShutdown (.error reason) = false := by
  unfold keyerStatus at hstatus
  split at hstatus
  · obtain rfl := Except.error.inj hstatus
    decide
  · next name _ =>
      split at hstatus
      · next error =>
          obtain rfl := Except.error.inj hstatus
          exact h
      · cases hstatus
      · obtain rfl := Except.error.inj hstatus
        have hlength : ∀ short : String, short.length < 29 →
            name ++ " keyer does not report status" ≠ short := by
          intro short hshort heq
          have hlong := congrArg String.length heq
          rw [String.length_append] at hlong
          have hstatus : (" keyer does not report status" : String).length = 29 := by decide
          omega
        have hcw := hlength "cw shutdown" (by decide)
        have hkeying := hlength "keying shutdown" (by decide)
        simp [isShutdown, hcw, hkeying]

theorem queued_sendText (h : task.Queued) (hphase : task.phase = .sending send)
    {mode : Option Mode} {play : Except String Unit} {queued : Except String CwSendCompletion}
    (hforeign : (CwMove.answer mode play queued).Foreign) :
    (task.sendText send mode play queued).Queued := by
  have haccounted : task.Accounts [] (send :: task.pending) := by
    simpa [hphase, CwPhase.busy, CwPhase.next] using h.accounted
  obtain ⟨hplay, hqueued⟩ := hforeign
  unfold sendText
  split
  · next htext => exact queued_refuse haccounted rfl (.blank htext)
  split
  · unfold sendVoiceFile
    split
    · have hhanded : (task.record (.handed .voice send)).Accounts [send] task.pending :=
        haccounted.hand .voice
      dsimp only
      split
      · exact queued_finish_busy hhanded hplay
      · refine ⟨hhanded, fun hphase => ?_, fun hphase => ?_⟩ <;> cases hphase
    · next hvoice =>
        exact queued_refuse haccounted (by decide) (.noVoice (Bool.not_eq_true _ ▸ hvoice))
  · split
    · next hkeyer => exact queued_refuse haccounted (by decide) (.noKeyer hkeyer)
    · have hhanded : (task.record (.handed .cw send)).Accounts [send] task.pending :=
        haccounted.hand .cw
      dsimp only
      split
      · exact queued_finish_busy hhanded hqueued
      · split
        · exact queued_finish_busy hhanded rfl
        · split
          · refine ⟨hhanded, fun hphase => ?_, fun hphase => ?_⟩ <;> cases hphase
          · refine ⟨hhanded, fun hphase => ?_, fun hphase => ?_⟩ <;> cases hphase
          · refine ⟨hhanded, fun hphase => ?_, fun hphase => ?_⟩ <;> cases hphase

theorem queued_receive (h : task.Queued) (hphase : task.phase = .receiving)
    (command : Option CwTaskCommand) : (task.receive command).Queued := by
  have hpending := h.receiving hphase
  have haccounted : task.Accounts [] [] := by
    simpa [hphase, hpending, CwPhase.busy, CwPhase.next] using h.accounted
  have hdown : (task.receive none).Queued := by
    have hnoted := haccounted.note .shutDown rfl rfl rfl fun _ => rfl
    refine ⟨?_, nofun, fun _ => rfl⟩
    simpa [receive, failPendingCwSends, record, hpending, CwPhase.busy, CwPhase.next] using hnoted
  cases command with
  | none => exact hdown
  | some command =>
      cases command with
      | shutdown => exact hdown
      | stop =>
          have hcleared := haccounted.note .cleared rfl rfl rfl nofun
          have hnoted := hcleared.note .stopped rfl rfl rfl fun _ => rfl
          refine ⟨?_, fun _ => hpending, fun _ => hpending⟩
          simpa [receive, stop, record, hphase, hpending, CwPhase.busy, CwPhase.next] using hnoted
      | setWpm wpm =>
          have hnoted := h.accounted.note (.wpm wpm) rfl rfl rfl nofun
          exact ⟨hnoted, h.receiving, h.exited⟩
      | sendText text waitForCompletion =>
          have htaken := haccounted.accept (task.incoming text waitForCompletion) rfl
          refine ⟨?_, nofun, nofun⟩
          simpa [receive, accept, record, hpending, CwPhase.busy, CwPhase.next] using htaken

theorem Queued.step (h : task.Queued) (move : CwMove) (hforeign : move.Foreign) :
    (task.step move).Queued := by
  unfold CwTask.step
  split
  · next hphase =>
      split
      · exact queued_receive h hphase _
      · exact h
  · next send hphase =>
      split
      · exact queued_sendText h hphase hforeign
      · exact h
  · next send hphase =>
      have hbusy : task.phase.busy = [send] := by rw [hphase]; rfl
      have haccounted : task.Accounts [send] task.pending := by
        simpa [hphase, CwPhase.busy, CwPhase.next] using h.accounted
      unfold waitUntilVoicePlaybackDoneOrStopped
      split
      · exact queued_finish_busy haccounted hforeign
      · exact queued_finish_busy haccounted (by decide)
      · exact queued_waitCommand h hbusy _ (by decide) (by decide)
      · exact h
  · next send hphase =>
      have hbusy : task.phase.busy = [send] := by rw [hphase]; rfl
      have haccounted : task.Accounts [send] task.pending := by
        simpa [hphase, CwPhase.busy, CwPhase.next] using h.accounted
      unfold waitUntilBusyOrStopped
      split
      · exact queued_waitCommand h hbusy _ (by decide) (by decide)
      · exact queued_finish_busy haccounted (by decide)
      · split
        · exact ⟨haccounted, nofun, nofun⟩
        · exact h
        · next hstatus => exact queued_finish_busy haccounted (keyerStatus_foreign hforeign hstatus)
      · exact h
  · next send hphase =>
      have hbusy : task.phase.busy = [send] := by rw [hphase]; rfl
      have haccounted : task.Accounts [send] task.pending := by
        simpa [hphase, CwPhase.busy, CwPhase.next] using h.accounted
      unfold waitUntilIdleOrStopped
      split
      · exact queued_waitCommand h hbusy _ (by decide) (by decide)
      · split
        · exact queued_finish_busy haccounted rfl
        · exact h
        · next hstatus => exact queued_finish_busy haccounted (keyerStatus_foreign hforeign hstatus)
      · exact h
  · next send hphase =>
      have hbusy : task.phase.busy = [send] := by rw [hphase]; rfl
      have haccounted : task.Accounts [send] task.pending := by
        simpa [hphase, CwPhase.busy, CwPhase.next] using h.accounted
      unfold waitUntilRadioCatCwCompleteOrStopped
      split
      · exact queued_waitCommand h hbusy _ (by decide) (by decide)
      · exact queued_finish_busy haccounted rfl
      · exact queued_finish_busy haccounted rfl
      · exact queued_finish_busy haccounted (by decide)
      · exact h
  · exact h

end CwTask

/-! ### Changes of speed -/

def CwMove.isSetWpm : CwMove → Bool
  | .command (some (.setWpm _)) => true
  | _ => false

def CwEvent.isWpm : CwEvent → Bool
  | .wpm _ => true
  | _ => false

namespace CwTask

variable (task : CwTask)

/-- The task as it is when nobody ever changes the speed. -/
def withoutWpm : CwTask := { task with log := task.log.filter fun event => !event.isWpm }

theorem record_withoutWpm {event : CwEvent} (h : event.isWpm = false) :
    task.withoutWpm.record event = (task.record event).withoutWpm := by
  simp [withoutWpm, record, List.filter_append, h]

theorem setWpm_withoutWpm (wpm : UInt8) : (task.setWpm wpm).withoutWpm = task.withoutWpm := by
  simp [withoutWpm, setWpm, record, List.filter_append, CwEvent.isWpm]

theorem nextSend_withoutWpm : task.withoutWpm.nextSend = task.nextSend.withoutWpm := by
  unfold nextSend
  cases hpending : task.pending <;> simp [withoutWpm, hpending]

theorem finish_withoutWpm (send : PendingCwSend) (result : Except String Unit) :
    task.withoutWpm.finish send result = (task.finish send result).withoutWpm := by
  unfold finish
  dsimp only
  rw [record_withoutWpm task rfl]
  split
  · rfl
  · exact nextSend_withoutWpm _

theorem failPendingCwSends_withoutWpm (reason : String) :
    task.withoutWpm.failPendingCwSends reason = (task.failPendingCwSends reason).withoutWpm := by
  have hcompleted : (task.pending.map fun send =>
      CwEvent.completed send.completed (.error reason)).filter (fun event => !event.isWpm) =
      task.pending.map fun send => .completed send.completed (.error reason) := by
    refine List.filter_eq_self.mpr fun event hevent => ?_
    obtain ⟨send, -, rfl⟩ := List.mem_map.mp hevent
    rfl
  simp only [failPendingCwSends, withoutWpm, List.filter_append, hcompleted]

theorem waitCommand_withoutWpm (send : PendingCwSend) (command : Option CwTaskCommand)
    (context : WaitContext) (h : (CwMove.command command).isSetWpm = false) :
    task.withoutWpm.waitCommand send command context =
      (task.waitCommand send command context).withoutWpm := by
  have hinterrupt : ∀ (event : CwEvent) (reason : String), event.isWpm = false →
      (((task.withoutWpm.failPendingCwSends reason).record event).stop.finish send
        (.error reason)) =
      (((task.failPendingCwSends reason).record event).stop.finish send
        (.error reason)).withoutWpm := by
    intro event reason hevent
    rw [failPendingCwSends_withoutWpm, record_withoutWpm _ hevent, stop, record_withoutWpm _ rfl,
      finish_withoutWpm]
    rfl
  cases command with
  | none => exact hinterrupt _ _ rfl
  | some command =>
      cases command with
      | stop => exact hinterrupt _ _ rfl
      | shutdown => exact hinterrupt _ _ rfl
      | setWpm wpm => exact absurd h nofun
      | sendText text waitForCompletion =>
          simp [waitCommand, applyWaitCommand, handleWaitCommand, accept, record, incoming,
            withoutWpm, List.filter_append, CwEvent.isWpm]

theorem receive_withoutWpm (command : Option CwTaskCommand)
    (h : (CwMove.command command).isSetWpm = false) :
    task.withoutWpm.receive command = (task.receive command).withoutWpm := by
  have hdown : task.withoutWpm.receive none = (task.receive none).withoutWpm := by
    simp only [receive, failPendingCwSends_withoutWpm]
    rw [record_withoutWpm _ rfl]
    rfl
  cases command with
  | none => exact hdown
  | some command =>
      cases command with
      | shutdown => exact hdown
      | stop =>
          simp only [receive, stop]
          rw [record_withoutWpm _ rfl, record_withoutWpm _ rfl]
      | setWpm wpm => exact absurd h nofun
      | sendText text waitForCompletion =>
          simp [receive, accept, record, incoming, withoutWpm, List.filter_append, CwEvent.isWpm]

theorem sendVoiceFile_withoutWpm (send : PendingCwSend) (play : Except String Unit) :
    task.withoutWpm.sendVoiceFile send play = (task.sendVoiceFile send play).withoutWpm := by
  have hvoice : task.withoutWpm.voicePlayback = task.voicePlayback := rfl
  unfold sendVoiceFile
  dsimp only
  rw [record_withoutWpm _ rfl, hvoice]
  split
  · cases play with
    | error error => exact finish_withoutWpm _ _ _
    | ok played => rfl
  · exact finish_withoutWpm _ _ _

theorem sendText_withoutWpm [Platform] (send : PendingCwSend) (mode : Option Mode)
    (play : Except String Unit) (queued : Except String CwSendCompletion) :
    task.withoutWpm.sendText send mode play queued =
      (task.sendText send mode play queued).withoutWpm := by
  have hkeyer : task.withoutWpm.keyer = task.keyer := rfl
  unfold sendText
  dsimp only
  rw [record_withoutWpm _ rfl, hkeyer]
  split
  · exact finish_withoutWpm _ _ _
  split
  · exact sendVoiceFile_withoutWpm _ _ _
  cases task.keyer with
  | none => exact finish_withoutWpm _ _ _
  | some name =>
      cases queued with
      | error error => exact finish_withoutWpm _ _ _
      | ok completion =>
          dsimp only
          split
          · exact finish_withoutWpm _ _ _
          · cases completion with
            | pollStatus waitForBusy => cases waitForBusy <;> rfl
            | radioCatUpdates => rfl

theorem radioCatWait_withoutWpm (send : PendingCwSend) {move : CwMove}
    (h : move.isSetWpm = false) :
    task.withoutWpm.waitUntilRadioCatCwCompleteOrStopped send move =
      (task.waitUntilRadioCatCwCompleteOrStopped send move).withoutWpm := by
  unfold waitUntilRadioCatCwCompleteOrStopped
  split
  · exact waitCommand_withoutWpm task send _ _ h
  · exact finish_withoutWpm _ _ _
  · exact finish_withoutWpm _ _ _
  · exact finish_withoutWpm _ _ _
  · rfl

theorem step_withoutWpm [Platform] {move : CwMove} (h : move.isSetWpm = false) :
    task.withoutWpm.step move = (task.step move).withoutWpm := by
  have hphase : task.withoutWpm.phase = task.phase := rfl
  have hstatus : ∀ answer, task.withoutWpm.keyerStatus answer = task.keyerStatus answer :=
    fun _ => rfl
  unfold step
  rw [hphase]
  cases task.phase with
  | receiving =>
      cases move with
      | command command => exact receive_withoutWpm task command h
      | _ => rfl
  | sending send =>
      cases move with
      | answer mode play queued => exact sendText_withoutWpm task send mode play queued
      | _ => rfl
  | voicePlayback send =>
      cases move with
      | command command => exact waitCommand_withoutWpm task send command _ h
      | playbackDone result =>
          cases result with
          | none => exact finish_withoutWpm task send (.error "voice keyer thread unavailable")
          | some result => exact finish_withoutWpm task send result
      | _ => rfl
  | busyWait send =>
      cases move with
      | command command => exact waitCommand_withoutWpm task send command _ h
      | deadline => exact finish_withoutWpm task send (.error "cw keyer did not become busy")
      | status answer =>
          simp only [waitUntilBusyOrStopped, hstatus]
          split
          · rfl
          · rfl
          · exact finish_withoutWpm _ _ _
      | _ => rfl
  | idleWait send =>
      cases move with
      | command command => exact waitCommand_withoutWpm task send command _ h
      | status answer =>
          simp only [waitUntilIdleOrStopped, hstatus]
          split
          · exact finish_withoutWpm _ _ _
          · rfl
          · exact finish_withoutWpm _ _ _
      | _ => rfl
  | radioCatWait send => exact radioCatWait_withoutWpm task send h
  | exited => rfl

/-- A change of speed leaves the queue as it was, wherever the task receives it. -/
theorem step_setWpm [Platform] (wpm : UInt8) :
    (task.step (.command (some (.setWpm wpm)))).withoutWpm = task.withoutWpm := by
  unfold step
  split
  · exact setWpm_withoutWpm task wpm
  · rfl
  · exact setWpm_withoutWpm task wpm
  · exact setWpm_withoutWpm task wpm
  · exact setWpm_withoutWpm task wpm
  · exact setWpm_withoutWpm task wpm
  · rfl

theorem run_withoutWpm [Platform] (moves : List CwMove) :
    (task.run moves).withoutWpm =
      task.withoutWpm.run (moves.filter fun move => !move.isSetWpm) := by
  induction moves generalizing task with
  | nil => rfl
  | cons move moves ih =>
      change ((task.step move).run moves).withoutWpm = _
      rw [ih]
      cases hmove : move.isSetWpm with
      | true =>
          obtain ⟨wpm, rfl⟩ : ∃ wpm, move = .command (some (.setWpm wpm)) := by
            unfold CwMove.isSetWpm at hmove
            split at hmove
            · exact ⟨_, rfl⟩
            · exact absurd hmove nofun
          rw [step_setWpm, List.filter_cons_of_neg (by simp [CwMove.isSetWpm])]
      | false =>
          rw [List.filter_cons_of_pos (by simp [hmove]), ← step_withoutWpm task hmove]
          rfl

end CwTask

/-! ### Every run -/

/-- What the senders of a radio can count on: one answer for each text, once the task is over;
the order they sent in; that a text is answered with success only after it was handed to a keyer
or when there is nothing in it, and unhanded otherwise only for a reason; and that nothing sent
before a stop is keyed after it. -/
structure CwTask.QueueLaw [Platform] (task : CwTask) : Prop where
  answered : task.phase = .exited → ∀ send ∈ accepted task.log,
    (completions task.log).count send.completed = 1
  once : (completions task.log).Nodup
  asked : ∀ number ∈ completions task.log, ∃ send ∈ accepted task.log, send.completed = number
  distinct : ((accepted task.log).map PendingCwSend.completed).Nodup
  ordered : (handed task.log).Sublist (accepted task.log)
  keyed : ∀ send ∈ accepted task.log, .completed send.completed (.ok ()) ∈ task.log →
    (trim send.text).isEmpty = false → send ∈ handed task.log
  unkeyed : ∀ send ∈ accepted task.log, send ∉ handed task.log → ∀ result,
    .completed send.completed result ∈ task.log →
      Unkeyed task.keyer task.voicePlayback (CancelledIn task.log send) send.text result
  stopped : ∀ earlier event later, task.log = earlier ++ event :: later → event.ends = true →
    ∀ send ∈ accepted earlier, send ∉ handed later

theorem CwTask.Queued.law [Platform] {task : CwTask} (h : task.Queued) : task.QueueLaw := by
  have hsettled := h.accounted.settled
  have hnodup := hsettled.nodup_iff.mpr List.nodup_range
  have hunkeyed : ∀ send ∈ accepted task.log, send ∉ handed task.log → ∀ result,
      .completed send.completed result ∈ task.log →
        Unkeyed task.keyer task.voicePlayback (CancelledIn task.log send) send.text result :=
    fun send hsend hnot result hresult =>
      (h.accounted.unkeyed send hsend hnot result hresult).imp fun hcancelled =>
        hcancelled.resolve_left id
  refine ⟨?_, hnodup.of_append_left, ?_, ?_, ?_, ?_, hunkeyed, ?_⟩
  · intro hexited send hsend
    rw [hexited, h.exited hexited] at hsettled
    have hperm : (completions task.log).Perm (List.range task.received) := by
      simpa [CwPhase.busy, CwPhase.next] using hsettled
    rw [hperm.count_eq, ← h.accounted.numbered]
    refine List.count_eq_one_of_mem ?_ (List.mem_map_of_mem hsend)
    rw [h.accounted.numbered]
    exact List.nodup_range
  · intro number hnumber
    have hrange := hsettled.subset (List.mem_append_left _ hnumber)
    rw [← h.accounted.numbered] at hrange
    exact List.mem_map.mp hrange
  · rw [h.accounted.numbered]
    exact List.nodup_range
  · exact (List.sublist_append_left _ _).trans h.accounted.ordered
  · intro send hsend hdone htext
    refine Classical.byContradiction fun hnot => ?_
    cases hunkeyed send hsend hnot _ hdone with
    | blank hblank => exact absurd (hblank.symm.trans htext) nofun
  · intro earlier event later hlog hends send hsend
    exact (h.accounted.stopped earlier event later hlog hends send hsend).1

theorem CwTask.queued_new [Platform] (keyer : Option String) (voicePlayback : Bool) :
    ({ keyer := keyer, voicePlayback := voicePlayback } : CwTask).Queued := by
  refine ⟨⟨rfl, List.Perm.refl _, List.Sublist.refl _, ?_, nofun, nofun⟩, fun _ => rfl,
    fun _ => rfl⟩
  intro earlier event later hlog
  simp at hlog

/-- The queue law holds however the commands fall to the loops of the task and whatever the
keyers do, short of reporting the task's own shutdown; and without its changes of speed a run
does the same. -/
theorem CwTask.run_queueLaw [Platform] (keyer : Option String) (voicePlayback : Bool)
    (moves : List CwMove) (hforeign : ∀ move ∈ moves, move.Foreign) :
    let task : CwTask := { keyer := keyer, voicePlayback := voicePlayback }
    (task.run moves).QueueLaw ∧
      (task.run moves).withoutWpm = task.run (moves.filter fun move => !move.isSetWpm) := by
  refine ⟨Queued.law ?_, run_withoutWpm _ moves⟩
  have hrun : ∀ (moves : List CwMove) (task : CwTask), (∀ move ∈ moves, move.Foreign) →
      task.Queued → (task.run moves).Queued := by
    intro moves
    induction moves with
    | nil => exact fun _ _ h => h
    | cons move moves ih =>
        intro task hforeign h
        have hrest : ∀ move ∈ moves, move.Foreign := fun move hmove =>
          hforeign move (List.mem_cons_of_mem _ hmove)
        exact ih (task.step move) hrest (h.step move (hforeign move List.mem_cons_self))
  exact hrun moves _ hforeign (queued_new keyer voicePlayback)

section Witness

attribute [local instance] asciiPlatform

/-- Three texts: the second is queued while the first is keyed, with a change of speed between
them, and the third is cancelled by a stop while the second is keyed. -/
theorem CwTask.run_queueLaw_three_texts :
    let moves : List CwMove := [.command (some (.sendText "CQ" true)),
      .answer (some .cw) (.ok ()) (.ok (.pollStatus false)), .command (some (.setWpm 28)),
      .command (some (.sendText "TU" true)), .status (.ok (some false)),
      .answer (some .cw) (.ok ()) (.ok .radioCatUpdates), .command (some (.sendText "73" false)),
      .command (some .stop), .command none]
    let task : CwTask := { keyer := some "winkeyer", voicePlayback := true }
    ((task.run moves).QueueLaw ∧
      (task.run moves).withoutWpm = task.run (moves.filter fun move => !move.isSetWpm)) ∧
      (accepted (task.run moves).log).map PendingCwSend.text = ["CQ", "TU", "73"] ∧
      (handed (task.run moves).log).map PendingCwSend.text = ["CQ", "TU"] ∧
      completions (task.run moves).log = [0, 2, 1] :=
  ⟨CwTask.run_queueLaw _ _ _ (by simp [CwMove.Foreign, isShutdown, Except.map]), by decide,
    by decide, by decide⟩

end Witness

end Log73.RadioIo
