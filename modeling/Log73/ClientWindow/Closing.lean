import Log73.ClientWindow.Update
import Log73.Library.Runs

/-! The window is closed when no host is alive, if nobody asks for it while a host is stopped. -/

namespace Log73.ClientWindow

open Runs

variable {Host : Type}

/-- The window with the tasks of starting and stopping that are under way. -/
structure Running (Host : Type) where
  client : RadioClient Host
  starts : Nat
  stops : Nat

def Task.starts : Task Host → Nat
  | .start => 1
  | _ => 0

def Task.stops : Task Host → Nat
  | .stop _ => 1
  | _ => 0

namespace Running

def begin (settings : RadioClientSettings) (logLevelOverride : Option String) : Running Host where
  client := RadioClient.new settings logLevelOverride
  starts := 0
  stops := 0

/-- A result comes from a task that is under way. -/
def Can (running : Running Host) : Message Host → Prop
  | .startFinished (some _) => 0 < running.starts
  | .stopFinished _ => 0 < running.stops
  | _ => True

/-- The task that a message is the result of is over. -/
def finish (running : Running Host) : Message Host → Running Host
  | .startFinished (some _) => { running with starts := running.starts - 1 }
  | .stopFinished _ => { running with stops := running.stops - 1 }
  | _ => running

def deliver (running : Running Host) (message : Message Host) : Running Host × Task Host :=
  let left := running.finish message
  let (client, task) := left.client.update message
  ({ client := client, starts := left.starts + task.starts, stops := left.stops + task.stops },
    task)

def step (running : Running Host) (message : Message Host) : Running Host :=
  (running.deliver message).1

/-- No task is under way and no host is held. -/
def Quiet (running : Running Host) : Prop :=
  running.starts = 0 ∧ running.stops = 0 ∧ running.client.host = none

/-- If the message closes a window, then nothing is left. -/
def ClosesQuietly (running : Running Host) (message : Message Host) : Prop :=
  ∀ window, (running.deliver message).2 = .close window → (running.step message).Quiet

/-- No configuration is saved during a task, and no start is pressed while a host is held. -/
def OneAtATime (running : Running Host) : Message Host → Prop
  | .configure (.saved _) => running.starts = 0 ∧ running.stops = 0
  | .startPressed => running.client.host = none
  | _ => True

/-- The window is not asked to close while a host is stopped or its start is waited for. -/
def AsksInTime (running : Running Host) : Message Host → Prop
  | .windowCloseRequested _ => running.client.lifecycle ≠ .stopping
  | _ => True

end Running

/-! What the messages leave as it is. -/

namespace RadioClient

variable (state : RadioClient Host)

/-- The two have the same phase, host and remembered request. -/
def Alike (state other : RadioClient Host) : Prop :=
  other.lifecycle = state.lifecycle ∧ other.host = state.host ∧
    other.pendingCloseWindow = state.pendingCloseWindow

theorem pushEvents_alike (messages : List String) : state.Alike (state.pushEvents messages) := by
  refine List.foldlRecOn messages pushEvent ⟨rfl, rfl, rfl⟩ fun after halike message _ => ?_
  exact halike

theorem configurePressed_alike : state.Alike state.configurePressed := by
  rw [configurePressed]
  split <;> exact ⟨rfl, rfl, rfl⟩

theorem debugLoggingChanged_alike (enabled : Bool) (saved reloaded : Except String Unit) :
    state.Alike (state.debugLoggingChanged enabled saved reloaded) := by
  unfold debugLoggingChanged
  split
  · exact ⟨rfl, rfl, rfl⟩
  · dsimp only
    split
    · exact ⟨rfl, rfl, rfl⟩
    · split <;> exact ⟨rfl, rfl, rfl⟩

theorem backendTick_alike (drained : List BackendStatus) :
    state.Alike (state.backendTick drained) := by
  rw [backendTick]
  split
  · refine List.foldlRecOn drained backendEvent ⟨rfl, rfl, rfl⟩ fun after halike status _ => ?_
    rw [backendEvent]
    split <;> exact halike
  · exact ⟨rfl, rfl, rfl⟩

end RadioClient

namespace Running

/-- At most one task is under way, in its phase and without a host; a request to close is
remembered while a host is stopped only. -/
structure Sound (running : Running Host) : Prop where
  single : running.starts + running.stops ≤ 1
  starting : running.starts = 1 →
    running.client.lifecycle = .starting ∨ running.client.lifecycle = .stopping
  stopping : running.stops = 1 → running.client.lifecycle = .stopping
  alone : running.starts + running.stops = 1 → running.client.host = none
  busy : running.client.lifecycle = .starting ∨ running.client.lifecycle = .stopping →
    running.starts + running.stops = 1
  remembered : running.client.lifecycle ≠ .stopping → running.client.pendingCloseWindow = none
  started : running.client.lifecycle = .starting → running.starts = 1

theorem Sound.of_alike {running : Running Host} (h : running.Sound) {client : RadioClient Host}
    (halike : running.client.Alike client) :
    Sound { running with client := client } := by
  obtain ⟨hlifecycle, hhost, hpending⟩ := halike
  constructor <;> simp only [hlifecycle, hhost, hpending]
  case single => exact h.single
  case starting => exact h.starting
  case stopping => exact h.stopping
  case alone => exact h.alone
  case busy => exact h.busy
  case remembered => exact h.remembered
  case started => exact h.started

theorem sound_begin (settings : RadioClientSettings) (logLevelOverride : Option String) :
    (begin settings logLevelOverride : Running Host).Sound := by
  constructor <;> simp [begin, RadioClient.new, LifecycleState.initial] <;> split <;> simp

/-- The window after a message whose task the caller has accounted for. -/
def after (running : Running Host) (result : RadioClient Host × Task Host) : Running Host where
  client := result.1
  starts := running.starts + result.2.starts
  stops := running.stops + result.2.stops

variable {running : Running Host}

theorem Sound.configure (h : running.Sound) {outcome : Outcome}
    (hone : running.OneAtATime (.configure outcome)) :
    (running.after (running.client.configure outcome)).Sound := by
  obtain ⟨hsingle, hstarting, hstopping, halone, hbusy, hremembered, hstarted⟩ := h
  unfold RadioClient.configure
  split
  · cases outcome with
    | none testsConnection =>
        cases testsConnection <;> exact ⟨hsingle, hstarting, hstopping, halone, hbusy,
          hremembered, hstarted⟩
    | saved settings =>
        obtain ⟨hstarts, hstops⟩ := hone
        have hphase : LifecycleState.initial settings ≠ .starting ∧
            LifecycleState.initial settings ≠ .stopping := by
          rw [LifecycleState.initial]
          split <;> simp
        have hnone : running.client.pendingCloseWindow = none := by grind
        constructor <;> simp [after, Task.starts, Task.stops, RadioClient.pushEvent,
          hstarts, hstops,
          hphase, hnone]
    | cancelled => exact ⟨hsingle, hstarting, hstopping, halone, hbusy, hremembered, hstarted⟩
  · exact ⟨hsingle, hstarting, hstopping, halone, hbusy, hremembered, hstarted⟩

theorem Sound.startPressed (h : running.Sound) (hone : running.OneAtATime .startPressed) :
    (running.after running.client.startPressed).Sound := by
  rw [RadioClient.startPressed]
  split
  · next hphase =>
      have hidle : running.starts = 0 ∧ running.stops = 0 := by
        have := h.single
        have := h.starting
        have := h.stopping
        grind
      have hnone : running.client.pendingCloseWindow = none := by
        have := h.remembered
        grind
      have hhost : running.client.host = none := hone
      constructor <;> simp [after, Task.starts, Task.stops, RadioClient.pushEvent, hidle, hnone,
        hhost]
  · exact h

/-- A press of stop, and a request to close that comes with it. -/
theorem Sound.stopPressed (h : running.Sound) {pending : Option Nat}
    (hpending : running.client.lifecycle ≠ .stopping → running.client.lifecycle ≠ .starting →
      running.client.host = none → pending = none) :
    (running.after
      (RadioClient.stopPressed { running.client with pendingCloseWindow := pending })).Sound := by
  obtain ⟨hsingle, hstarting, hstopping, halone, hbusy, hremembered, hstarted⟩ := h
  simp only [RadioClient.stopPressed]
  split
  · next hphase =>
      have hone := hstarted hphase
      constructor <;> simp [after, Task.starts, Task.stops, RadioClient.pushEvent] <;> grind
  · split
    · constructor <;> simp only [after, Task.starts, Task.stops, Nat.add_zero] <;> grind
    · next host hhost =>
        have hidle : running.starts = 0 ∧ running.stops = 0 := by grind
        constructor <;> simp [after, Task.starts, Task.stops, RadioClient.pushEvent, hidle]

@[simp]
theorem closeIfRequested_starts (state : RadioClient Host) :
    state.closeIfRequested.2.starts = 0 := by
  rw [RadioClient.closeIfRequested]
  cases state.pendingCloseWindow <;> rfl

@[simp]
theorem closeIfRequested_stops (state : RadioClient Host) : state.closeIfRequested.2.stops = 0 := by
  rw [RadioClient.closeIfRequested]
  cases state.pendingCloseWindow <;> rfl

/-- A remembered request is met when nothing is under way. -/
theorem sound_closeIfRequested {starts stops : Nat} {client : RadioClient Host}
    (hstarts : starts = 0) (hstops : stops = 0) (hstarting : client.lifecycle ≠ .starting)
    (hstopping : client.lifecycle ≠ .stopping) :
    (after { client := client, starts := starts, stops := stops }
      client.closeIfRequested).Sound := by
  have hlifecycle : client.closeIfRequested.1.lifecycle = client.lifecycle := rfl
  have hpending : client.closeIfRequested.1.pendingCloseWindow = none := rfl
  constructor <;> simp [after, hstarts, hstops, hlifecycle, hpending, hstarting, hstopping]

theorem Sound.startFinished (h : running.Sound) (hcan : 0 < running.starts)
    (result : Except String (Host × List String)) :
    (after { running with starts := running.starts - 1 }
      (running.client.startFinished result)).Sound := by
  have hsingle := h.single
  have hone : running.starts = 1 ∧ running.stops = 0 := by omega
  cases result with
  | error error =>
      exact sound_closeIfRequested (by omega) hone.2 (by simp [RadioClient.pushEvent])
        (by simp [RadioClient.pushEvent])
  | ok result =>
      obtain ⟨hphase, -, hpending⟩ := RadioClient.pushEvents_alike running.client result.2
      cases h.starting hone.1 with
      | inl hlifecycle =>
          have hnone := h.remembered (by simp [hlifecycle])
          constructor <;> simp [after, Task.starts, Task.stops, RadioClient.startFinished, hphase,
            hpending, hlifecycle, hnone, hone, RadioClient.pushEvent]
      | inr hlifecycle =>
          constructor <;> simp [after, Task.starts, Task.stops, RadioClient.startFinished, hphase,
            hlifecycle, hone, RadioClient.stopPressed, RadioClient.pushEvent]

theorem Sound.stopFinished (h : running.Sound) (hcan : 0 < running.stops) (events : List String) :
    (after { running with stops := running.stops - 1 }
      (running.client.stopFinished events)).Sound := by
  have hsingle := h.single
  have hidle : running.starts = 0 ∧ running.stops - 1 = 0 := by omega
  exact sound_closeIfRequested hidle.1 hidle.2 (by simp [RadioClient.pushEvent])
    (by simp [RadioClient.pushEvent])

/-- Outside a start and a stop no task is under way. -/
theorem Sound.idle (h : running.Sound) (hstarting : running.client.lifecycle ≠ .starting)
    (hstopping : running.client.lifecycle ≠ .stopping) :
    running.starts = 0 ∧ running.stops = 0 := by
  have hsingle := h.single
  have hstarts : running.starts ≠ 1 := fun hone => (h.starting hone).elim hstarting hstopping
  have hstops : running.stops ≠ 1 := fun hone => hstopping (h.stopping hone)
  omega

/-- A request that comes in time. -/
theorem Sound.windowCloseRequested (h : running.Sound) (window : Nat)
    (hasks : running.client.lifecycle ≠ .stopping) :
    (running.after (running.client.windowCloseRequested window)).Sound := by
  simp only [RadioClient.windowCloseRequested]
  split
  · apply h.stopPressed
    grind
  · next hwaits =>
      have hphase := (not_or.mp hwaits).2
      have hidle := h.idle hphase hasks
      exact sound_closeIfRequested hidle.1 hidle.2 hphase hasks

theorem Sound.step (h : running.Sound) {message : Message Host} (hcan : running.Can message)
    (hone : running.OneAtATime message) (hasks : running.AsksInTime message) :
    (running.step message).Sound := by
  match message with
  | .configurePressed => exact h.of_alike (RadioClient.configurePressed_alike running.client)
  | .configure _ => exact h.configure hone
  | .startPressed => exact h.startPressed hone
  | .stopPressed => exact h.stopPressed fun hstopping _ _ => h.remembered hstopping
  | .debugLoggingChanged enabled saved reloaded =>
      exact h.of_alike (RadioClient.debugLoggingChanged_alike running.client enabled saved reloaded)
  | .startFinished none => exact h
  | .startFinished (some result) => exact h.startFinished hcan result
  | .stopFinished events => exact h.stopFinished hcan events
  | .backendTick drained => exact h.of_alike (RadioClient.backendTick_alike running.client drained)
  | .windowCloseRequested window => exact h.windowCloseRequested window hasks

/-- No window is closed by other messages than a request and the result of a task. -/
theorem not_close_stopPressed (state : RadioClient Host) (window : Nat) :
    state.stopPressed.2 ≠ .close window := by
  rw [RadioClient.stopPressed]
  split
  · simp
  · split <;> simp

theorem not_close_started (state : RadioClient Host) (host : Host) (events : List String)
    (window : Nat) : (state.startFinished (.ok (host, events))).2 ≠ .close window := by
  simp only [RadioClient.startFinished]
  split
  · exact not_close_stopPressed _ window
  · simp

theorem windowCloseRequested_stops (state : RadioClient Host) (window : Nat)
    (hwaits : state.host.isSome ∨ state.lifecycle = .starting) :
    state.windowCloseRequested window =
      RadioClient.stopPressed { state with pendingCloseWindow := some window } :=
  if_pos hwaits

theorem windowCloseRequested_closes (state : RadioClient Host) (window : Nat)
    (hidle : ¬(state.host.isSome ∨ state.lifecycle = .starting)) :
    state.windowCloseRequested window =
      ({ state with pendingCloseWindow := none }, .close window) :=
  if_neg hidle

/-- Of the messages only a late request closes a window that is in use. -/
theorem Sound.closesQuietly_iff (h : running.Sound) {message : Message Host}
    (hcan : running.Can message) : running.ClosesQuietly message ↔ running.AsksInTime message := by
  match message with
  | .configurePressed | .debugLoggingChanged _ _ _ | .startFinished none | .backendTick _ =>
      exact iff_of_true (fun _ hclose => by cases hclose) trivial
  | .configure outcome =>
      refine iff_of_true (fun window hclose => ?_) trivial
      simp only [deliver, finish, RadioClient.update] at hclose
      unfold RadioClient.configure at hclose
      grind
  | .startPressed =>
      refine iff_of_true (fun window hclose => ?_) trivial
      simp only [deliver, finish, RadioClient.update, RadioClient.startPressed] at hclose
      grind
  | .stopPressed =>
      exact iff_of_true (fun window hclose => (not_close_stopPressed _ window hclose).elim) trivial
  | .startFinished (some (.error error)) =>
      have hsingle := h.single
      have hone : running.starts = 1 := Nat.le_antisymm (by omega) hcan
      refine iff_of_true (fun window _ => ⟨?_, ?_, h.alone (by omega)⟩) trivial
      · exact Nat.add_eq_zero_iff.mpr ⟨by simp [finish, hone], closeIfRequested_starts _⟩
      · exact Nat.add_eq_zero_iff.mpr ⟨by simp only [finish]; omega, closeIfRequested_stops _⟩
  | .startFinished (some (.ok (host, events))) =>
      exact iff_of_true (fun window hclose => (not_close_started _ host events window hclose).elim)
        trivial
  | .stopFinished events =>
      have hsingle := h.single
      have hone : running.stops = 1 := Nat.le_antisymm (by omega) hcan
      refine iff_of_true (fun window _ => ⟨?_, ?_, rfl⟩) trivial
      · exact Nat.add_eq_zero_iff.mpr ⟨by simp only [finish]; omega, closeIfRequested_starts _⟩
      · exact Nat.add_eq_zero_iff.mpr ⟨by simp [finish, hone], closeIfRequested_stops _⟩
  | .windowCloseRequested window =>
      constructor
      · intro hquiet hstopping
        have hbusy := h.busy (.inr hstopping)
        have hhost := h.alone hbusy
        have hlate := windowCloseRequested_closes running.client window
          (by simp [hhost, hstopping])
        have hleft : (running.step (.windowCloseRequested window)).Quiet :=
          hquiet window (congrArg Prod.snd hlate)
        have hstarts : running.starts = 0 := Nat.eq_zero_of_add_eq_zero_right hleft.1
        have hstops : running.stops = 0 := Nat.eq_zero_of_add_eq_zero_right hleft.2.1
        omega
      · intro hasks closed hclose
        by_cases hwaits : running.client.host.isSome ∨ running.client.lifecycle = .starting
        · have hstops := windowCloseRequested_stops running.client window hwaits
          exact (not_close_stopPressed _ closed ((congrArg Prod.snd hstops).symm.trans hclose)).elim
        · have hphase := not_or.mp hwaits
          have hidle := h.idle hphase.2 hasks
          have hhost : running.client.host = none := by simpa using hphase.1
          have hcloses := windowCloseRequested_closes running.client window hwaits
          refine ⟨Nat.add_eq_zero_iff.mpr ⟨hidle.1, ?_⟩, Nat.add_eq_zero_iff.mpr ⟨hidle.2, ?_⟩, ?_⟩
          · exact congrArg (fun result => result.2.starts) hcloses
          · exact congrArg (fun result => result.2.stops) hcloses
          · exact (congrArg (fun result => result.1.host) hcloses).trans hhost

end Running

/-- In a run without another start or a new configuration in between, the window is closed with a
host still alive exactly when it is asked to close while a host is stopped. -/
theorem closes_quietly_iff (settings : RadioClientSettings) (logLevelOverride : Option String)
    (messages : List (Message Host))
    (hrun : Keeps Running.step (fun running message => running.Can message ∧
      running.OneAtATime message) (Running.begin settings logLevelOverride) messages) :
    Keeps Running.step Running.ClosesQuietly (Running.begin settings logLevelOverride) messages ↔
      Keeps Running.step Running.AsksInTime (Running.begin settings logLevelOverride) messages := by
  have hsound := @Running.sound_begin Host settings logLevelOverride
  generalize Running.begin settings logLevelOverride = running at hrun hsound ⊢
  induction messages generalizing running with
  | nil => rfl
  | cons message messages ih =>
      obtain ⟨⟨hcan, hone⟩, hrest⟩ := hrun
      have hiff := hsound.closesQuietly_iff hcan
      have hlater := fun hasks => ih (running.step message) hrest (hsound.step hcan hone hasks)
      constructor
      · rintro ⟨hquiet, hkeeps⟩
        have hasks := hiff.mp hquiet
        exact ⟨hasks, (hlater hasks).mp hkeeps⟩
      · rintro ⟨hasks, hkeeps⟩
        exact ⟨hiff.mpr hasks, (hlater hasks).mpr hkeeps⟩

/-- A host is started and stopped, and the window is asked to close when the stop is over. -/
theorem closes_quietly_afterStop :
    let messages : List (Message Unit) := [.startPressed, .startFinished (some (.ok ((), []))),
      .stopPressed, .stopFinished [], .windowCloseRequested 1]
    let running := Running.begin ⟨true, false⟩ none
    Keeps Running.step Running.ClosesQuietly running messages ↔
      Keeps Running.step Running.AsksInTime running messages :=
  closes_quietly_iff _ _ _ ⟨⟨trivial, rfl⟩, ⟨Nat.one_pos, trivial⟩, ⟨trivial, trivial⟩,
    ⟨Nat.one_pos, trivial⟩, ⟨trivial, trivial⟩, trivial⟩

/-- A host is being stopped when the window is asked to close, and it closes at once. -/
theorem not_closes_quietly_whileStopping :
    let messages : List (Message Unit) := [.startPressed, .startFinished (some (.ok ((), []))),
      .stopPressed, .windowCloseRequested 1]
    let running := Running.begin ⟨true, false⟩ none
    Keeps Running.step Running.Can running messages ∧
      ¬Keeps Running.step Running.ClosesQuietly running messages := by
  refine ⟨⟨trivial, Nat.one_pos, trivial, trivial, trivial⟩, fun hkeeps => ?_⟩
  have hstops : 1 = 0 := (hkeeps.2.2.2.1 1 rfl).2.1
  cases hstops

end Log73.ClientWindow
