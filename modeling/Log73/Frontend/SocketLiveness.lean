import Log73.Frontend.SocketSteps

/-!
The reconnecting socket over whole runs: it is never left waiting without a timer, the events and
timers of connections it has given up find nothing to do, and once disposed of it is silent.
-/

namespace Log73.Frontend.ReconnectingSocket

variable {options : Options} {outcome : Outcome} {w : World}

/-! ### What a retired connection and a disposed controller do -/

/-- Nothing of the controller has changed, and nobody was called. -/
structure Undisturbed (w w' : World) : Prop where
  controller : w'.toController = w.toController
  calls : w'.calls = w.calls
  socketCount : w'.socketCount = w.socketCount
  sent : w'.sent = w.sent

theorem Undisturbed.refl (w : World) : Undisturbed w w := ⟨rfl, rfl, rfl, rfl⟩

theorem Undisturbed.trans {w w' w'' : World} (h : Undisturbed w w') (h' : Undisturbed w' w'') :
    Undisturbed w w'' :=
  ⟨h'.controller.trans h.controller, h'.calls.trans h.calls,
    h'.socketCount.trans h.socketCount, h'.sent.trans h.sent⟩

theorem undisturbed_becomeOpen (w : World) (i : Nat) (event : SocketEvent) :
    Undisturbed w (w.becomeOpen i event) := by
  obtain ⟨sockets, hsockets, -⟩ := w.becomeOpen_spec i event
  rw [hsockets]
  exact ⟨rfl, rfl, rfl, rfl⟩

theorem listener_of_not_isCurrent {i : Nat} (h : w.isCurrent i = false) (event : SocketEvent) :
    w.listener options outcome i event = w := by
  cases event with
  | opened => simp [World.listener, World.onOpen, h]
  | message data => simp [World.listener, World.onMessage, h]
  | close code reason wasClean => simp [World.listener, World.onClose, h]
  | error event => simp [World.listener, World.onError, h]

/-- No event or timer of a connection that is not current is acted on. -/
theorem step_of_not_isCurrent {event : Event} {i : Nat} (hconnection : event.connection = some i)
    (h : w.isCurrent i = false) : Undisturbed w (w.step options (event, outcome)) := by
  cases event with
  | start | dispose | visibilityChange hidden | focus | pageShow | send message =>
      simp [Event.connection] at hconnection
  | socket j event =>
      obtain rfl : j = i := Option.some.inj hconnection
      have hopen := undisturbed_becomeOpen w j event
      have hnot : (w.becomeOpen j event).isCurrent j = false :=
        (World.isCurrent_congr hopen.controller j).trans h
      unfold World.step World.dispatch
      dsimp only
      split
      · rwa [listener_of_not_isCurrent hnot]
      · exact hopen
  | dropped j closed => exact ⟨rfl, rfl, rfl, rfl⟩
  | openRejected j error =>
      obtain rfl : j = i := Option.some.inj hconnection
      simp only [World.step, h]
      exact Undisturbed.refl w
  | timer timer =>
      have howner : timer.connection = some i := hconnection
      unfold World.step World.timerFired
      dsimp only
      rw [if_pos]
      · exact ⟨rfl, rfl, rfl, rfl⟩
      · have hnot : (w.expire timer).isCurrent i = false := h
        simp [howner, hnot]
  | contextSend j message =>
      obtain rfl : j = i := Option.some.inj hconnection
      simp only [World.step, World.send, h]
      exact Undisturbed.refl w

/-- Once disposed of, the controller does nothing more. -/
theorem step_of_disposed (h : w.disposed = true) (event : Event × Outcome) :
    Undisturbed w (w.step options event) := by
  obtain ⟨event, outcome⟩ := event
  have hnot := fun i => @World.isCurrent_eq_false w i h
  have hpage : ∀ (hidden : Bool) (handler : World → World),
      (∀ w, w.disposed = true → handler w = w) →
      Undisturbed w (({ w with hidden := hidden } : World).pageEvent handler) := by
    intro hidden handler hhandler
    unfold World.pageEvent
    split
    · have hsame := hhandler { w with hidden := hidden } h
      rw [hsame]
      exact ⟨rfl, rfl, rfl, rfl⟩
    · exact ⟨rfl, rfl, rfl, rfl⟩
  cases event with
  | start =>
      simp only [World.step, World.start, h, Bool.or_true, if_true]
      exact Undisturbed.refl w
  | dispose =>
      simp only [World.step, World.dispose, h, if_true]
      exact Undisturbed.refl w
  | socket i event => exact step_of_not_isCurrent rfl (hnot i)
  | dropped i closed => exact step_of_not_isCurrent rfl (hnot i)
  | openRejected i error => exact step_of_not_isCurrent rfl (hnot i)
  | timer timer =>
      unfold World.step World.timerFired
      dsimp only
      rw [if_pos]
      · exact ⟨rfl, rfl, rfl, rfl⟩
      · have hexpired : (w.expire timer).disposed = true := h
        simp [hexpired]
  | visibilityChange hidden =>
      exact hpage hidden _ fun w hw => by simp [World.visibilityChange, hw]
  | focus => exact hpage w.hidden _ fun w hw => by simp [World.foreground, hw]
  | pageShow => exact hpage w.hidden _ fun w hw => by simp [World.foreground, hw]
  | send message =>
      unfold World.step
      dsimp only
      split
      · exact Undisturbed.refl w
      · next connection _ =>
          simp only [World.send, hnot]
          exact Undisturbed.refl w
  | contextSend i message => exact step_of_not_isCurrent rfl (hnot i)

theorem run_of_disposed (h : w.disposed = true) (events : List (Event × Outcome)) :
    Undisturbed w (w.run options events) := by
  refine Runs.invariant_run_of_forall (fun w' => Undisturbed w w') ?_ (Undisturbed.refl w) events
  intro w' event hw'
  refine hw'.trans (step_of_disposed ?_ event)
  rw [hw'.controller, h]

theorem closeSocket_disposed (w : World) (i : Nat) :
    (w.closeSocket outcome i).disposed = w.disposed := by
  unfold World.closeSocket World.socketClose
  split
  · split <;> rfl
  · rfl

theorem dispose_disposed (w : World) : (w.dispose outcome).disposed = true := by
  unfold World.dispose
  split
  · assumption
  · obtain ⟨timeouts, hcleared⟩ := World.clearTimers_spec
      { w.debug "effect_cleanup" [] with disposed := true, listening := false }
    dsimp only
    rw [hcleared]
    split
    · rfl
    · exact closeSocket_disposed _ _

/-! ### Every run -/

/-- The timer is set under the name, and the browser will fire it. -/
def World.Pending (w : World) (name : TimerName) (timer : Timer) : Prop :=
  w.timers name = some timer ∧ timer ∈ w.timeouts

/-- The page is never left without a connection and without a way to get one: the connection the
controller listens to is the current one, what belongs to another changes nothing, and whatever
the controller waits for, a timer will end the wait. -/
structure Live (options : Options) (w : World) : Prop where
  listening : ∀ i, (w.sockets i).listening = true ↔ w.isCurrent i = true
  unique : ∀ i j, (w.sockets i).listening = true → (w.sockets j).listening = true → i = j
  retired : ∀ event outcome i, Event.connection event = some i → w.isCurrent i = false →
    Undisturbed w (w.step options (event, outcome))
  reconnecting : w.started = true → w.disposed = false → w.current = none →
    ∃ timer, w.Pending .reconnect timer ∧
      timer.delay ∈ Set.uIcc options.initialReconnectDelayMs options.maxReconnectDelayMs
  connecting : ∀ connection, w.current = some connection → connection.opened = false →
    ∃ timer, w.Pending .connect timer ∧ timer.connection = some connection.id
  watched : ∀ connection, w.current = some connection →
    w.readyState connection.id = .opened → w.hidden = false →
    ∃ timer, (w.Pending .health timer ∨ w.Pending .pong timer) ∧
      timer.connection = some connection.id ∧
      ∀ other, w.Pending .health other ∨ w.Pending .pong other → other = timer
  disposed : ∀ outcome events,
    Undisturbed (w.dispose outcome) ((w.dispose outcome).run options events)

theorem Kept.pendingTimer (h : Kept options w) {name : TimerName} (hset : (w.timers name).isSome) :
    ∃ timer, w.Pending name timer ∧ timer.name = name ∧ Fits options w.toController timer := by
  obtain ⟨timer, htimer⟩ := Option.isSome_iff_exists.mp hset
  obtain ⟨hname, hmem, -, hfits⟩ := h.timers name timer htimer
  exact ⟨timer, ⟨htimer, hmem⟩, hname, hfits⟩

theorem Sound.watched (h : Sound options none w) {connection : Connection}
    (hcurrent : w.current = some connection) (hopen : w.readyState connection.id = .opened)
    (hvisible : w.hidden = false) :
    ∃ timer, (w.Pending .health timer ∨ w.Pending .pong timer) ∧
      timer.connection = some connection.id ∧
      ∀ other, w.Pending .health other ∨ w.Pending .pong other → other = timer := by
  cases hping : w.pendingPingRequestId with
  | none =>
      obtain ⟨timer, hpending, hname, hfits⟩ :=
        h.pendingTimer (h.beating connection hcurrent hopen hvisible hping)
      simp only [Fits, hname] at hfits
      obtain ⟨owner, howner, hconnection, -⟩ := hfits
      obtain rfl := Option.some.inj (hcurrent.symm.trans howner)
      refine ⟨timer, Or.inl hpending, hconnection, ?_⟩
      rintro other (hother | hother)
      · exact Option.some.inj (hother.1.symm.trans hpending.1)
      · obtain ⟨hname, -, -, hfits⟩ := h.timers .pong other hother.1
        simp only [Fits, hname] at hfits
        obtain ⟨-, _, -, -, -, hsome⟩ := hfits
        cases hping.symm.trans hsome
  | some requestId =>
      have hset : (w.timers .pong).isSome :=
        (h.answered connection hcurrent requestId hping).resolve_right fun hpinged => by
          cases hpinged
      obtain ⟨timer, hpending, hname, hfits⟩ := h.pendingTimer hset
      simp only [Fits, hname] at hfits
      obtain ⟨owner, _, howner, hconnection, -⟩ := hfits
      obtain rfl := Option.some.inj (hcurrent.symm.trans howner)
      refine ⟨timer, Or.inr hpending, hconnection, ?_⟩
      rintro other (hother | hother)
      · obtain ⟨hname, -, -, hfits⟩ := h.timers .health other hother.1
        simp only [Fits, hname] at hfits
        obtain ⟨_, -, -, -, hnone⟩ := hfits
        cases hping.symm.trans hnone
      · exact Option.some.inj (hother.1.symm.trans hpending.1)

theorem Sound.live (h : Sound options none w) : Live options w := by
  have hlistening : ∀ i, (w.sockets i).listening = true ↔ w.isCurrent i = true := fun i => by
    rw [h.listening, World.isCurrent_iff]
    constructor
    · rintro ⟨connection, hcurrent, hi⟩
      obtain ⟨hstarted, hdisposed⟩ := h.running connection hcurrent
      exact ⟨hstarted, hdisposed, connection, hcurrent, hi⟩
    · exact fun hcurrent => hcurrent.2.2
  refine ⟨hlistening, ?_, fun _ _ _ => step_of_not_isCurrent, ?_, ?_, fun _ => h.watched, ?_⟩
  · intro i j hi hj
    obtain ⟨connection, hcurrent, rfl⟩ := (h.listening i).mp hi
    obtain ⟨other, hother, rfl⟩ := (h.listening j).mp hj
    rw [Option.some.inj (hcurrent.symm.trans hother)]
  · intro hstarted hdisposed hnone
    obtain ⟨timer, hpending, hname, hfits⟩ := h.pendingTimer (h.waiting hstarted hdisposed hnone)
    simp only [Fits, hname] at hfits
    exact ⟨timer, hpending, hfits.2.2⟩
  · intro connection hcurrent hopened
    obtain ⟨timer, hpending, hname, hfits⟩ :=
      h.pendingTimer (h.connecting connection hcurrent hopened)
    simp only [Fits, hname] at hfits
    obtain ⟨owner, howner, hconnection, -⟩ := hfits
    obtain rfl := Option.some.inj (hcurrent.symm.trans howner)
    exact ⟨timer, hpending, hconnection⟩
  · exact fun outcome events => run_of_disposed (dispose_disposed w) events

/-- Whatever happens to the page and to the sockets, in whatever order, the controller stays
live. -/
theorem run_live (options : Options) (now : Int) (hidden : Bool)
    (events : List (Event × Outcome)) :
    Live options ((createReconnectingSocket options now hidden).run options events) := by
  refine Sound.live ?_
  exact Runs.invariant_run_of_forall (Sound options none) (fun _ event h => h.step event)
    (sound_create options now hidden) events

end Log73.Frontend.ReconnectingSocket
