import Mathlib.Order.Interval.Set.UnorderedInterval
import Mathlib.Order.Lattice.Nat
import Log73.Frontend.SocketController

/-!
What holds of the reconnecting socket between its steps, and in the middle of them. `Kept` ties
the timers, the sockets and the pending ping to the current connection, and no operation breaks
it. `Attended` adds that a reconnect, connect or pong timer is pending wherever one is owed, and
`Sound` that an open connection in a visible page is watched.
-/

namespace Log73.Frontend.ReconnectingSocket

open Set

/-- The timer serves the current connection in the way its name says. -/
def Fits (options : Options) (controller : Controller) (timer : Timer) : Prop :=
  match timer.name with
  | .connect => ∃ connection, controller.current = some connection ∧
      timer.connection = some connection.id ∧ timer.task = .connectTimeout connection.id
  | .foreground => ∃ connection source, controller.current = some connection ∧
      timer.connection = some connection.id ∧ timer.task = .foreground source
  | .health => ∃ connection, controller.current = some connection ∧
      timer.connection = some connection.id ∧ timer.task = .checkHealth ∧
      controller.pendingPingRequestId = none
  | .pong => ∃ connection requestId, controller.current = some connection ∧
      timer.connection = some connection.id ∧ timer.task = .pongTimeout connection.id requestId ∧
      controller.pendingPingRequestId = some requestId
  | .reconnect => timer.connection = none ∧ timer.task = .reconnect ∧
      timer.delay ∈ uIcc options.initialReconnectDelayMs options.maxReconnectDelayMs

/-- The timers that connect know of no ping. -/
theorem Fits.unpinged {options : Options} {controller controller' : Controller} {timer : Timer}
    (h : Fits options controller timer) (hhealth : timer.name ≠ .health)
    (hpong : timer.name ≠ .pong) (hcurrent : controller'.current = controller.current) :
    Fits options controller' timer := by
  unfold Fits at *
  cases hcase : timer.name with
  | health => exact absurd hcase hhealth
  | pong => exact absurd hcase hpong
  | connect | foreground | reconnect => simpa [hcase, hcurrent] using h

/-- Only a pong timer needs its ping to be pending. -/
theorem Fits.withoutPing {options : Options} {controller controller' : Controller} {timer : Timer}
    (h : Fits options controller timer) (hname : timer.name ≠ .pong)
    (hcurrent : controller'.current = controller.current)
    (hping : controller'.pendingPingRequestId = none) : Fits options controller' timer := by
  cases hcase : timer.name with
  | pong => exact absurd hcase hname
  | connect | foreground | reconnect =>
      exact h.unpinged (by rw [hcase]; nofun) hname hcurrent
  | health =>
      simp only [Fits, hcase, hcurrent, hping] at h ⊢
      obtain ⟨connection, hconnection, howner, htask, -⟩ := h
      exact ⟨connection, hconnection, howner, htask, trivial⟩

structure Kept (options : Options) (w : World) : Prop where
  delay : w.reconnectDelayMs ∈ uIcc options.initialReconnectDelayMs options.maxReconnectDelayMs
  running : ∀ connection, w.current = some connection → w.started = true ∧ w.disposed = false
  heard : w.listening = true ↔ w.started = true ∧ w.disposed = false
  opened : ∀ connection, w.current = some connection →
    (w.readyState connection.id = .opened → connection.opened = true) ∧
    (connection.opened = true → w.readyState connection.id ≠ .connecting)
  listening : ∀ i, (w.sockets i).listening = true ↔
    ∃ connection, w.current = some connection ∧ connection.id = i
  pinging : ∀ requestId, w.pendingPingRequestId = some requestId → w.disposed = false →
    w.current ≠ none
  timers : ∀ name timer, w.timers name = some timer →
    timer.name = name ∧ timer ∈ w.timeouts ∧ w.disposed = false ∧ Fits options w.toController timer

/-- `sending` is a ping on its way out, whose timer is only set once it is sent. -/
structure Attended (options : Options) (sending : Option (Nat × RequestId)) (w : World) : Prop
    extends Kept options w where
  waiting : w.started = true → w.disposed = false → w.current = none →
    (w.timers .reconnect).isSome
  connecting : ∀ connection, w.current = some connection → connection.opened = false →
    (w.timers .connect).isSome
  answered : ∀ connection, w.current = some connection →
    ∀ requestId, w.pendingPingRequestId = some requestId →
      (w.timers .pong).isSome ∨ sending = some (connection.id, requestId)

structure Sound (options : Options) (sending : Option (Nat × RequestId)) (w : World) : Prop
    extends Attended options sending w where
  beating : ∀ connection, w.current = some connection → w.readyState connection.id = .opened →
    w.hidden = false → w.pendingPingRequestId = none → (w.timers .health).isSome

variable {options : Options} {outcome : Outcome} {sending : Option (Nat × RequestId)} {w : World}

namespace World

theorem isCurrent_iff {i : Nat} : w.isCurrent i = true ↔
    w.started = true ∧ w.disposed = false ∧
      ∃ connection, w.current = some connection ∧ connection.id = i := by
  simp [isCurrent, Option.any_eq_true, and_assoc]

theorem isCurrent_eq_false {i : Nat} (h : w.disposed = true) : w.isCurrent i = false := by
  simp [isCurrent, h]

end World

theorem Kept.isCurrent (h : Kept options w) {connection : Connection}
    (hcurrent : w.current = some connection) : w.isCurrent connection.id = true := by
  obtain ⟨hstarted, hdisposed⟩ := h.running connection hcurrent
  exact World.isCurrent_iff.mpr ⟨hstarted, hdisposed, connection, hcurrent, rfl⟩

/-! ### What the small operations keep -/

theorem Kept.notify (h : Kept options w) (call : Call) : Kept options (w.notify call) :=
  ⟨h.delay, h.running, h.heard, h.opened, h.listening, h.pinging, h.timers⟩

theorem Attended.notify (h : Attended options sending w) (call : Call) :
    Attended options sending (w.notify call) :=
  ⟨h.toKept.notify call, h.waiting, h.connecting, h.answered⟩

theorem Sound.notify (h : Sound options sending w) (call : Call) :
    Sound options sending (w.notify call) :=
  ⟨h.toAttended.notify call, h.beating⟩

theorem Kept.debug (h : Kept options w) (event : String) (details : Details) :
    Kept options (w.debug event details) :=
  h.notify (.onDebug event details)

theorem Attended.debug (h : Attended options sending w) (event : String) (details : Details) :
    Attended options sending (w.debug event details) :=
  h.notify (.onDebug event details)

theorem Sound.debug (h : Sound options sending w) (event : String) (details : Details) :
    Sound options sending (w.debug event details) :=
  h.notify (.onDebug event details)

theorem Kept.resetDelay (h : Kept options w) :
    Kept options (w.resetDelay options) :=
  ⟨left_mem_uIcc, h.running, h.heard, h.opened, h.listening, h.pinging, h.timers⟩

theorem Attended.resetDelay (h : Attended options sending w) :
    Attended options sending (w.resetDelay options) :=
  ⟨h.toKept.resetDelay, h.waiting, h.connecting, h.answered⟩

theorem World.clearTimer_timers (name other : TimerName) (w : World) :
    (w.clearTimer name).timers other = if other = name then none else w.timers other := by
  simp [World.clearTimer, Function.update_apply]

theorem Kept.clearTimer (h : Kept options w) (name : TimerName) :
    Kept options (w.clearTimer name) := by
  refine ⟨h.delay, h.running, h.heard, h.opened, h.listening, h.pinging, ?_⟩
  intro other timer htimer
  rw [World.clearTimer_timers] at htimer
  split at htimer
  · simp at htimer
  · next hne =>
      obtain ⟨hname, hset, hdisposed, hfits⟩ := h.timers other timer htimer
      refine ⟨hname, ?_, hdisposed, hfits⟩
      -- the timer that is cleared bears the other name
      have hother : w.timers name ≠ some timer := fun heq =>
        hne (hname.symm.trans (h.timers name timer heq).1)
      simp [World.clearTimer, hset, hother]

theorem World.setTimer_timers (name other : TimerName) (task : Task) (delay : Nat)
    (connection : Option Nat) (w : World) :
    (w.setTimer name task delay connection).timers other =
      if other = name then
        some { name := name, id := w.timeoutCount, task := task, delay := delay,
               connection := connection }
      else w.timers other := by
  by_cases h : other = name <;> simp [World.setTimer, World.clearTimer, h]

/-- A timer may be set that serves the current connection. -/
theorem Kept.setTimer (h : Kept options w) (hdisposed : w.disposed = false) {name : TimerName}
    {task : Task} {delay : Nat} {connection : Option Nat}
    (hfits : Fits options w.toController
      { name := name, id := w.timeoutCount, task := task, delay := delay,
        connection := connection }) :
    Kept options (w.setTimer name task delay connection) := by
  have hclear := h.clearTimer name
  refine ⟨h.delay, h.running, h.heard, h.opened, h.listening, h.pinging, ?_⟩
  intro other timer htimer
  rw [World.setTimer_timers] at htimer
  split at htimer
  · next heq =>
      obtain rfl := Option.some.inj htimer
      exact ⟨heq.symm, List.mem_append_right _ List.mem_cons_self, hdisposed, hfits⟩
  · next hne =>
      have hcleared : (w.clearTimer name).timers other = some timer := by
        rw [World.clearTimer_timers, if_neg hne, htimer]
      obtain ⟨hname, hset, -, hother⟩ := hclear.timers other timer hcleared
      exact ⟨hname, List.mem_append_left _ hset, hdisposed, hother⟩

theorem Kept.setReadyState (h : Kept options w) {i : Nat} {readyState : ReadyState}
    (hopened : ∀ connection, w.current = some connection → connection.id = i →
      (readyState = .opened → connection.opened = true) ∧
      (connection.opened = true → readyState ≠ .connecting)) :
    Kept options (w.setReadyState i readyState) := by
  refine ⟨h.delay, h.running, h.heard, ?_, ?_, h.pinging, h.timers⟩
  · intro connection hcurrent
    by_cases hi : connection.id = i
    · simpa [World.readyState, World.setReadyState, World.setSocket, hi]
        using hopened connection hcurrent hi
    · simpa [World.readyState, World.setReadyState, World.setSocket, Function.update_of_ne hi]
        using h.opened connection hcurrent
  · intro j
    by_cases hj : j = i
    · subst hj
      simpa [World.setReadyState, World.setSocket] using h.listening j
    · simpa [World.setReadyState, World.setSocket, Function.update_of_ne hj] using h.listening j

/-! ### Retiring and reconnecting -/

theorem Kept.closeSocket (h : Kept options w) (hnone : w.current = none) (i : Nat) :
    Kept options (w.closeSocket outcome i) ∧
      (w.closeSocket outcome i).toController = w.toController := by
  have hset : Kept options (w.setReadyState i .closing) :=
    h.setReadyState fun connection hcurrent => by simp [hnone] at hcurrent
  unfold World.closeSocket World.socketClose
  split
  · split
    · exact ⟨hset, rfl⟩
    · exact ⟨hset, rfl⟩
    · exact ⟨h, rfl⟩
    · exact ⟨h, rfl⟩
  · exact ⟨h.debug _ _, rfl⟩

/-- With no timer left but a reconnect timer, the current connection may be forgotten. -/
theorem Kept.forget (h : Kept options w) {i : Nat} (hcurrent : w.isCurrent i = true)
    (hcleared : ∀ name, name ≠ .reconnect → w.timers name = none) :
    Kept options
      (({ w with current := none, pendingPingRequestId := none } :
        World).removeEventListeners i) := by
  refine ⟨h.delay, nofun, h.heard, nofun, ?_, nofun, ?_⟩
  · intro j
    obtain ⟨-, -, connection, hconnection, rfl⟩ := World.isCurrent_iff.mp hcurrent
    by_cases hj : j = connection.id
    · simp [World.removeEventListeners, World.setSocket, hj]
    · have hnot : ¬(w.sockets j).listening = true := fun hlistening => by
        obtain ⟨other, hother, rfl⟩ := (h.listening j).mp hlistening
        rw [hconnection] at hother
        exact hj (congrArg Connection.id (Option.some.inj hother)).symm
      simpa [World.removeEventListeners, World.setSocket, Function.update_of_ne hj] using hnot
  · intro name timer htimer
    have hreconnect : name = .reconnect := by
      by_contra hne
      simp [World.removeEventListeners, World.setSocket, hcleared name hne] at htimer
    obtain ⟨hname, hset, hdisposed, hfits⟩ := h.timers name timer htimer
    rw [hreconnect] at hname
    refine ⟨hname.trans hreconnect.symm, hset, hdisposed, ?_⟩
    simpa [Fits, hname] using hfits

theorem Kept.retire (h : Kept options w) {i : Nat} (hcurrent : w.isCurrent i = true)
    (details : Details) :
    ∃ w', w.retire outcome i details = some w' ∧ Kept options w' ∧ w'.current = none ∧
      w'.started = true ∧ w'.disposed = false := by
  obtain ⟨hstarted, hdisposed, -⟩ := World.isCurrent_iff.mp hcurrent
  let cleared := (((w.clearTimer .connect).clearTimer .foreground).clearTimer .health).clearTimer
      .pong
  have hkept : Kept options cleared :=
    (((h.clearTimer .connect).clearTimer .foreground).clearTimer .health).clearTimer .pong
  have hforgot := hkept.forget hcurrent fun name hname => by
    cases name <;> simp_all [cleared, World.clearTimer_timers]
  have hnotified := ((hforgot.debug "socket_close"
    (details ++ [("clearedPendingPingRequestId", requestIdValue w.pendingPingRequestId)])).notify
      (.onStatusChange "disconnected")).notify (.onClose details)
  obtain ⟨hclosed, hsame⟩ := @Kept.closeSocket _ outcome _ hnotified rfl i
  refine ⟨_, by rw [World.retire, hcurrent]; rfl, hclosed, ?_⟩
  rw [hsame]
  exact ⟨rfl, hstarted, hdisposed⟩

theorem World.retire_eq_none {i : Nat} (h : w.isCurrent i = false) (details : Details) :
    w.retire outcome i details = none := by
  simp [World.retire, h]

theorem min_doubled_mem {delay initial max : Nat} (h : delay ∈ uIcc initial max) :
    min (delay * 2) max ∈ uIcc initial max := by
  rw [mem_uIcc] at *
  omega

/-- Without a connection, a scheduled reconnect is all that is owed. -/
theorem Kept.scheduleReconnect (h : Kept options w) (hnone : w.current = none)
    (hdisposed : w.disposed = false) : Sound options sending (w.scheduleReconnect options) := by
  have hping : w.pendingPingRequestId = none :=
    Option.eq_none_iff_forall_ne_some.mpr fun requestId hsome =>
      h.pinging requestId hsome hdisposed hnone
  unfold World.scheduleReconnect
  split
  · next hset =>
      have hreconnect : (w.timers .reconnect).isSome := by simpa [hdisposed] using hset
      exact ⟨⟨h, fun _ _ _ => hreconnect, by simp [hnone], by simp [hping]⟩, by simp [hnone]⟩
  · have hdebug := h.debug "reconnect_scheduled" [("delayMs", .ofInt w.reconnectDelayMs)]
    have hkept : Kept options ((w.debug "reconnect_scheduled"
        [("delayMs", .ofInt w.reconnectDelayMs)]).setTimer .reconnect .reconnect
          w.reconnectDelayMs none) :=
      hdebug.setTimer hdisposed ⟨rfl, rfl, h.delay⟩
    refine ⟨⟨⟨min_doubled_mem h.delay, hkept.running, hkept.heard, hkept.opened, hkept.listening,
      hkept.pinging, hkept.timers⟩, ?_, ?_, ?_⟩, ?_⟩
    · intro _ _ _
      simp [World.setTimer]
    · simp [World.setTimer, World.clearTimer, World.debug, World.notify, hnone]
    · simp [World.setTimer, World.clearTimer, World.debug, World.notify, hping]
    · simp [World.setTimer, World.clearTimer, World.debug, World.notify, hnone]

theorem Kept.clearHealth (h : Kept options w) : Kept options w.clearHealth := by
  have hcleared := (h.clearTimer .health).clearTimer .pong
  refine ⟨h.delay, h.running, h.heard, h.opened, h.listening, nofun, ?_⟩
  intro name timer htimer
  have hold : ((w.clearTimer .health).clearTimer .pong).timers name = some timer := htimer
  obtain ⟨hname, hset, hdisposed, hfits⟩ := hcleared.timers name timer hold
  refine ⟨hname, hset, hdisposed, ?_⟩
  have hpong : name ≠ .pong := by
    rintro rfl
    simp [World.clearTimer_timers] at hold
  exact hfits.withoutPing (hname ▸ hpong) rfl rfl

/-- The socket a connection is made of is new, connecting and listened to. -/
theorem Kept.adopt (h : Kept options w) (hnone : w.current = none) (hstarted : w.started = true)
    (hdisposed : w.disposed = false) :
    Sound options sending (w.createSocket.adopt options outcome w.socketCount) := by
  have hping : w.pendingPingRequestId = none :=
    Option.eq_none_iff_forall_ne_some.mpr fun requestId hsome =>
      h.pinging requestId hsome hdisposed hnone
  let connection : Connection :=
    { id := w.socketCount, createdAt := outcome.now, opened := false }
  have hkept : Kept options
      (({ w.createSocket with current := some connection } : World).addEventListeners
        w.socketCount) := by
    refine ⟨h.delay, fun _ _ => ⟨hstarted, hdisposed⟩, h.heard, ?_, ?_, ?_, ?_⟩
    · intro other hcurrent
      obtain rfl := Option.some.inj hcurrent
      simp [connection, World.readyState, World.addEventListeners, World.setSocket,
        World.createSocket]
    · intro i
      by_cases hi : i = w.socketCount
      · simp [connection, World.addEventListeners, World.setSocket, hi]
      · have hold : ¬(w.sockets i).listening = true := fun hlistening => by
          obtain ⟨other, hcurrent, -⟩ := (h.listening i).mp hlistening
          simp [hnone] at hcurrent
        simpa [connection, World.addEventListeners, World.setSocket, World.createSocket,
          Function.update_of_ne hi, Ne.symm hi] using hold
    · intro requestId hsome
      cases hping.symm.trans hsome
    · intro name timer htimer
      obtain ⟨hname, hset, -, hfits⟩ := h.timers name timer htimer
      refine ⟨hname, hset, hdisposed, ?_⟩
      cases name <;> simp_all [Fits]
  refine ⟨⟨hkept.setTimer hdisposed ⟨connection, rfl, rfl, rfl⟩, nofun, ?_, ?_⟩, ?_⟩
  · intro _ _ _
    simp [World.adopt, World.setTimer]
  · intro _ _ requestId hsome
    cases hping.symm.trans hsome
  · intro other hcurrent hopened
    obtain rfl := Option.some.inj hcurrent
    simp [World.adopt, World.readyState, World.setTimer, World.clearTimer,
      World.addEventListeners, World.setSocket, World.createSocket] at hopened

theorem Kept.connect (h : Kept options w) (hnone : w.current = none) (hstarted : w.started = true)
    (hdisposed : w.disposed = false) : Sound options sending (w.connect options outcome) := by
  have hkept := (((h.clearTimer .reconnect).clearHealth).notify
    (.onStatusChange "connecting")).debug "connect_attempt" [("url", .string options.url)]
  unfold World.connect
  rw [if_neg (by simp [hnone, hstarted, hdisposed])]
  dsimp only
  rw [if_neg (by simp [World.debug, World.notify, World.clearHealth, World.clearTimer, hdisposed])]
  split
  · next error _ =>
      exact ((hkept.notify (.onStatusChange "disconnected")).notify
        (.onError error "connect" options.url)).scheduleReconnect hnone hdisposed
  · rw [if_neg (by simp [World.debug, World.notify, World.clearHealth, World.clearTimer,
      World.createSocket, World.setSocket, hdisposed])]
    exact hkept.adopt hnone hstarted hdisposed

theorem World.recover_of_not_isCurrent {i : Nat} (h : w.isCurrent i = false) (reason : String)
    (immediate : Bool) : w.recover options outcome i reason immediate = w := by
  simp [World.recover, World.retire_eq_none h]

/-- A connection given up is followed by another or by a scheduled reconnect. -/
theorem Kept.recover (h : Kept options w) {i : Nat} (hcurrent : w.isCurrent i = true)
    (reason : String) (immediate : Bool) :
    Sound options sending (w.recover options outcome i reason immediate) := by
  obtain ⟨retired, hretire, hkept, hnone, hstarted, hdisposed⟩ :=
    @Kept.retire _ outcome _ h i hcurrent (reasonDetails reason)
  unfold World.recover
  rw [hretire]
  dsimp only
  rw [if_neg (by simp [hdisposed])]
  cases immediate with
  | true =>
      have hreset := ((hkept.debug "reconnect_now" (reasonDetails reason)).clearTimer
        .reconnect).resetDelay
      exact hreset.connect hnone hstarted hdisposed
  | false => exact hkept.scheduleReconnect hnone hdisposed

/-! ### Watching an open connection -/

theorem Attended.clearTimer (h : Attended options sending w) {name : TimerName}
    (hfree : name = .foreground ∨ name = .health) :
    Attended options sending (w.clearTimer name) := by
  refine ⟨h.toKept.clearTimer name, ?_, ?_, ?_⟩
  · intro hstarted hdisposed hnone
    rw [World.clearTimer_timers, if_neg (by rcases hfree with rfl | rfl <;> decide)]
    exact h.waiting hstarted hdisposed hnone
  · intro connection hcurrent hopened
    rw [World.clearTimer_timers, if_neg (by rcases hfree with rfl | rfl <;> decide)]
    exact h.connecting connection hcurrent hopened
  · intro connection hcurrent requestId hsome
    rw [World.clearTimer_timers, if_neg (by rcases hfree with rfl | rfl <;> decide)]
    exact h.answered connection hcurrent requestId hsome

/-- Setting a timer under another name takes none of the timers owed away. -/
theorem Attended.setTimer (h : Attended options sending w) (hdisposed : w.disposed = false)
    {name : TimerName} {task : Task} {delay : Nat} {connection : Option Nat}
    (hfits : Fits options w.toController
      { name := name, id := w.timeoutCount, task := task, delay := delay,
        connection := connection }) :
    Attended options sending (w.setTimer name task delay connection) := by
  have hkeeps : ∀ other, (w.timers other).isSome →
      ((w.setTimer name task delay connection).timers other).isSome := by
    intro other hset
    rw [World.setTimer_timers]
    split
    · rfl
    · exact hset
  refine ⟨h.toKept.setTimer hdisposed hfits, ?_, ?_, ?_⟩
  · intro hstarted hlive hnone
    exact hkeeps _ (h.waiting hstarted hlive hnone)
  · intro current hcurrent hopened
    exact hkeeps _ (h.connecting current hcurrent hopened)
  · intro current hcurrent requestId hsome
    exact (h.answered current hcurrent requestId hsome).imp (hkeeps _) id

theorem Attended.scheduleHealth (h : Attended options sending w) :
    Sound options sending (w.scheduleHealth options outcome) := by
  have hcleared := h.clearTimer (Or.inr rfl)
  unfold World.scheduleHealth
  dsimp only
  split
  · next hnone => exact ⟨hcleared, fun connection hcurrent => by simp [hnone] at hcurrent⟩
  · next connection hcurrent =>
      have hrunning := hcleared.running connection hcurrent
      split
      · next hskip =>
          refine ⟨hcleared, fun other hother hopened hvisible hping => ?_⟩
          obtain rfl := Option.some.inj (hcurrent.symm.trans hother)
          simp [hcleared.isCurrent hcurrent, hopened, hvisible, hping] at hskip
      · next hwatch =>
          have hping : (w.clearTimer .health).pendingPingRequestId = none := by
            simpa using (by simpa using hwatch : _ ∧ _).2
          refine ⟨hcleared.setTimer hrunning.2 ⟨connection, hcurrent, rfl, rfl, hping⟩, ?_⟩
          intro _ _ _ _ _
          simp [World.setTimer]

theorem Attended.activity (hkept : Kept options w)
    (hwaiting : w.started = true → w.disposed = false → w.current = none →
      (w.timers .reconnect).isSome)
    (hconnecting : ∀ connection, w.current = some connection → connection.opened = false →
      (w.timers .connect).isSome) :
    Sound options sending (w.activity options outcome) := by
  have hcleared := hkept.clearTimer .pong
  refine Attended.scheduleHealth ⟨⟨hkept.delay, hkept.running, hkept.heard, hkept.opened,
    hkept.listening, nofun, ?_⟩, ?_, ?_, nofun⟩
  · intro name timer htimer
    have hold : (w.clearTimer .pong).timers name = some timer := htimer
    obtain ⟨hname, hset, hdisposed, hfits⟩ := hcleared.timers name timer hold
    refine ⟨hname, hset, hdisposed, ?_⟩
    have hpong : name ≠ .pong := by
      rintro rfl
      simp [World.clearTimer_timers] at hold
    exact hfits.withoutPing (hname ▸ hpong) rfl rfl
  · intro hstarted hdisposed hnone
    simpa [World.clearTimer] using hwaiting hstarted hdisposed hnone
  · intro connection hcurrent hopened
    simpa [World.clearTimer] using hconnecting connection hcurrent hopened

end Log73.Frontend.ReconnectingSocket
