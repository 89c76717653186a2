import Log73.Frontend.SocketInvariants

/-!
Every event, timer and call leaves the reconnecting socket with a timer pending for whatever it
waits for.
-/

namespace Log73.Frontend.ReconnectingSocket

variable {options : Options} {outcome : Outcome} {sending : Option (Nat × RequestId)} {w : World}

/-! ### Events of a socket -/

theorem Sound.onMessage (h : Sound options sending w) (i : Nat) (data : String) :
    Sound options sending (w.onMessage options outcome i data) := by
  unfold World.onMessage
  dsimp only
  split
  · exact h
  · have hactive : Sound options sending (w.activity options outcome) :=
      Attended.activity h.toKept h.waiting h.connecting
    split
    · exact (hactive.notify _).debug _ _
    · next message _ =>
        have hdebugged : Sound options sending
            (if options.isPong message then
              (w.activity options outcome).debug "pong_received"
                [("requestId", member "request_id" message),
                  ("clearedPendingPingRequestId", requestIdValue w.pendingPingRequestId)]
            else if w.pendingPingRequestId.isSome then
              (w.activity options outcome).debug "socket_activity_cleared_ping"
                [("messageType", member "type" message),
                  ("clearedPendingPingRequestId", requestIdValue w.pendingPingRequestId)]
            else w.activity options outcome) := by
          split
          · exact hactive.debug _ _
          · split
            · exact hactive.debug _ _
            · exact hactive
        split
        · exact ((hdebugged.notify _).notify _).debug _ _
        · exact hdebugged.notify _

theorem Sound.onClose (h : Sound options sending w) (i code : Nat) (reason : String)
    (wasClean : Bool) :
    Sound options sending (w.onClose options outcome i code reason wasClean) := by
  unfold World.onClose
  split
  · exact h
  · next hcurrent =>
      obtain ⟨retired, hretire, hkept, hnone, -, hdisposed⟩ :=
        @Kept.retire _ outcome _ h.toKept i (by simpa using hcurrent)
          [("code", .ofInt code), ("reason", .string reason), ("wasClean", .bool wasClean)]
      rw [hretire]
      exact hkept.scheduleReconnect hnone hdisposed

theorem Sound.onError (h : Sound options sending w) (i : Nat) (event : String) :
    Sound options sending (w.onError options outcome i event) := by
  unfold World.onError
  split
  · exact h
  · next hcurrent =>
      have hnow : w.isCurrent i = true := by simpa using hcurrent
      have hnotified := (h.toKept.debug "socket_error" []).notify
        (.onError event "socket" options.url)
      exact hnotified.recover hnow "socket_error" false

/-- A socket that does not belong to the current connection may change its state. -/
theorem Sound.setReadyState (h : Sound options sending w) {i : Nat} {readyState : ReadyState}
    (hopened : ∀ connection, w.current = some connection → connection.id = i →
      readyState ≠ .opened ∧ readyState ≠ .connecting) :
    Sound options sending (w.setReadyState i readyState) := by
  have hkept := h.toKept.setReadyState fun connection hcurrent hi =>
    ⟨fun heq => absurd heq (hopened connection hcurrent hi).1,
      fun _ => (hopened connection hcurrent hi).2⟩
  refine ⟨⟨hkept, h.waiting, h.connecting, h.answered⟩, ?_⟩
  intro connection hcurrent hopen hvisible hping
  by_cases hi : connection.id = i
  · subst hi
    refine absurd ?_ (hopened connection hcurrent rfl).1
    simpa [World.readyState, World.setReadyState, World.setSocket] using hopen
  · refine h.beating connection hcurrent ?_ hvisible hping
    simpa [World.readyState, World.setReadyState, World.setSocket, Function.update_of_ne hi]
      using hopen

/-- The open event of a socket changes that socket only, and leaves it connecting no more. -/
theorem World.becomeOpen_spec (w : World) (i : Nat) (event : SocketEvent) :
    ∃ sockets, w.becomeOpen i event = { w with sockets := sockets } ∧
      (∀ j, (sockets j).listening = (w.sockets j).listening) ∧
      (∀ j, j ≠ i → sockets j = w.sockets j) ∧
      (event = .opened → (sockets i).readyState ≠ .connecting) := by
  unfold World.becomeOpen
  split
  · refine ⟨_, rfl, ?_, fun j hj => Function.update_of_ne hj _ _, by simp⟩
    intro j
    by_cases hj : j = i
    · simp [hj]
    · rw [Function.update_of_ne hj]
  · next h => exact ⟨w.sockets, rfl, fun _ => rfl, fun _ _ => rfl, fun hevent => h hevent⟩

theorem World.becomeOpen_toController (w : World) (i : Nat) (event : SocketEvent) :
    (w.becomeOpen i event).toController = w.toController := by
  obtain ⟨sockets, hsockets, -⟩ := w.becomeOpen_spec i event
  rw [hsockets]

theorem World.isCurrent_congr {w' : World} (h : w'.toController = w.toController) (i : Nat) :
    w'.isCurrent i = w.isCurrent i := by
  simp [World.isCurrent, h]

theorem Kept.markOpened (h : Kept options w) {connection : Connection}
    (hcurrent : w.current = some connection) :
    Kept options (w.becomeOpen connection.id .opened).markOpened := by
  obtain ⟨sockets, hsockets, hlistening, -, hopen⟩ := w.becomeOpen_spec connection.id .opened
  obtain ⟨hstarted, hdisposed⟩ := h.running connection hcurrent
  have hmap : w.current.map Connection.markOpened = some connection.markOpened := by
    rw [hcurrent, Option.map_some]
  rw [hsockets]
  refine ⟨h.delay, fun _ _ => ⟨hstarted, hdisposed⟩, h.heard, ?_, ?_, ?_, ?_⟩
  · intro other hother
    obtain rfl := Option.some.inj (hmap.symm.trans hother)
    exact ⟨fun _ => rfl, fun _ => hopen rfl⟩
  · intro i
    have hold := h.listening i
    rw [hcurrent] at hold
    simpa [World.markOpened, hmap, hlistening, Connection.markOpened] using hold
  · intro _ _ _
    simp [World.markOpened, hmap]
  · intro name timer htimer
    obtain ⟨hname, hset, hlive, hfits⟩ := h.timers name timer htimer
    refine ⟨hname, hset, hlive, ?_⟩
    cases name <;> simp_all [Fits, World.markOpened, Connection.markOpened]

/-- A socket reports once that it is open, and its connection is then watched. -/
theorem Sound.onOpen (h : Sound options sending w) {connection : Connection}
    (hcurrent : w.current = some connection) :
    Sound options sending
      ((w.becomeOpen connection.id .opened).onOpen options outcome connection.id) := by
  have hsame := w.becomeOpen_toController connection.id .opened
  have hnow : (w.becomeOpen connection.id .opened).isCurrent connection.id = true :=
    (World.isCurrent_congr hsame connection.id).trans (h.isCurrent hcurrent)
  have hconnection : (w.becomeOpen connection.id .opened).current = some connection := by
    rw [hsame, hcurrent]
  unfold World.onOpen
  cases hopened : connection.opened with
  | true =>
      have hunchanged : w.becomeOpen connection.id .opened = w := by
        have hstate := (h.opened connection hcurrent).2 hopened
        unfold World.becomeOpen
        split
        · next hconnecting => exact absurd hconnecting hstate
        · rfl
      rw [if_pos (by simp [hconnection, hopened]), hunchanged]
      exact h
  | false =>
      have hready := (((((h.toKept.markOpened hcurrent).clearTimer .connect).clearTimer
        .foreground).resetDelay).notify (.onStatusChange "connected"))
      have hactive := @Attended.activity _ outcome sending _ hready
        (fun _ _ hnone => by
          change (w.becomeOpen connection.id .opened).current.map Connection.markOpened =
            none at hnone
          simp [hconnection] at hnone)
        (fun other hother hnot => by
          change (w.becomeOpen connection.id .opened).current.map Connection.markOpened =
            some other at hother
          obtain rfl : connection.markOpened = other := by simpa [hconnection] using hother
          simp [Connection.markOpened] at hnot)
      rw [if_neg (by simp [hnow, hconnection, hopened])]
      dsimp only
      have hnotified := (hactive.debug "socket_open" []).notify (.onOpen connection.id)
      split
      · exact hnotified
      · split
        · exact hnotified.notify _
        · exact hnotified

theorem Sound.dispatch (h : Sound options sending w) (i : Nat) (event : SocketEvent) :
    Sound options sending (w.dispatch options outcome i event) := by
  obtain ⟨sockets, hsockets, hsame, -⟩ := w.becomeOpen_spec i event
  have hheard : ((w.becomeOpen i event).sockets i).listening = (w.sockets i).listening := by
    rw [hsockets]
    exact hsame i
  unfold World.dispatch
  dsimp only
  rw [hheard]
  split
  · next hlistening =>
      obtain ⟨connection, hcurrent, rfl⟩ := (h.listening i).mp hlistening
      cases event with
      | opened => exact h.onOpen hcurrent
      | message data => exact h.onMessage connection.id data
      | close code reason wasClean => exact h.onClose connection.id code reason wasClean
      | error event => exact h.onError connection.id event
  · next hdeaf =>
      -- no connection hears from the socket, whose state then concerns none
      unfold World.becomeOpen
      split
      · refine h.setReadyState fun connection hcurrent hi => absurd ?_ hdeaf
        exact (h.listening i).mpr ⟨connection, hcurrent, hi⟩
      · exact h

/-! ### Sending -/

theorem Sound.withSent (h : Sound options sending w) (sent : List (Nat × Value)) :
    Sound options sending { w with sent := sent } :=
  ⟨⟨⟨h.delay, h.running, h.heard, h.opened, h.listening, h.pinging, h.timers⟩, h.waiting,
    h.connecting, h.answered⟩, h.beating⟩

theorem Sound.socketSend (h : Sound options sending w) (i : Nat) (message : Value) :
    Sound options sending (w.socketSend options outcome i message) := by
  have hfold : ∀ (events : List (Nat × SocketEvent)) (w : World), Sound options sending w →
      Sound options sending
        (events.foldl (fun w event => w.dispatch options outcome event.1 event.2) w) := by
    intro events
    induction events with
    | nil => exact fun _ hw => hw
    | cons event events ih => exact fun w hw => ih _ (hw.dispatch event.1 event.2)
  exact hfold outcome.dispatched _ (h.withSent _)

/-- Once its connection has been given up, or its ping answered, nothing is being sent. -/
theorem Attended.sent {i : Nat} {requestId : RequestId}
    (h : Attended options (some (i, requestId)) w)
    (hover : w.isCurrent i = false ∨ w.pendingPingRequestId ≠ some requestId) :
    Attended options none w := by
  refine ⟨h.toKept, h.waiting, h.connecting, fun connection hcurrent pending hpending => ?_⟩
  refine (h.answered connection hcurrent pending hpending).imp_right fun hsending => ?_
  obtain ⟨rfl, rfl⟩ := Prod.mk.inj (Option.some.inj hsending)
  rcases hover with hnot | hnot
  · exact absurd (h.isCurrent hcurrent) (by simp [hnot])
  · exact absurd hpending hnot

theorem Sound.sent {i : Nat} {requestId : RequestId} (h : Sound options (some (i, requestId)) w)
    (hover : w.isCurrent i = false ∨ w.pendingPingRequestId ≠ some requestId) :
    Sound options none w :=
  ⟨h.toAttended.sent hover, h.beating⟩

theorem Sound.recover (h : Sound options sending w) (i : Nat) (reason : String)
    (immediate : Bool) : Sound options sending (w.recover options outcome i reason immediate) := by
  cases hcurrent : w.isCurrent i with
  | true => exact h.toKept.recover hcurrent reason immediate
  | false => rwa [World.recover_of_not_isCurrent hcurrent]

theorem Sound.send (h : Sound options sending w) (i : Nat) (message : Value) :
    Sound options sending (w.send options outcome i message).1 := by
  unfold World.send
  split
  · exact h
  · have hsent := @Sound.socketSend _ outcome _ _ h i message
    split
    · exact hsent
    · exact (hsent.notify _).recover i _ _

/-- A ping that could not be sent leaves no connection waiting for its answer. -/
theorem Sound.send_failed {i : Nat} {requestId : RequestId}
    (h : Sound options (some (i, requestId)) w) (hcurrent : w.isCurrent i = true)
    (hopen : w.readyState i = .opened) (message : Value)
    (hfailed : (w.send options outcome i message).2 = false) :
    Sound options none (w.send options outcome i message).1 := by
  have hsent := @Sound.socketSend _ outcome _ _ h i message
  unfold World.send at hfailed ⊢
  rw [if_neg (by simp [hcurrent, hopen])] at hfailed ⊢
  cases herror : outcome.sendError with
  | none => simp [herror] at hfailed
  | some error =>
      have hnotified := hsent.notify (.onError error "send" options.url)
      cases hnow : (w.socketSend options outcome i message).isCurrent i with
      | true => exact hnotified.toKept.recover hnow _ _
      | false =>
          have hover := hnotified.sent (Or.inl hnow)
          exact hover.recover i _ _

/-! ### Pings and page events -/

/-- A connection that is not waited on may be pinged. -/
theorem Attended.ping (h : Attended options none w) {connection : Connection}
    (hcurrent : w.current = some connection) (hping : w.pendingPingRequestId = none)
    (requestId : RequestId) :
    Sound options (some (connection.id, requestId))
      { w.clearTimer .health with pendingPingRequestId := some requestId } := by
  have hcleared := h.clearTimer (Or.inr rfl)
  refine ⟨⟨⟨h.delay, h.running, h.heard, h.opened, h.listening, ?_, ?_⟩, ?_, ?_, ?_⟩, ?_⟩
  · intro _ _ _
    simp [World.clearTimer, hcurrent]
  · intro name timer htimer
    have hold : (w.clearTimer .health).timers name = some timer := htimer
    obtain ⟨hname, hset, hdisposed, hfits⟩ := hcleared.timers name timer hold
    refine ⟨hname, hset, hdisposed, hfits.unpinged ?_ ?_ rfl⟩
    · rintro hhealth
      simp [← hname, hhealth, World.clearTimer_timers] at hold
    · intro hpong
      simp only [Fits, hpong] at hfits
      obtain ⟨_, pending, -, -, -, hpending⟩ := hfits
      cases hping.symm.trans hpending
  · exact hcleared.waiting
  · exact hcleared.connecting
  · intro other hother pending hpending
    obtain rfl := Option.some.inj (hcurrent.symm.trans hother)
    exact Or.inr (by rw [← Option.some.inj hpending])
  · intro _ _ _ _ hnone
    cases hnone

theorem Sound.setPong {connection : Connection} {requestId : RequestId}
    (h : Sound options (some (connection.id, requestId)) w)
    (hcurrent : w.isCurrent connection.id = true)
    (hping : w.pendingPingRequestId = some requestId) (delay : Nat) :
    Sound options none (w.setTimer .pong (.pongTimeout connection.id requestId) delay
      (some connection.id)) := by
  obtain ⟨-, hdisposed, current, hnow, hid⟩ := World.isCurrent_iff.mp hcurrent
  have hset : Attended options (some (connection.id, requestId))
      (w.setTimer .pong (.pongTimeout connection.id requestId) delay (some connection.id)) :=
    h.toAttended.setTimer hdisposed ⟨current, requestId, hnow, by rw [hid], by rw [hid], hping⟩
  refine ⟨⟨hset.toKept, hset.waiting, hset.connecting, ?_⟩, ?_⟩
  · intro _ _ _ _
    exact Or.inl (by simp [World.setTimer])
  · intro _ _ _ _ hnone
    cases hping.symm.trans hnone

theorem Attended.checkHealth (h : Attended options none w) (source : String) (forcePing : Bool) :
    Sound options none (w.checkHealth options outcome source forcePing) := by
  unfold World.checkHealth
  split
  · next hskip =>
      refine ⟨h, fun connection hcurrent _ hvisible => ?_⟩
      simp [(h.running connection hcurrent).2, hvisible] at hskip
  · split
    · next hnone => exact ⟨h, fun connection hcurrent => by simp [hnone] at hcurrent⟩
    · next connection hcurrent =>
        have hnow := h.isCurrent hcurrent
        split
        · exact h.toKept.recover hnow _ _
        split
        · exact h.toKept.recover hnow _ _
        split
        · next hskip =>
            refine ⟨h, fun other hother hopen _ hping => ?_⟩
            obtain rfl := Option.some.inj (hcurrent.symm.trans hother)
            simp [hopen, hping] at hskip
        · next hidle =>
            obtain ⟨hopen, hping⟩ : w.readyState connection.id = .opened ∧
                w.pendingPingRequestId = none := by simpa using hidle
            have hstarted := h.debug "health_check_started" [("source", .string source),
              ("forcePing", .bool forcePing), ("idleMs", .ofInt (outcome.now - w.lastMessageAt))]
            dsimp only
            split
            · exact hstarted.scheduleHealth
            · have hpinged := (hstarted.ping hcurrent hping outcome.requestId).debug "ping_sent"
                [("source", .string source), ("requestId", .string outcome.requestId.text),
                  ("timeoutMs", .ofInt options.pongTimeoutMs)]
              split
              · next hfailed => exact hpinged.send_failed hnow hopen _ hfailed
              · have hsent := @Sound.send _ outcome _ _ hpinged connection.id
                  (options.createPing outcome.requestId)
                split
                · next hover => exact hsent.sent hover
                · next hwaits =>
                    obtain ⟨hcurrent', hping'⟩ := not_or.mp hwaits
                    exact hsent.setPong (by simpa using hcurrent') (by simpa using hping') _

theorem Attended.foreground (h : Attended options none w) (hstarted : w.started = true)
    (source : String) :
    Sound options none (w.foreground options outcome source) := by
  have hdebug := h.debug "foreground_event" [("source", .string source),
    ("visibilityState", w.visibilityState)]
  unfold World.foreground
  split
  · next hskip =>
      refine ⟨h, fun connection hcurrent _ hvisible => ?_⟩
      simp [(h.running connection hcurrent).2, hvisible] at hskip
  · next hshown =>
      dsimp only
      split
      · next hnone =>
          have hdisposed : w.disposed = false := by
            simp only [Bool.or_eq_true, not_or, Bool.not_eq_true] at hshown
            exact hshown.1
          exact (hdebug.toKept.clearTimer .reconnect).resetDelay.connect hnone hstarted hdisposed
      · next connection hcurrent =>
          have hnow := h.isCurrent hcurrent
          split
          · obtain ⟨retired, hretire, hkept, hnone, hstarted, hdisposed⟩ :=
              @Kept.retire _ outcome _ hdebug.toKept connection.id hnow
                (reasonDetails "foreground_closed_socket")
            rw [hretire]
            exact (hkept.clearTimer .reconnect).resetDelay.connect hnone hstarted hdisposed
          · next hconnecting =>
              split
              · refine ⟨hdebug.resetDelay, fun other hother hopen => ?_⟩
                obtain rfl := Option.some.inj (hcurrent.symm.trans hother)
                cases hconnecting.symm.trans hopen
              · split
                · refine ⟨(hdebug.debug _ _).setTimer (h.running connection hcurrent).2
                    ⟨connection, _, hcurrent, rfl, rfl⟩, fun other hother hopen => ?_⟩
                  obtain rfl := Option.some.inj (hcurrent.symm.trans hother)
                  cases hconnecting.symm.trans hopen
                · exact hdebug.toKept.recover hnow _ _
          · exact (hdebug.clearTimer (Or.inl rfl)).checkHealth source true
          · exact hdebug.toKept.recover hnow _ _

theorem Attended.visibilityChange (h : Attended options none w) (hstarted : w.started = true) :
    Sound options none (w.visibilityChange options outcome) := by
  unfold World.visibilityChange
  split
  · next hdisposed =>
      refine ⟨h, fun connection hcurrent => ?_⟩
      simp [(h.running connection hcurrent).2] at hdisposed
  · have hdebug := h.debug "visibility_change" [("hidden", .bool w.hidden),
      ("visibilityState", w.visibilityState)]
    dsimp only
    split
    · next hhidden =>
        have hcleared := (hdebug.toKept.clearHealth).clearTimer .foreground
        refine Sound.debug ⟨⟨hcleared, ?_, ?_, ?_⟩, ?_⟩ _ _
        · intro hstarted hdisposed hnone
          simpa [World.clearHealth, World.clearTimer] using hdebug.waiting hstarted hdisposed hnone
        · intro connection hcurrent hopened
          simpa [World.clearHealth, World.clearTimer] using hdebug.connecting connection
            hcurrent hopened
        · intro _ _ _ hpending
          cases hpending
        · intro _ _ _ hvisible
          cases hhidden.symm.trans hvisible
    · exact hdebug.foreground hstarted _

/-! ### Timers -/

theorem World.fired_timers (w : World) (timer : Timer) {other : TimerName}
    (h : other ≠ timer.name) :
    ((w.expire timer).deleteTimer timer.name).timers other = w.timers other :=
  Function.update_of_ne h _ _

/-- A timer that fires is no longer set, and all the others still are. -/
theorem Kept.fired (h : Kept options w) (timer : Timer) :
    Kept options ((w.expire timer).deleteTimer timer.name) := by
  refine ⟨h.delay, h.running, h.heard, h.opened, h.listening, h.pinging, ?_⟩
  intro name other hother
  by_cases hname : name = timer.name
  · simp [World.deleteTimer, hname] at hother
  · rw [World.fired_timers w timer hname] at hother
    obtain ⟨hsame, hmem, hdisposed, hfits⟩ := h.timers name other hother
    refine ⟨hsame, ?_, hdisposed, hfits⟩
    have hne : other ≠ timer := by
      rintro rfl
      exact hname hsame.symm
    simp [World.deleteTimer, World.expire, hmem, hne]

/-- A timer that is set serves no connection but the current one. -/
theorem Kept.owner (h : Kept options w) {name : TimerName} {timer : Timer}
    (hset : w.timers name = some timer) {i : Nat} (hi : timer.connection = some i) :
    w.isCurrent i = true := by
  obtain ⟨-, -, -, hfits⟩ := h.timers name timer hset
  have howner : ∃ connection, w.current = some connection ∧ connection.id = i := by
    unfold Fits at hfits
    cases hname : timer.name <;> simp only [hname] at hfits
    case reconnect => simp [hi] at hfits
    case connect | health =>
      obtain ⟨connection, hcurrent, hconnection, -⟩ := hfits
      exact ⟨connection, hcurrent, Option.some.inj (hconnection.symm.trans hi)⟩
    case foreground | pong =>
      obtain ⟨connection, -, hcurrent, hconnection, -⟩ := hfits
      exact ⟨connection, hcurrent, Option.some.inj (hconnection.symm.trans hi)⟩
  obtain ⟨connection, hcurrent, rfl⟩ := howner
  exact h.isCurrent hcurrent

theorem Sound.expire (h : Sound options sending w) {timer : Timer}
    (hunset : w.timers timer.name ≠ some timer) : Sound options sending (w.expire timer) := by
  refine ⟨⟨⟨h.delay, h.running, h.heard, h.opened, h.listening, h.pinging, ?_⟩, h.waiting,
    h.connecting, h.answered⟩, h.beating⟩
  intro name other hother
  obtain ⟨hsame, hmem, hdisposed, hfits⟩ := h.timers name other hother
  refine ⟨hsame, ?_, hdisposed, hfits⟩
  have hne : other ≠ timer := by
    rintro rfl
    exact hunset (hsame ▸ hother)
  simp [World.expire, hmem, hne]

/-- The callback of a timer that was set leaves nothing waiting for the timer. -/
theorem Sound.runTask (h : Sound options none w) {timer : Timer}
    (hset : w.timers timer.name = some timer) :
    Sound options none
      (((w.expire timer).deleteTimer timer.name).runTask options outcome timer.task) := by
  have hfired := h.toKept.fired timer
  have hothers := fun other hother => @World.fired_timers w timer other hother
  obtain ⟨-, -, hdisposed, hfits⟩ := h.timers timer.name timer hset
  have hattended : timer.name = .foreground ∨ timer.name = .health →
      Attended options none ((w.expire timer).deleteTimer timer.name) := fun hfree => by
    refine ⟨hfired, ?_, ?_, ?_⟩
    · rw [hothers _ (by rcases hfree with hname | hname <;> rw [hname] <;> decide)]
      exact h.waiting
    · rw [hothers _ (by rcases hfree with hname | hname <;> rw [hname] <;> decide)]
      exact h.connecting
    · rw [hothers _ (by rcases hfree with hname | hname <;> rw [hname] <;> decide)]
      exact h.answered
  unfold Fits at hfits
  cases hname : timer.name <;> simp only [hname] at hfits hfired hothers
  case connect =>
    obtain ⟨connection, hcurrent, -, htask⟩ := hfits
    rw [htask]
    unfold World.runTask
    dsimp only
    split
    · next hopen =>
        -- the connection has opened, and is watched by other timers
        have hopened := (h.opened connection hcurrent).1 hopen
        refine ⟨⟨hfired, ?_, ?_, ?_⟩, ?_⟩
        · rw [hothers .reconnect (by decide)]
          exact h.waiting
        · intro other hother hnot
          obtain rfl := Option.some.inj (hcurrent.symm.trans hother)
          cases hopened.symm.trans hnot
        · rw [hothers .pong (by decide)]
          exact h.answered
        · rw [hothers .health (by decide)]
          exact h.beating
    · exact (hfired.debug _ _).recover (h.isCurrent hcurrent) _ _
  case foreground =>
    obtain ⟨connection, source, hcurrent, -, htask⟩ := hfits
    rw [htask]
    exact (hname ▸ hattended (Or.inl hname)).foreground (h.running connection hcurrent).1 source
  case health =>
    obtain ⟨connection, hcurrent, -, htask, -⟩ := hfits
    rw [htask]
    exact (hname ▸ hattended (Or.inr hname)).checkHealth _ _
  case pong =>
    obtain ⟨connection, requestId, hcurrent, -, htask, hping⟩ := hfits
    rw [htask]
    unfold World.runTask
    dsimp only
    split
    · next hanswered => exact absurd hping hanswered
    · exact (hfired.debug _ _).recover (h.isCurrent hcurrent) _ _
  case reconnect =>
    rw [hfits.2.1]
    unfold World.runTask
    cases hcurrent : w.current with
    | none =>
        cases hstarted : w.started with
        | true => exact (hfired.debug _ _).connect hcurrent hstarted hdisposed
        | false =>
            dsimp only
            rw [World.connect, if_pos]
            · refine Sound.debug ⟨⟨hfired, ?_, ?_, ?_⟩, ?_⟩ _ _
              · intro hnow
                cases hstarted.symm.trans hnow
              · rw [hothers .connect (by decide)]
                exact h.connecting
              · rw [hothers .pong (by decide)]
                exact h.answered
              · rw [hothers .health (by decide)]
                exact h.beating
            · simp [World.debug, World.notify, World.deleteTimer, World.expire, hstarted]
    | some connection =>
        dsimp only
        rw [World.connect, if_pos]
        · refine Sound.debug ⟨⟨hfired, ?_, ?_, ?_⟩, ?_⟩ _ _
          · intro _ _ hnone
            cases hcurrent.symm.trans hnone
          · rw [hothers .connect (by decide)]
            exact h.connecting
          · rw [hothers .pong (by decide)]
            exact h.answered
          · rw [hothers .health (by decide)]
            exact h.beating
        · simp [World.debug, World.notify, World.deleteTimer, World.expire, hcurrent]

theorem Sound.timerFired (h : Sound options none w) (timer : Timer) :
    Sound options none (w.timerFired options outcome timer) := by
  unfold World.timerFired
  dsimp only
  by_cases hset : w.timers timer.name = some timer
  · have hlive := (h.timers timer.name timer hset).2.2.1
    have howner : timer.connection.any (fun i => !w.isCurrent i) = false := by
      cases hi : timer.connection with
      | none => rfl
      | some i => simp [h.toKept.owner hset hi]
    have hguard : ((w.expire timer).disposed || (w.expire timer).timers timer.name != some timer ||
        timer.connection.any fun i => !(w.expire timer).isCurrent i) = false := by
      change (w.disposed || w.timers timer.name != some timer ||
        timer.connection.any fun i => !w.isCurrent i) = false
      simp [hlive, hset, howner]
    rw [if_neg (Bool.eq_false_iff.mp hguard)]
    exact h.runTask hset
  · have hguard : ((w.expire timer).disposed || (w.expire timer).timers timer.name != some timer ||
        timer.connection.any fun i => !(w.expire timer).isCurrent i) = true := by
      change (w.disposed || w.timers timer.name != some timer ||
        timer.connection.any fun i => !w.isCurrent i) = true
      simp [hset]
    rw [if_pos hguard]
    exact h.expire hset

/-! ### The beginning and the end -/

theorem Sound.start (h : Sound options none w) : Sound options none (w.start options outcome) := by
  unfold World.start
  split
  · exact h
  · next hfresh =>
      obtain ⟨hstarted, hdisposed⟩ : w.started = false ∧ w.disposed = false := by
        simpa using hfresh
      have hnone : w.current = none := by
        refine Option.eq_none_iff_forall_ne_some.mpr fun connection hcurrent => ?_
        cases hstarted.symm.trans (h.running connection hcurrent).1
      have hkept : Kept options { w with started := true, listening := true } :=
        ⟨h.delay, fun _ _ => ⟨rfl, hdisposed⟩, ⟨fun _ => ⟨rfl, hdisposed⟩, fun _ => rfl⟩, h.opened,
          h.listening, h.pinging, h.timers⟩
      exact hkept.connect hnone rfl hdisposed

theorem World.clearTimers_spec (w : World) :
    ∃ timeouts, w.clearTimers = { w with timers := fun _ => none, timeouts := timeouts } := by
  refine ⟨w.clearTimers.timeouts, ?_⟩
  have htimers : w.clearTimers.timers = fun _ => none := by
    funext name
    cases name <;> simp [World.clearTimers, timerNames, World.clearTimer_timers]
  rw [← htimers]
  rfl

theorem sound_of_disposed (hdisposed : w.disposed = true) (hnone : w.current = none)
    (hdelay : w.reconnectDelayMs ∈
      Set.uIcc options.initialReconnectDelayMs options.maxReconnectDelayMs)
    (hdeaf : w.listening = false) (htimers : ∀ name, w.timers name = none)
    (hsockets : ∀ i, (w.sockets i).listening = false) : Sound options sending w := by
  refine ⟨⟨⟨hdelay, ?_, ?_, ?_, ?_, ?_, ?_⟩, ?_, ?_, ?_⟩, ?_⟩ <;>
    simp [hdisposed, hnone, hdeaf, htimers, hsockets]

theorem Sound.closeSocket (h : Sound options sending w) (hnone : w.current = none) (i : Nat) :
    Sound options sending (w.closeSocket outcome i) := by
  have hset : Sound options sending (w.setReadyState i .closing) :=
    h.setReadyState fun connection hcurrent => by simp [hnone] at hcurrent
  unfold World.closeSocket World.socketClose
  split
  · split
    · exact hset
    · exact hset
    · exact h
    · exact h
  · exact h.debug _ _

theorem Sound.dispose (h : Sound options none w) : Sound options none (w.dispose outcome) := by
  unfold World.dispose
  split
  · exact h
  · obtain ⟨timeouts, hcleared⟩ := World.clearTimers_spec
      { w.debug "effect_cleanup" [] with disposed := true, listening := false }
    dsimp only
    rw [hcleared]
    split
    · next hcurrent =>
        have hdeaf : ∀ i, (w.sockets i).listening = false := fun i => by
          refine Bool.eq_false_iff.mpr fun hlistening => ?_
          obtain ⟨connection, hconnection, -⟩ := (h.listening i).mp hlistening
          cases Eq.trans (Eq.symm hcurrent) hconnection
        exact sound_of_disposed rfl rfl h.delay rfl (fun _ => rfl) hdeaf
    · next connection hcurrent =>
        refine Sound.closeSocket ?_ rfl _
        refine sound_of_disposed rfl rfl h.delay rfl (fun _ => rfl) ?_
        intro i
        by_cases hi : i = connection.id
        · simp [World.removeEventListeners, World.setSocket, hi]
        · have hdeaf : (w.sockets i).listening = false := by
            refine Bool.eq_false_iff.mpr fun hlistening => ?_
            obtain ⟨other, hother, rfl⟩ := (h.listening i).mp hlistening
            obtain rfl := Option.some.inj (Eq.trans (Eq.symm hcurrent) hother)
            exact hi rfl
          simpa [World.removeEventListeners, World.setSocket, World.debug, World.notify,
            Function.update_of_ne hi] using hdeaf

theorem Sound.drop (h : Sound options none w) (i : Nat) (closed : Bool) :
    Sound options none (w.drop i closed) :=
  h.setReadyState fun _ _ _ => by cases closed <;> decide

theorem Sound.pageEvent (h : Sound options none w) {handler : World → World} {hidden : Bool}
    (hhandler : Attended options none { w with hidden := hidden } → w.started = true →
      Sound options none (handler { w with hidden := hidden })) :
    Sound options none (({ w with hidden := hidden } : World).pageEvent handler) := by
  have hattended : Attended options none { w with hidden := hidden } :=
    ⟨⟨h.delay, h.running, h.heard, h.opened, h.listening, h.pinging, h.timers⟩, h.waiting,
      h.connecting, h.answered⟩
  unfold World.pageEvent
  split
  · next hlistening => exact hhandler hattended (h.heard.mp hlistening).1
  · next hdeaf =>
      refine ⟨hattended, fun connection hcurrent => ?_⟩
      exact absurd (h.heard.mpr (h.running connection hcurrent)) hdeaf

theorem Sound.step (h : Sound options none w) (event : Event × Outcome) :
    Sound options none (w.step options event) := by
  obtain ⟨event, outcome⟩ := event
  cases event with
  | start => exact h.start
  | dispose => exact h.dispose
  | socket i event => exact h.dispatch i event
  | dropped i closed => exact h.drop i closed
  | openRejected i error =>
      unfold World.step
      dsimp only
      split
      · exact h.notify _
      · exact h
  | timer timer => exact h.timerFired timer
  | visibilityChange hidden =>
      exact h.pageEvent fun hattended hstarted => hattended.visibilityChange hstarted
  | focus => exact h.pageEvent fun hattended hstarted => hattended.foreground hstarted _
  | pageShow => exact h.pageEvent fun hattended hstarted => hattended.foreground hstarted _
  | send message =>
      unfold World.step
      dsimp only
      split
      · exact h
      · next connection _ => exact h.send connection.id message
  | contextSend i message => exact h.send i message

theorem sound_create (options : Options) (now : Int) (hidden : Bool) :
    Sound options none (createReconnectingSocket options now hidden) := by
  refine ⟨⟨⟨Set.left_mem_uIcc, nofun, ?_, nofun, ?_, nofun, nofun⟩, nofun, nofun, nofun⟩, nofun⟩
  · simp [createReconnectingSocket]
  · simp [createReconnectingSocket]

end Log73.Frontend.ReconnectingSocket
