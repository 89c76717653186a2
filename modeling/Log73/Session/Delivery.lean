import Log73.Session.LogEvents

/-!
No event of a log is lost without notice while the channel pushes out none that its session is
to get. Where it does, nothing tells the client.
-/

namespace Log73.Session.LogSocket

open Broadcast

/-- The event that a full channel loses is none the session is to get. -/
def StepKeeps (socket : LogSocket) : SocketAction → Prop
  | .broadcast _ => ∀ lost, socket.receiver.oldest logEventsCapacity = some lost →
      ¬ Owed socket.sessionId socket.logId lost
  | _ => True

/-- The events on their way to the client. -/
def coming (socket : LogSocket) : List ServerMessage := socket.wire ++ socket.receiver.retained

structure Sound (sessionId : String) (logId : Int) (socket : LogSocket) : Prop where
  session : socket.sessionId = sessionId
  log : socket.logId = logId
  owes : Owes (Owed sessionId logId) (OfLog logId) socket.trace
    (socket.coming.filter (Passes sessionId logId))
  wire : ∀ message ∈ socket.wire, OfLog logId message → Passes sessionId logId message

variable {sessionId : String} {logId : Int} {socket : LogSocket}

theorem told_onMessage (message : ServerMessage) : told (onMessage message) = [] := by
  cases message with
  | logEntry _ | contactDeleted _ _ | supercheckpartialUpdate _ | scoreUpdate _ _ _ _ _ | pong _
  | bandMap _ => rfl

theorem filter_passes {event : ServerMessage} (h : Passes sessionId logId event)
    (rest : List ServerMessage) : (event :: rest).filter (Passes sessionId logId) =
      event :: rest.filter (Passes sessionId logId) :=
  List.filter_cons_of_pos (decide_eq_true h)

theorem filter_other {event : ServerMessage} (h : ¬ Passes sessionId logId event)
    (rest : List ServerMessage) : (event :: rest).filter (Passes sessionId logId) =
      rest.filter (Passes sessionId logId) :=
  List.filter_cons_of_neg (by simpa using h)

theorem sound_start (sessionId : String) (logId : Int) (totals : Option (Int × Int × Int × Int)) :
    (start sessionId logId totals).Sound sessionId logId := by
  cases totals with
  | none => exact ⟨rfl, rfl, .start, fun _ hmem => nomatch hmem⟩
  | some total =>
      have hpasses : Passes sessionId logId
          (.scoreUpdate logId total.1 total.2.1 total.2.2.1 total.2.2.2) := by
        refine ⟨rfl, ?_⟩
        simp [websocketLogEventForClient]
      refine ⟨rfl, rfl, ?_, ?_⟩
      · have howes := Owes.sent (.scoreUpdate logId total.1 total.2.1 total.2.2.1 total.2.2.2)
          (@Owes.start _ (Owed sessionId logId) (OfLog logId))
        have hcoming : (start sessionId logId (some total)).coming.filter (Passes sessionId logId) =
            [.scoreUpdate logId total.1 total.2.1 total.2.2.1 total.2.2.2] :=
          filter_passes hpasses []
        rw [hcoming]
        exact howes
      · intro message hmem _
        obtain rfl := List.mem_singleton.mp hmem
        exact hpasses

/-- An event that is sent comes last, or does not concern the session. -/
theorem owes_sent {trace : List (Item ServerMessage)} {before : List ServerMessage}
    (h : Owes (Owed sessionId logId) (OfLog logId) trace (before.filter (Passes sessionId logId)))
    (event : ServerMessage) : Owes (Owed sessionId logId) (OfLog logId) (.sent event :: trace)
      ((before ++ [event]).filter (Passes sessionId logId)) := by
  rw [List.filter_append]
  by_cases hpasses : Passes sessionId logId event
  · rw [filter_passes hpasses]
    exact .sent event h
  · rw [filter_other hpasses]
    exact .dropped (fun howed => hpasses howed.passes) (.sent event h)

/-- An event that is not owed may leave the queue. -/
theorem owes_dropped {trace : List (Item ServerMessage)} {before rest : List ServerMessage}
    {lost : ServerMessage} (howed : ¬ Owed sessionId logId lost)
    (h : Owes (Owed sessionId logId) (OfLog logId) trace
      ((before ++ lost :: rest).filter (Passes sessionId logId))) :
    Owes (Owed sessionId logId) (OfLog logId) trace
      ((before ++ rest).filter (Passes sessionId logId)) := by
  rw [List.filter_append] at h ⊢
  by_cases hpasses : Passes sessionId logId lost
  · rw [filter_passes hpasses] at h
    exact .dropped howed h
  · rwa [filter_other hpasses] at h

theorem Sound.broadcast (h : socket.Sound sessionId logId) (event : ServerMessage)
    (hkeeps : socket.StepKeeps (.broadcast event)) :
    (socket.step (.broadcast event)).Sound sessionId logId := by
  refine ⟨h.session, h.log, ?_, h.wire⟩
  have howes := owes_sent h.owes event
  rw [coming, List.append_assoc] at howes
  obtain ⟨-, hretained⟩ | ⟨lost, rest, holdest, hfull, hretained⟩ :=
    socket.receiver.retained_send (by decide : 0 < logEventsCapacity) event
  · rw [coming, step, hretained]
    exact howes
  · have howed := hkeeps lost holdest
    rw [h.session, h.log] at howed
    rw [hfull, List.cons_append] at howes
    rw [coming, step, hretained]
    exact owes_dropped howed howes

theorem Sound.sendEvent (h : socket.Sound sessionId logId) :
    socket.sendEvent.Sound sessionId logId := by
  rw [LogSocket.sendEvent]
  split
  · exact h
  · next skipped receiver hrecv =>
      obtain ⟨event, hreceived, -⟩ | ⟨-, -, hretained⟩ := socket.receiver.retained_recv hrecv
      · cases hreceived
      · refine ⟨h.session, h.log, ?_, h.wire⟩
        have howes := h.owes
        rw [coming, hretained] at howes
        exact howes
  · next event receiver hrecv =>
      obtain ⟨other, hreceived, hretained⟩ | ⟨_, hreceived, -⟩ :=
        socket.receiver.retained_recv hrecv
      · cases hreceived
        have howes := h.owes
        rw [coming, hretained] at howes
        dsimp only
        rw [h.session, h.log]
        cases hfilter : websocketLogEventForClient event sessionId (some logId) with
        | none =>
            refine ⟨rfl, rfl, owes_dropped (fun howed => ?_) howes, h.wire⟩
            have hsome := howed.passes.2
            rw [hfilter] at hsome
            cases hsome
        | some message =>
            obtain rfl := websocketLogEventForClient_eq hfilter
            refine ⟨rfl, rfl, ?_, fun other hmem hlog => ?_⟩
            · dsimp only
              rw [coming, List.append_assoc]
              exact howes
            · rw [List.mem_append, List.mem_singleton] at hmem
              cases hmem with
              | inl hwire => exact h.wire other hwire hlog
              | inr hsame =>
                  refine ⟨hlog, ?_⟩
                  rw [hsame, hfilter]
                  rfl
      · cases hreceived

theorem Sound.sendDirect (h : socket.Sound sessionId logId) :
    socket.sendDirect.Sound sessionId logId := by
  rw [LogSocket.sendDirect]
  split
  · exact h
  · next message direct _ =>
      have hother : ¬ OfLog logId message.toServer := by
        cases message with
        | pong _ | bandMap _ => exact id
      refine ⟨h.session, h.log, ?_, fun other hmem hlog => ?_⟩
      · have howes := h.owes
        rw [coming, List.filter_append] at howes ⊢
        rw [List.filter_append, filter_other fun hpasses => hother hpasses.1, List.filter_nil,
          List.append_nil]
        exact howes
      · rw [List.mem_append, List.mem_singleton] at hmem
        cases hmem with
        | inl hwire => exact h.wire other hwire hlog
        | inr hsame => exact absurd (hsame ▸ hlog) hother

theorem Sound.receive (h : socket.Sound sessionId logId) :
    socket.receive.Sound sessionId logId := by
  rw [LogSocket.receive]
  split
  · exact h
  · split
    · exact h
    · next message wire hwire =>
        have howes := h.owes
        rw [coming, hwire, List.cons_append] at howes
        refine ⟨h.session, h.log, ?_, fun other hmem => ?_⟩
        · dsimp only
          rw [told_onMessage, List.nil_append]
          by_cases hpasses : Passes sessionId logId message
          · rw [filter_passes hpasses] at howes
            exact .taken howes
          · rw [filter_other hpasses] at howes
            refine .other (fun hlog => hpasses ?_) howes
            exact h.wire message (hwire ▸ List.mem_cons_self) hlog
        · exact h.wire other (hwire ▸ List.mem_cons_of_mem _ hmem)

theorem Sound.step (h : socket.Sound sessionId logId) (action : SocketAction)
    (hkeeps : socket.StepKeeps action) : (socket.step action).Sound sessionId logId := by
  cases action with
  | broadcast event => exact h.broadcast event hkeeps
  | queue message => exact ⟨h.session, h.log, h.owes, h.wire⟩
  | sendEvent => exact h.sendEvent
  | sendDirect => exact h.sendDirect
  | connected =>
      rw [LogSocket.step]
      split
      · exact h
      · exact ⟨h.session, h.log, .told (List.Sublist.refl _) h.owes, h.wire⟩
  | receive => exact h.receive
  | close => exact ⟨h.session, h.log, h.owes, h.wire⟩

/-- While the channel loses no event that the session is to get, the client gets them all in
order; when nothing is on its way any more, none is owed. -/
theorem handleSocket_unbroken (sessionId : String) (logId : Int)
    (totals : Option (Int × Int × Int × Int)) (actions : List SocketAction)
    (hkeeps : Runs.Keeps step StepKeeps (start sessionId logId totals) actions) :
    let socket := (start sessionId logId totals).run actions
    Unbroken (Owed sessionId logId) (OfLog logId) socket.trace ∧
      (socket.wire = [] → socket.receiver.retained = [] →
        Owes (Owed sessionId logId) (OfLog logId) socket.trace []) := by
  intro socket
  have hsound : socket.Sound sessionId logId :=
    Runs.invariant_run (Sound sessionId logId) (fun _ action h hallowed => h.step action hallowed)
      (sound_start sessionId logId totals) hkeeps
  refine ⟨⟨_, hsound.owes⟩, fun hwire hretained => ?_⟩
  have howes := hsound.owes
  rw [coming, hwire, hretained] at howes
  exact howes

/-- A deletion by another client. -/
theorem handleSocket_unbroken_deletion :
    let socket := (start "a" 1 none).run
      [.connected, .broadcast (.contactDeleted 7 1), .sendEvent, .receive]
    Unbroken (Owed "a" 1) (OfLog 1) socket.trace ∧
      (socket.wire = [] → socket.receiver.retained = [] →
        Owes (Owed "a" 1) (OfLog 1) socket.trace []) :=
  handleSocket_unbroken "a" 1 none _
    ⟨trivial, (fun _ hlost => nomatch hlost), trivial, trivial, trivial⟩

/-- As many contacts of the log are deleted as fill the channel, and one more. -/
def laggingActions : List SocketAction :=
  .connected :: (List.range 129).map (fun id => .broadcast (.contactDeleted id 1)) ++
    [.sendEvent, .sendEvent, .receive]

set_option maxRecDepth 8000 in
/-- The client gets the second deletion, and is never told of the first one. -/
theorem not_unbroken_lagging :
    ¬ Unbroken (Owed "a" 1) (OfLog 1) ((start "a" 1 none).run laggingActions).trace := by
  intro ⟨pending, howes⟩
  have htrace : ((start "a" 1 none).run laggingActions).trace =
      (.taken (.contactDeleted 1 1) ::
        ((List.range 129).map fun id => Item.sent (.contactDeleted id 1)).reverse) ++ [.told] := rfl
  have hprefix := howes.taken_append (fun _ => Owed.ofLog) htrace (by simp)
  have hfirst := congrArg List.head? hprefix
  cases hfirst

end Log73.Session.LogSocket
