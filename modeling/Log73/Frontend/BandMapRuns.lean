import Log73.Frontend.BandMapSync

/-!
A client that is live shows the spots its log can see after the number it is at, in every
run in which no lag hides a change from it.
-/

namespace Log73.Frontend

namespace BandMapSystem

variable [Platform] [Collator] {logId : Int} {system : BandMapSystem}

/-- Everything on its way, and the client, agree with the history. -/
structure Agrees (logId : Int) (system : BandMapSystem) : Prop where
  recorded : system.store.Recorded (some logId) system.history
  listed : system.store.Listed
  unsent : ∀ event ∈ system.unsent, event ∈ system.history
  retained : ∀ subscription ∈ system.session.subscription, ∀ event ∈ subscription.retained,
    event ∈ system.history
  outgoing : ∀ message, .sequenced message ∈ system.session.outgoing →
    Trusted logId system.history message
  answered : ∀ fetch ∈ system.fetches, ∀ sequence spots, fetch.answer = some (sequence, spots) →
    sequence ≤ system.history.length ∧
      Shows (createBandMapSpotStore spots) (visibleAt (some logId) system.history sequence)
  client : ClientOk logId system.history system.client

/-- What a step needs: frequencies and numbers that a client can read, no message that waits
while a snapshot is put in place, and no number of a lag taken for the next change. -/
def StepKeeps (logId : Int) (system : BandMapSystem) (action : BandMapAction) : Prop :=
  match action with
  | .operate operation => operation.HasFrequencies ∧
      system.history.length + (system.store.operate operation).2.length ≤
        BandMapSpotStore.sequenceLimit
  | .deliverSnapshot index =>
      ∀ fetch ∈ system.fetches[index]?, ∀ sequence spots, fetch.answer = some (sequence, spots) →
        system.client.enabled = true → system.client.generation = fetch.generation →
          system.client.pendingMessages = [] ∧
            TakesAllHidden logId system.history sequence system.client.bufferedMessages
  | .render => system.client.status = .live →
      TakesAllHidden logId system.history system.client.sequence system.client.pendingMessages
  | _ => True

def RunKeeps (logId : Int) : BandMapSystem → List BandMapAction → Prop
  | _, [] => True
  | system, action :: actions =>
      StepKeeps logId system action ∧ RunKeeps logId (system.step logId action) actions

omit [Collator] [Platform] in
/-- What a client sends is only asked for. -/
theorem continueClient_spec (system : BandMapSystem)
    (result : BandMapClient × List ClientRequest) :
    ∃ incoming fetches, (∀ fetch ∈ fetches, fetch ∈ system.fetches ∨ fetch.answer = none) ∧
      system.continueClient result =
        { system with
          session := { system.session with incoming := incoming }
          fetches := fetches
          client := result.1 } := by
  rw [BandMapSystem.continueClient]
  refine List.foldlRecOn (motive := fun continued : BandMapSystem =>
    ∃ incoming fetches, (∀ fetch ∈ fetches, fetch ∈ system.fetches ∨ fetch.answer = none) ∧
      continued =
        { system with
          session := { system.session with incoming := incoming }
          fetches := fetches
          client := result.1 }) result.2 _
    ⟨system.session.incoming, system.fetches, fun _ hmem => Or.inl hmem, rfl⟩ ?_
  intro continued hcontinued request _
  obtain ⟨incoming, fetches, hfetches, rfl⟩ := hcontinued
  cases request with
  | setBandmapEnabled enabled => exact ⟨_, fetches, hfetches, rfl⟩
  | fetchSpots generation =>
      refine ⟨incoming, _, fun fetch hmem => ?_, rfl⟩
      cases List.mem_append.mp hmem with
      | inl hmem => exact hfetches fetch hmem
      | inr hmem => exact Or.inr (List.mem_singleton.mp hmem ▸ rfl)

/-- The client goes on, and agrees with the history as before. -/
theorem Agrees.continueClient (h : system.Agrees logId)
    {result : BandMapClient × List ClientRequest}
    (hclient : ClientOk logId system.history result.1) :
    (system.continueClient result).Agrees logId := by
  obtain ⟨incoming, fetches, hfetches, heq⟩ := continueClient_spec system result
  rw [heq]
  refine ⟨h.recorded, h.listed, h.unsent, h.retained, h.outgoing, ?_, hclient⟩
  intro fetch hmem sequence spots hanswer
  cases hfetches fetch hmem with
  | inl hmem => exact h.answered fetch hmem sequence spots hanswer
  | inr hnone =>
      rw [hnone] at hanswer
      cases hanswer

theorem Agrees.recordOperation (h : system.Agrees logId) {operation : BandMapOperation}
    (hfrequencies : operation.HasFrequencies)
    (hlimit : system.history.length + (system.store.operate operation).2.length ≤
      BandMapSpotStore.sequenceLimit) :
    (system.recordOperation operation).Agrees logId := by
  obtain ⟨hrecorded, hlisted⟩ := BandMapSpotStore.operate_extends operation hfrequencies
    system.history h.recorded h.listed hlimit
  refine ⟨hrecorded, hlisted, ?_, ?_, ?_, ?_, h.client.mono _⟩
  · intro event hmem
    cases List.mem_append.mp hmem with
    | inl hmem => exact List.mem_append_left _ (h.unsent event hmem)
    | inr hmem => exact List.mem_append_right _ hmem
  · intro subscription hsubscription event hmem
    exact List.mem_append_left _ (h.retained subscription hsubscription event hmem)
  · exact fun message hmem => (h.outgoing message hmem).mono _
  · intro fetch hmem sequence spots hanswer
    obtain ⟨hle, hshows⟩ := h.answered fetch hmem sequence spots hanswer
    have hsame := @visibleAt_append logId system.history sequence hle
      (system.store.operate operation).2
    refine ⟨?_, hsame.symm ▸ hshows⟩
    rw [BandMapSystem.recordOperation, List.length_append]
    exact Nat.le_add_right_of_le hle

omit [Platform] [Collator] in
/-- A channel only loses events. -/
theorem mem_retained_send {subscription : Subscription} {sent event : BandMapEvent}
    (h : event ∈ (subscription.send sent).retained) :
    event ∈ subscription.retained ∨ event = sent := by
  have hconcat : event ∈ subscription.retained ++ [sent] := by
    rw [Subscription.send] at h
    split at h
    · exact List.mem_of_mem_drop h
    · exact h
  cases List.mem_append.mp hconcat with
  | inl hmem => exact Or.inl hmem
  | inr hmem => exact Or.inr (List.mem_singleton.mp hmem)

theorem Agrees.broadcastEvent (h : system.Agrees logId) (index : Nat) :
    (system.broadcastEvent index).Agrees logId := by
  rw [BandMapSystem.broadcastEvent]
  cases hsent : system.unsent[index]? with
  | none => exact h
  | some sent =>
      refine ⟨h.recorded, h.listed, ?_, ?_, h.outgoing, h.answered, h.client⟩
      · exact fun event hmem => h.unsent event (List.mem_of_mem_eraseIdx hmem)
      · intro subscription hsubscription event hmem
        obtain ⟨old, hold, rfl⟩ := Option.map_eq_some_iff.mp hsubscription
        cases mem_retained_send hmem with
        | inl hmem => exact h.retained old hold event hmem
        | inr heq => exact heq ▸ h.unsent sent (List.mem_of_getElem? hsent)

theorem Agrees.handleRequest (h : system.Agrees logId) : system.handleRequest.Agrees logId := by
  rw [BandMapSystem.handleRequest]
  split
  · exact h
  · next enabled incoming _ =>
      dsimp only
      split
      · exact ⟨h.recorded, h.listed, h.unsent, h.retained, h.outgoing, h.answered, h.client⟩
      · refine ⟨h.recorded, h.listed, h.unsent, ?_, ?_, h.answered, h.client⟩
        · intro subscription hsubscription event hmem
          cases enabled with
          | true =>
              cases hsubscription
              cases hmem
          | false => cases hsubscription
        · intro message hmem
          cases enabled with
          | true =>
              cases List.mem_append.mp hmem with
              | inl hmem => exact h.outgoing message hmem
              | inr hmem => cases List.mem_singleton.mp hmem
          | false => exact h.outgoing message hmem

omit [Platform] [Collator] in
theorem trusted_sessionMessage {event : BandMapEvent} (h : event ∈ system.history)
    (hrecorded : system.store.Recorded (some logId) system.history) :
    Trusted logId system.history (sessionMessage logId event) := by
  cases event with
  | spotUpserted sequence spot =>
      rw [sessionMessage]
      split
      · next hvisible => exact ⟨h, hvisible⟩
      · obtain ⟨i, hi⟩ := List.getElem?_of_mem h
        have hnumber : sequence = i + 1 := hrecorded.numbered i _ hi
        have hlt := (List.getElem?_eq_some_iff.mp hi).1
        rw [hnumber]
        exact hlt
  | spotDeleted sequence id => exact h

theorem Agrees.forward (h : system.Agrees logId) : (system.forward logId).Agrees logId := by
  rw [BandMapSystem.forward]
  cases hsubscription : system.session.subscription with
  | none => exact h
  | some subscription =>
      have hold := h.retained subscription hsubscription
      dsimp only
      split
      · refine ⟨h.recorded, h.listed, h.unsent, ?_, ?_, h.answered, h.client⟩
        · intro current hcurrent
          cases hcurrent
          exact hold
        · intro message hmem
          cases List.mem_append.mp hmem with
          | inl hmem => exact h.outgoing message hmem
          | inr hmem =>
              cases List.mem_singleton.mp hmem
              exact Nat.le_of_eq h.recorded.length.symm
      · split
        · exact h
        · next event retained hretained =>
            rw [hretained, List.forall_mem_cons] at hold
            refine ⟨h.recorded, h.listed, h.unsent, ?_, ?_, h.answered, h.client⟩
            · intro current hcurrent
              cases hcurrent
              exact hold.2
            · intro message hmem
              cases List.mem_append.mp hmem with
              | inl hmem => exact h.outgoing message hmem
              | inr hmem =>
                  cases List.mem_singleton.mp hmem
                  exact trusted_sessionMessage hold.1 h.recorded

/-- The spots of a snapshot are those that can be seen after all that was recorded. -/
theorem shows_snapshot (h : system.Agrees logId) :
    Shows (createBandMapSpotStore (system.store.spots (some logId)))
      (visibleAt (some logId) system.history system.store.nextSequence) := by
  have hview := h.recorded.view
  rw [h.recorded.length] at hview
  rw [← hview]
  refine shows_create (fun spot hmem => ?_) fun id hsome => ?_
  · obtain ⟨hspot, hvisible⟩ := (BandMapSpotStore.mem_spots h.recorded h.listed spot).mp hmem
    refine ⟨?_, h.recorded.frequencies spot.id spot hspot⟩
    rw [BandMapSpotStore.view, hspot, Option.filter_some, if_pos hvisible]
    rfl
  · rw [BandMapSpotStore.view, Option.isSome_map] at hsome
    obtain ⟨spot, hfound⟩ := Option.isSome_iff_exists.mp hsome
    obtain ⟨hspot, hvisible⟩ := Option.filter_eq_some_iff.mp hfound
    have hid := h.recorded.keyed.ids id spot hspot
    exact ⟨spot, (BandMapSpotStore.mem_spots h.recorded h.listed spot).mpr
      ⟨hid.symm ▸ hspot, hvisible⟩, hid⟩

theorem Agrees.answerFetch (h : system.Agrees logId) (index : Nat) :
    (system.answerFetch logId index).Agrees logId := by
  rw [BandMapSystem.answerFetch]
  split
  · exact h
  · refine ⟨h.recorded, h.listed, h.unsent, h.retained, h.outgoing, ?_, h.client⟩
    intro fetch hmem sequence spots hanswer
    cases List.mem_or_eq_of_mem_set hmem with
    | inl hmem => exact h.answered fetch hmem sequence spots hanswer
    | inr heq =>
        rw [heq] at hanswer
        cases hanswer
        exact ⟨Nat.le_of_eq h.recorded.length.symm, shows_snapshot h⟩

theorem Agrees.deliverMessage (h : system.Agrees logId) : system.deliverMessage.Agrees logId := by
  rw [BandMapSystem.deliverMessage]
  cases houtgoing : system.session.outgoing with
  | nil => exact h
  | cons message outgoing =>
      have hold := h.outgoing
      rw [houtgoing] at hold
      apply Agrees.continueClient
      · exact ⟨h.recorded, h.listed, h.unsent, h.retained,
          fun other hmem => hold other (List.mem_cons_of_mem _ hmem), h.answered, h.client⟩
      · apply h.client.handleSocketMessage
        intro sequenced heq
        exact hold sequenced (heq ▸ List.mem_cons_self)

theorem Agrees.withoutFetch (h : system.Agrees logId) (index : Nat) :
    Agrees logId { system with fetches := system.fetches.eraseIdx index } :=
  ⟨h.recorded, h.listed, h.unsent, h.retained, h.outgoing,
    fun fetch hmem => h.answered fetch (List.mem_of_mem_eraseIdx hmem), h.client⟩

theorem Agrees.deliverSnapshot (h : system.Agrees logId) {index : Nat}
    (hkeeps : StepKeeps logId system (.deliverSnapshot index)) :
    (system.deliverSnapshot index).Agrees logId := by
  rw [BandMapSystem.deliverSnapshot]
  split
  · next generation sequence spots hfetch =>
      obtain ⟨hle, hshows⟩ := h.answered _ (List.mem_of_getElem? hfetch) sequence spots rfl
      apply (h.withoutFetch index).continueClient
      apply h.client.snapshotLoaded h.recorded.numbered h.recorded.announced hle hshows
      exact fun henabled hgeneration => hkeeps _ hfetch sequence spots rfl henabled hgeneration
  · exact h

theorem Agrees.failSnapshot (h : system.Agrees logId) (index : Nat) :
    (system.failSnapshot index).Agrees logId := by
  rw [BandMapSystem.failSnapshot]
  split
  · exact h
  · next fetch _ =>
      have herased := h.withoutFetch index
      exact ⟨h.recorded, h.listed, h.unsent, h.retained, h.outgoing, herased.answered,
        h.client.snapshotFailed fetch.generation⟩

theorem Agrees.step (h : system.Agrees logId) {action : BandMapAction}
    (hkeeps : StepKeeps logId system action) : (system.step logId action).Agrees logId := by
  cases action with
  | operate operation => exact h.recordOperation hkeeps.1 hkeeps.2
  | broadcast index => exact h.broadcastEvent index
  | handleRequest => exact h.handleRequest
  | forward => exact h.forward
  | answerFetch index => exact h.answerFetch index
  | deliverMessage => exact h.deliverMessage
  | deliverSnapshot index => exact h.deliverSnapshot hkeeps
  | failSnapshot index => exact h.failSnapshot index
  | setEnabled enabled => exact h.continueClient (h.client.setEnabled enabled)
  | reconnect =>
      apply Agrees.continueClient
      · exact ⟨h.recorded, h.listed, h.unsent, fun _ hmem => (by cases hmem),
          fun _ hmem => (by cases hmem), h.answered, h.client⟩
      · exact h.client.handleSocketOpenReload
  | render =>
      exact h.continueClient (h.client.render h.recorded.numbered h.recorded.announced hkeeps)

theorem agrees_empty : Agrees logId {} where
  recorded := BandMapSpotStore.recorded_empty
  listed := BandMapSpotStore.listed_empty
  unsent _ hmem := by cases hmem
  retained _ hmem := by cases hmem
  outgoing _ hmem := by cases hmem
  answered _ hmem := by cases hmem
  client := ClientOk.of_not_live (fun _ hmem => by cases hmem) (fun _ hmem => by cases hmem)
    SyncStatus.noConfusion

theorem Agrees.foldl {actions : List BandMapAction} (h : system.Agrees logId)
    (hkeeps : RunKeeps logId system actions) :
    (actions.foldl (fun system action => system.step logId action) system).Agrees logId := by
  induction actions generalizing system with
  | nil => exact h
  | cons action actions ih => exact ih (h.step hkeeps.1) hkeeps.2

/-- The client and the band map are in step. -/
structure InStep (logId : Int) (system : BandMapSystem) : Prop where
  shows : system.client.status = .live →
    Shows system.client.current (visibleAt (some logId) system.history system.client.sequence)
  server : ∀ id : Nat,
    ((system.store.spots (some logId)).find? fun spot => spot.id = id).map BandMapSpot.timeless =
      visibleAt (some logId) system.history system.store.nextSequence id
  ignored : ∀ message : SequenceMessage, message.sequence ≤ system.client.sequence →
    system.client.runUpdate (.message message) = (system.client, [])

omit [Platform] [Collator] in
theorem foldl_putIn_messages (messages : List SequenceMessage) (store : ClientSpotStore) :
    (messages.map StoreUpdate.message).foldl StoreUpdate.putIn store = store := by
  induction messages with
  | nil => rfl
  | cons message messages ih => exact ih

omit [Platform] [Collator] in
theorem foldl_putIn_replaced (replaced : List ClientSpotStore) (store : ClientSpotStore) :
    (replaced.map StoreUpdate.replace).foldl StoreUpdate.putIn store =
      replaced.getLast?.getD store := by
  induction replaced generalizing store with
  | nil => rfl
  | cons first replaced ih =>
      rw [List.map_cons, List.foldl_cons, List.getLast?_cons]
      exact ih first

theorem Agrees.inStep (h : system.Agrees logId) : InStep logId system where
  shows hlive := by
    obtain ⟨-, replaced, messages, hupdates, hshows⟩ := h.client.live hlive
    rw [BandMapClient.current, hupdates, List.foldl_append, foldl_putIn_messages,
      foldl_putIn_replaced]
    exact hshows
  server id := by
    have hview := h.recorded.view
    rw [h.recorded.length] at hview
    rw [← hview, BandMapSpotStore.view]
    cases hfound : (system.store.spots (some logId)).find? fun spot => spot.id = id with
    | none =>
        rw [List.find?_eq_none] at hfound
        cases hspot : system.store.spotsById[id]? with
        | none => rfl
        | some spot =>
            have hid := h.recorded.keyed.ids id spot hspot
            have hhidden : ¬ spotVisibleForLog spot (some logId) = true := fun hvisible =>
              hfound spot ((BandMapSpotStore.mem_spots h.recorded h.listed spot).mpr
                ⟨hid.symm ▸ hspot, hvisible⟩) (decide_eq_true hid)
            rw [Option.filter_some, if_neg hhidden]
    | some spot =>
        have hid : spot.id = id := by simpa using List.find?_some hfound
        obtain ⟨hspot, hvisible⟩ := (BandMapSpotStore.mem_spots h.recorded h.listed spot).mp
          (List.mem_of_find?_eq_some hfound)
        rw [← hid, hspot, Option.filter_some, if_pos hvisible]
  ignored message hle := by
    have hold : applyBandMapSequenceMessage system.client.store system.client.sequence message =
        { store := system.client.store, sequence := system.client.sequence, applied := false,
          needsRefresh := false } := if_pos (Or.inr hle)
    rw [BandMapClient.runUpdate, hold]
    rfl

/-- In every run in which no lag hides a change from the client, it is in step at each point. -/
theorem inStep_of_runKeeps (logId : Int) (actions : List BandMapAction)
    (h : RunKeeps logId {} actions) : InStep logId (run logId {} actions) :=
  (Agrees.foldl agrees_empty h).inStep

end BandMapSystem

end Log73.Frontend

namespace Log73.Frontend

attribute [local instance] asciiPlatform

/-- Words compared as they stand. -/
@[reducible] def plainCollator : Collator where
  localeCompare left right := if left < right then -1 else if left = right then 0 else 1

attribute [local instance] plainCollator

/-- The band map is switched on, and the client asks for a snapshot. -/
def openedActions : List BandMapAction :=
  [.setEnabled true, .handleRequest, .deliverMessage]

/-- A frequency is marked in use at a time of day. -/
def markActions (minute frequencyHz : Nat) : List BandMapAction :=
  [.operate (.upsertInUse [] (60 * minute) 100000 frequencyHz), .broadcast 0]

/-- A snapshot is fetched and drawn. -/
def loadedActions : List BandMapAction :=
  [.answerFetch 0, .deliverSnapshot 0, .render]

/-- A message of the subscription reaches the client and is drawn. -/
def followedActions : List BandMapAction :=
  [.forward, .deliverMessage, .render]

/-- One mark is renewed over and over, at one of two times. -/
def renewals : Bool → Nat → List BandMapAction
  | _, 0 => []
  | late, count + 1 => markActions late.toNat 7000000 ++ renewals (!late) count

/-- The channel is full when the client loads the map, and a second mark makes it lag. -/
def laggedActions : List BandMapAction :=
  openedActions ++ markActions 0 7000000 ++ (renewals true 511 ++ (loadedActions ++
    (markActions 0 14000000 ++ followedActions)))

def mark (minute frequencyHz id : Nat) : BandMapSpot :=
  .mk (inUseRequest [] (60 * minute) frequencyHz).2 id

def markedStore (late : Bool) (sequence : Nat) : BandMapSpotStore where
  nextId := 1
  nextSequence := sequence
  spotsById := .ofList [(1, mark late.toNat 7000000 1)]
  idsByTime := [1]
  idByKey := [((inUseRequest [] 0 7000000).1, 1)]
  keyById := .ofList [(1, (inUseRequest [] 0 7000000).1)]

def openedClient : BandMapClient where
  enabled := true
  status := .loadingSnapshot
  refreshInFlight := true
  generation := 1
  updates := [.replace {}]

/-- The events wait in the channel. -/
def markedSystem (late : Bool) (events : List BandMapEvent) : BandMapSystem where
  store := markedStore late events.length
  history := events
  session :=
    { bandmapEnabled := true
      subscription := some { retained := events } }
  fetches := [{ generation := 1 }]
  client := openedClient

/-- The client has drawn the snapshot. -/
def loadedClient (late : Bool) : BandMapClient where
  enabled := true
  status := .live
  sequence := 512
  generation := 1
  store := createBandMapSpotStore [mark late.toNat 7000000 1]

/-- The client follows the map, at a number. -/
def followingSystem (late : Bool) (sequence : Nat) (store : BandMapSpotStore)
    (history : List BandMapEvent) (subscription : Subscription) : BandMapSystem where
  store := store
  history := history
  session :=
    { bandmapEnabled := true
      subscription := some subscription }
  client := { loadedClient late with sequence := sequence }

namespace BandMapSystem

theorem inStep_of_runKeeps_marked :
    InStep 1 (run 1 {} (openedActions ++ markActions 0 7000000 ++ loadedActions ++
      markActions 0 14000000 ++ followedActions ++ followedActions)) := by
  apply inStep_of_runKeeps
  refine ⟨trivial, trivial, trivial, ⟨Nat.succ_pos _, by decide +kernel⟩, trivial, trivial, ?_, ?_,
    ⟨Nat.succ_pos _, by decide +kernel⟩, trivial, trivial, trivial, ?_, trivial, trivial, ?_,
    trivial⟩
  · exact fun _ _ _ _ _ _ _ => ⟨rfl, trivial⟩
  · exact fun _ => trivial
  · exact fun _ _ => ⟨SequenceMessage.noConfusion, trivial⟩
  · exact fun _ _ => ⟨SequenceMessage.noConfusion, trivial⟩

theorem send_of_room {events : List BandMapEvent} (h : events.length < 512) (event : BandMapEvent) :
    Subscription.send { retained := events } event = { retained := events ++ [event] } := by
  rw [Subscription.send]
  apply if_neg
  rw [List.length_append, List.length_singleton, bandmapEventBuffer]
  dsimp only
  omega

theorem run_markActions (system : BandMapSystem) (minute frequencyHz : Nat) :
    run 1 system (markActions minute frequencyHz) =
      (system.recordOperation (.upsertInUse [] (60 * minute) 100000 frequencyHz)).broadcastEvent
        0 :=
  rfl

theorem broadcast_sent {system : BandMapSystem} {event : BandMapEvent} {subscription : Subscription}
    (hunsent : system.unsent = [event])
    (hsubscription : system.session.subscription = some subscription) :
    system.broadcastEvent 0 =
      { system with
        unsent := []
        session := { system.session with subscription := some (subscription.send event) } } := by
  rw [broadcastEvent, hunsent]
  dsimp only [List.getElem?_cons_zero]
  rw [hsubscription]
  rfl

theorem nextCounter_of_lt {counter : Nat} (h : counter < 1000) :
    nextCounter counter = counter + 1 := by
  rw [nextCounter]
  omega

/-- A renewal waits behind the others. -/
theorem run_mark (late : Bool) {events : List BandMapEvent} (h : events.length < 512) :
    run 1 (markedSystem late events) (markActions (!late).toNat 7000000) =
      markedSystem (!late)
        (events ++ [.spotUpserted (events.length + 1) (mark (!late).toNat 7000000 1)]) := by
  have hstore : (markedStore late events.length).operate
      (.upsertInUse [] (60 * (!late).toNat) 100000 7000000) =
        (markedStore (!late) (nextCounter events.length),
          [.spotUpserted (nextCounter events.length) (mark (!late).toNat 7000000 1)]) := by
    cases late with
    | false => rfl
    | true => rfl
  rw [nextCounter_of_lt (by omega)] at hstore
  have hsystem : (markedSystem late events).recordOperation
      (.upsertInUse [] (60 * (!late).toNat) 100000 7000000) =
        { markedSystem (!late)
            (events ++ [.spotUpserted (events.length + 1) (mark (!late).toNat 7000000 1)]) with
          unsent := [.spotUpserted (events.length + 1) (mark (!late).toNat 7000000 1)]
          session :=
            { bandmapEnabled := true
              subscription := some { retained := events } } } := by
    rw [recordOperation, markedSystem]
    dsimp only
    rw [hstore, markedSystem, List.length_append]
    rfl
  rw [run_markActions, hsystem, broadcast_sent rfl rfl, send_of_room h]
  rfl

theorem run_append (system : BandMapSystem) (actions later : List BandMapAction) :
    run 1 system (actions ++ later) = run 1 (run 1 system actions) later := List.foldl_append

theorem run_renewals (count : Nat) (late : Bool) {events : List BandMapEvent}
    (h : events.length + count ≤ 512) :
    ∃ late' events', events'.length = events.length + count ∧
      run 1 (markedSystem late events) (renewals (!late) count) = markedSystem late' events' := by
  induction count generalizing late events with
  | zero => exact ⟨late, events, rfl, rfl⟩
  | succ count ih =>
      rw [renewals, run_append, run_mark late (by omega)]
      have hroom : (events ++
          [BandMapEvent.spotUpserted (events.length + 1) (mark (!late).toNat 7000000 1)]).length +
            count ≤ 512 := by
        rw [List.length_append, List.length_singleton]
        omega
      obtain ⟨late', events', hlength, hrun⟩ := ih (!late) hroom
      refine ⟨late', events', ?_, hrun⟩
      rw [hlength, List.length_append, List.length_singleton]
      omega

theorem send_of_full {events : List BandMapEvent} (h : events.length = 512) (event : BandMapEvent) :
    Subscription.send { retained := events } event =
      { retained := (events ++ [event]).drop 1, skipped := 1 } := by
  rw [Subscription.send]
  apply if_pos
  rw [List.length_append, List.length_singleton, bandmapEventBuffer]
  dsimp only
  omega


/-- The channel lost an event, and the number of the lag is taken for it. -/
theorem run_followed (late : Bool) {store : BandMapSpotStore} (history retained : List BandMapEvent)
    (hsequence : store.nextSequence = 513) :
    run 1 (followingSystem late 512 store history { retained := retained, skipped := 1 })
      followedActions = followingSystem late 513 store history { retained := retained } := by
  have hforward : forward 1 (followingSystem late 512 store history
      { retained := retained, skipped := 1 }) =
        { followingSystem late 512 store history { retained := retained } with
          session :=
            { bandmapEnabled := true
              subscription := some { retained := retained }
              outgoing := [.sequenced (.bandmapSequence 513)] } } := by
    rw [forward, followingSystem]
    dsimp only
    rw [if_pos Nat.one_pos, hsequence]
    rfl
  rw [followedActions, run, List.foldl_cons, BandMapSystem.step, hforward]
  rfl

theorem run_lagged (late : Bool) {events : List BandMapEvent} (h : events.length = 512) :
    ∃ (store : BandMapSpotStore) (subscription : Subscription),
      run 1 (markedSystem late events)
        (loadedActions ++ (markActions 0 14000000 ++ followedActions)) =
          followingSystem late 513 store (events ++ [.spotUpserted 513 (mark 0 14000000 2)])
            subscription := by
  have hloaded : run 1 (markedSystem late events) loadedActions =
      followingSystem late events.length (markedStore late events.length) events
        { retained := events } := rfl
  obtain ⟨store, hstore, hsequence⟩ : ∃ store : BandMapSpotStore,
      (markedStore late events.length).operate (.upsertInUse [] (60 * 0) 100000 14000000) =
        (store, [.spotUpserted (nextCounter events.length) (mark 0 14000000 2)]) ∧
      store.nextSequence = nextCounter events.length := by
    cases late with
    | false => exact ⟨_, rfl, rfl⟩
    | true => exact ⟨_, rfl, rfl⟩
  have hnext : nextCounter events.length = 513 := by rw [nextCounter_of_lt (by omega), h]
  rw [hnext] at hstore hsequence
  have hmarked : run 1 (followingSystem late events.length (markedStore late events.length) events
      { retained := events }) (markActions 0 14000000) =
        followingSystem late 512 store (events ++ [.spotUpserted 513 (mark 0 14000000 2)])
          { retained := (events ++ [BandMapEvent.spotUpserted 513 (mark 0 14000000 2)]).drop 1
            skipped := 1 } := by
    rw [run_markActions, recordOperation, followingSystem]
    dsimp only
    rw [hstore, broadcast_sent rfl rfl, send_of_full h, h]
    rfl
  rw [run_append, hloaded, run_append, hmarked, run_followed late _ _ hsequence]
  exact ⟨store, _, rfl⟩

theorem not_inStep_lagged : ¬ InStep 1 (run 1 {} laggedActions) := by
  intro h
  have hfirst : run 1 {} (openedActions ++ markActions 0 7000000) =
      markedSystem false [.spotUpserted 1 (mark 0 7000000 1)] := rfl
  have hroom : [BandMapEvent.spotUpserted 1 (mark 0 7000000 1)].length + 511 ≤ 512 :=
    Nat.le_refl 512
  obtain ⟨late, events, hcount, hrenewed⟩ := run_renewals 511 false hroom
  have hlength : events.length = 512 := hcount
  have hrenewed : run 1 (markedSystem false [.spotUpserted 1 (mark 0 7000000 1)])
      (renewals true 511) = markedSystem late events := hrenewed
  obtain ⟨store, subscription, hlagged⟩ := run_lagged late hlength
  have hshows := h.shows
  rw [laggedActions, run_append, hfirst, run_append, hrenewed, hlagged] at hshows
  have hevent : (events ++ [.spotUpserted 513 (mark 0 14000000 2)])[512]? =
      some (.spotUpserted 513 (mark 0 14000000 2)) := by
    rw [← hlength]
    exact List.getElem?_concat_length ..
  have hvisible : visibleAt (some 1) (events ++ [.spotUpserted 513 (mark 0 14000000 2)]) 513 2 =
      some (mark 0 14000000 2).timeless := by
    rw [visibleAt_succ hevent]
    rfl
  have hmissing : (loadedClient late).store.spotsById[2]? = none := by
    cases late with
    | false => rfl
    | true => rfl
  have hspots : (((loadedClient late).store.spotsById[2]?).map DisplayedSpot.timeless) =
      (visibleAt (some 1) (events ++ [.spotUpserted 513 (mark 0 14000000 2)]) 513 2).map
        displayed :=
    (hshows rfl).spots 2
  rw [hmissing, hvisible] at hspots
  cases hspots

end BandMapSystem

end Log73.Frontend
