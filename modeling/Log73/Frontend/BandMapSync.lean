import Log73.Frontend.BandMapSystem

/-!
A client against the history of the band map: messages, snapshots and renderings keep the
spots of a live client those of the number it is at.
-/

namespace Log73.Frontend

open Replica

section Messages

variable {logId : Int} {history : List BandMapEvent}

/-- A message that says what the history says. The number of a lag is only some number. -/
def Trusted (logId : Int) (history : List BandMapEvent) : SequenceMessage → Prop
  | .bandmapSpot sequence spot =>
      .spotUpserted sequence spot ∈ history ∧ spotVisibleForLog spot (some logId) = true
  | .bandmapSpotDeleted sequence id => .spotDeleted sequence id ∈ history
  | .bandmapSequence sequence => sequence ≤ history.length

/-- A message without a spot that comes next stands for a change that is not seen. -/
def TakesHidden (logId : Int) (history : List BandMapEvent) (sequence : Nat)
    (message : SequenceMessage) : Prop :=
  message = .bandmapSequence (sequence + 1) →
    visibleAt (some logId) history (sequence + 1) = visibleAt (some logId) history sequence

/-- The messages that are taken in one after the other, until one is missing. -/
def TakesAllHidden (logId : Int) (history : List BandMapEvent) :
    Nat → List SequenceMessage → Prop
  | _, [] => True
  | sequence, message :: messages =>
      message.sequence ≤ sequence + 1 → TakesHidden logId history sequence message ∧
        TakesAllHidden logId history (max sequence message.sequence) messages

theorem Trusted.mono {message : SequenceMessage} (h : Trusted logId history message)
    (later : List BandMapEvent) : Trusted logId (history ++ later) message := by
  cases message with
  | bandmapSpot sequence spot => exact ⟨List.mem_append_left _ h.1, h.2⟩
  | bandmapSpotDeleted sequence id => exact List.mem_append_left _ h
  | bandmapSequence sequence =>
      show sequence ≤ (history ++ later).length
      rw [List.length_append]
      exact Nat.le_add_right_of_le h

theorem visibleAt_append {count : Nat} (h : count ≤ history.length) (later : List BandMapEvent) :
    visibleAt (some logId) (history ++ later) count = visibleAt (some logId) history count := by
  rw [visibleAt, List.map_append, viewAt_append]
  · rfl
  · rw [List.length_map]
    exact h

theorem visibleAt_succ {sequence : Nat} {event : BandMapEvent}
    (h : history[sequence]? = some event) :
    visibleAt (some logId) history (sequence + 1) =
      (event.changeFor (some logId)).apply (visibleAt (some logId) history sequence) := by
  apply viewAt_succ
  rw [List.getElem?_map, h]
  rfl

/-- An event stands in the history at the number it has. -/
theorem getElem?_of_mem {event : BandMapEvent}
    (hnumbered : ∀ (i : Nat) (event : BandMapEvent), history[i]? = some event →
      event.sequence = i + 1)
    (h : event ∈ history) : history[event.sequence - 1]? = some event := by
  obtain ⟨i, hi⟩ := List.getElem?_of_mem h
  rw [hnumbered i event hi]
  exact hi

variable [Platform] [Collator]

/-- A message that is taken in leaves a client that shows what it showed before, changed as
the history says. -/
theorem shows_applied {store : ClientSpotStore} {sequence : Nat} {message : SequenceMessage}
    (hnumbered : ∀ (i : Nat) (event : BandMapEvent), history[i]? = some event →
      event.sequence = i + 1)
    (hfrequencies : ∀ (sequence : Nat) (spot : BandMapSpot),
      .spotUpserted sequence spot ∈ history → 0 < spot.frequencyHz)
    (hshows : Shows store (visibleAt (some logId) history sequence))
    (hle : sequence ≤ history.length) (htrusted : Trusted logId history message)
    (hnext : message.sequence ≤ sequence + 1)
    (hhidden : TakesHidden logId history sequence message) :
    (applyBandMapSequenceMessage store sequence message).needsRefresh = false
      ∧ (applyBandMapSequenceMessage store sequence message).sequence =
        max sequence message.sequence
      ∧ max sequence message.sequence ≤ history.length
      ∧ Shows (applyBandMapSequenceMessage store sequence message).store
        (visibleAt (some logId) history (max sequence message.sequence)) := by
  unfold applyBandMapSequenceMessage
  dsimp only
  by_cases hold : message.sequence = 0 ∨ message.sequence ≤ sequence
  · have hmax : max sequence message.sequence = sequence := by omega
    rw [if_pos hold, hmax]
    exact ⟨rfl, rfl, hle, hshows⟩
  · have heq : message.sequence = sequence + 1 := by omega
    have hmax : max sequence message.sequence = sequence + 1 := by omega
    rw [if_neg hold, if_neg (not_not.mpr heq), hmax]
    cases message with
    | bandmapSpot number spot =>
        have hnumber : number = sequence + 1 := heq
        subst hnumber
        have hevent := getElem?_of_mem hnumbered htrusted.1
        have hchange := @visibleAt_succ logId history _ _ hevent
        rw [BandMapEvent.changeFor, if_pos htrusted.2] at hchange
        refine ⟨rfl, rfl, (List.getElem?_eq_some_iff.mp hevent).1, ?_⟩
        dsimp only
        have hshown := shows_add hshows (hfrequencies _ spot htrusted.1)
        exact hchange ▸ hshown
    | bandmapSpotDeleted number id =>
        have hnumber : number = sequence + 1 := heq
        subst hnumber
        have hevent := getElem?_of_mem hnumbered htrusted
        have hchange := @visibleAt_succ logId history _ _ hevent
        refine ⟨rfl, rfl, (List.getElem?_eq_some_iff.mp hevent).1, ?_⟩
        have hshown := shows_remove hshows id
        exact hchange ▸ hshown
    | bandmapSequence number =>
        have hnumber : number = sequence + 1 := heq
        subst hnumber
        refine ⟨rfl, rfl, htrusted, ?_⟩
        rw [hhidden rfl]
        exact hshows

/-- A message that is not the next one asks for a snapshot. -/
theorem needsRefresh_of_gap {store : ClientSpotStore} {sequence : Nat} {message : SequenceMessage}
    (h : sequence + 1 < message.sequence) :
    (applyBandMapSequenceMessage store sequence message).needsRefresh = true := by
  unfold applyBandMapSequenceMessage
  dsimp only
  rw [if_neg (by omega), if_pos (by omega)]

/-- The messages that came in before the snapshot. -/
theorem shows_replayed {store : ClientSpotStore} {sequence : Nat} {messages : List SequenceMessage}
    (hnumbered : ∀ (i : Nat) (event : BandMapEvent), history[i]? = some event →
      event.sequence = i + 1)
    (hfrequencies : ∀ (sequence : Nat) (spot : BandMapSpot),
      .spotUpserted sequence spot ∈ history → 0 < spot.frequencyHz)
    (hshows : Shows store (visibleAt (some logId) history sequence))
    (hle : sequence ≤ history.length)
    (htrusted : ∀ message ∈ messages, Trusted logId history message)
    (hhidden : TakesAllHidden logId history sequence messages) {store' : ClientSpotStore}
    {sequence' : Nat} (h : replayMessages store sequence messages = some (store', sequence')) :
    sequence' ≤ history.length ∧ Shows store' (visibleAt (some logId) history sequence') := by
  induction messages generalizing store sequence with
  | nil =>
      cases h
      exact ⟨hle, hshows⟩
  | cons message messages ih =>
      rw [List.forall_mem_cons] at htrusted
      rw [replayMessages] at h
      by_cases hnext : message.sequence ≤ sequence + 1
      · obtain ⟨hmessage, hrest⟩ := hhidden hnext
        obtain ⟨hneeds, hsequence, hbound, hshown⟩ :=
          shows_applied hnumbered hfrequencies hshows hle htrusted.1 hnext hmessage
        rw [hneeds, if_neg Bool.false_ne_true, hsequence] at h
        exact ih hshown hbound htrusted.2 hrest h
      · rw [needsRefresh_of_gap (by omega), if_pos rfl] at h
        cases h

end Messages

section Clients

/-- A snapshot takes the place of the spots; a message comes later. -/
def StoreUpdate.putIn (store : ClientSpotStore) : StoreUpdate → ClientSpotStore
  | .replace replaced => replaced
  | .message _ => store

/-- The spots of a client once the snapshots that wait are in place. -/
def BandMapClient.current (client : BandMapClient) : ClientSpotStore :=
  client.updates.foldl StoreUpdate.putIn client.store

def StoreUpdate.message? : StoreUpdate → Option SequenceMessage
  | .replace _ => none
  | .message sequenced => some sequenced

def BandMapClient.pendingMessages (client : BandMapClient) : List SequenceMessage :=
  client.updates.filterMap StoreUpdate.message?

variable [Platform] {logId : Int} {history : List BandMapEvent}

/-- What a client holds agrees with the history. Snapshots run before the messages that
came in after them. -/
structure ClientOk (logId : Int) (history : List BandMapEvent) (client : BandMapClient) :
    Prop where
  buffered : ∀ message ∈ client.bufferedMessages, Trusted logId history message
  pending : ∀ message, .message message ∈ client.updates → Trusted logId history message
  live : client.status = .live → client.sequence ≤ history.length ∧
    ∃ (replaced : List ClientSpotStore) (messages : List SequenceMessage),
      client.updates = replaced.map .replace ++ messages.map .message ∧
        Shows (replaced.getLast?.getD client.store)
          (visibleAt (some logId) history client.sequence)

theorem ClientOk.mono {client : BandMapClient} (h : ClientOk logId history client)
    (later : List BandMapEvent) : ClientOk logId (history ++ later) client where
  buffered message hmem := (h.buffered message hmem).mono later
  pending message hmem := (h.pending message hmem).mono later
  live hlive := by
    obtain ⟨hle, replaced, messages, hupdates, hshows⟩ := h.live hlive
    rw [List.length_append, visibleAt_append hle]
    exact ⟨Nat.le_add_right_of_le hle, replaced, messages, hupdates, hshows⟩

/-- A client that is not live answers only for its messages. -/
theorem ClientOk.of_not_live {client : BandMapClient}
    (hbuffered : ∀ message ∈ client.bufferedMessages, Trusted logId history message)
    (hpending : ∀ message, .message message ∈ client.updates → Trusted logId history message)
    (hstatus : client.status ≠ .live) : ClientOk logId history client :=
  ⟨hbuffered, hpending, fun hlive => absurd hlive hstatus⟩

theorem ClientOk.finishRefresh {client : BandMapClient} (h : ClientOk logId history client)
    (generation : Nat) : ClientOk logId history (client.finishRefresh generation) := by
  rw [BandMapClient.finishRefresh]
  split
  · exact ⟨h.buffered, h.pending, h.live⟩
  · exact h

theorem ClientOk.refreshBandMapSnapshot {client : BandMapClient}
    (h : ClientOk logId history client) :
    ClientOk logId history client.refreshBandMapSnapshot.1 := by
  rw [BandMapClient.refreshBandMapSnapshot]
  split
  · exact h
  · exact ClientOk.of_not_live h.buffered h.pending SyncStatus.noConfusion

theorem ClientOk.resetBandMapSync {client : BandMapClient} (h : ClientOk logId history client)
    {status : SyncStatus} (hstatus : status ≠ .live) :
    ClientOk logId history (client.resetBandMapSync status) :=
  ClientOk.of_not_live (fun _ hmem => by cases hmem) h.pending hstatus

/-- A client that starts over waits for its subscription. -/
theorem ClientOk.restarted {client : BandMapClient} (h : ClientOk logId history client)
    (store : ClientSpotStore) :
    ClientOk logId history
      ((client.setBandMapSpotStore (.replace store)).resetBandMapSync .awaitingReady) := by
  refine ClientOk.of_not_live (fun _ hmem => by cases hmem) (fun message hmem => ?_)
    SyncStatus.noConfusion
  cases List.mem_append.mp hmem with
  | inl hmem => exact h.pending message hmem
  | inr hmem => cases List.mem_singleton.mp hmem

theorem ClientOk.setEnabled {client : BandMapClient} (h : ClientOk logId history client)
    (enabled : Bool) : ClientOk logId history (client.setEnabled enabled).1 := by
  have hswitched : ClientOk logId history { client with enabled := enabled } :=
    ⟨h.buffered, h.pending, h.live⟩
  rw [BandMapClient.setEnabled]
  dsimp only
  split
  · exact hswitched.restarted {}
  · exact hswitched.resetBandMapSync (by decide)

theorem ClientOk.handleSocketOpenReload {client : BandMapClient}
    (h : ClientOk logId history client) :
    ClientOk logId history client.handleSocketOpenReload.1 := by
  rw [BandMapClient.handleSocketOpenReload]
  split
  · exact h.restarted {}
  · exact h

theorem ClientOk.snapshotFailed {client : BandMapClient} (h : ClientOk logId history client)
    (generation : Nat) : ClientOk logId history (client.snapshotFailed generation) := by
  rw [BandMapClient.snapshotFailed]
  split
  · exact h
  · have hwaiting : ClientOk logId history { client with status := .awaitingReady } :=
      ClientOk.of_not_live h.buffered h.pending SyncStatus.noConfusion
    exact hwaiting.finishRefresh generation

/-- A live client queues a message behind what waits; any other one keeps it. -/
theorem ClientOk.handleSocketMessage {client : BandMapClient} (h : ClientOk logId history client)
    {message : SessionMessage}
    (htrusted : ∀ sequenced, message = .sequenced sequenced → Trusted logId history sequenced) :
    ClientOk logId history (client.handleSocketMessage message).1 := by
  cases message with
  | bandmapSubscriptionReady =>
      rw [BandMapClient.handleSocketMessage]
      split
      · exact h.refreshBandMapSnapshot
      · exact h
  | sequenced message =>
      have hmessage := htrusted message rfl
      rw [BandMapClient.handleSocketMessage]
      split
      · next hstatus =>
          refine ClientOk.of_not_live (fun other hmem => ?_) h.pending hstatus
          cases List.mem_append.mp hmem with
          | inl hmem => exact h.buffered other hmem
          | inr hmem => exact List.mem_singleton.mp hmem ▸ hmessage
      · refine ⟨h.buffered, fun other hmem => ?_, fun hlive => ?_⟩
        · cases List.mem_append.mp hmem with
          | inl hmem => exact h.pending other hmem
          | inr hmem =>
              cases List.mem_singleton.mp hmem
              exact hmessage
        · obtain ⟨hle, replaced, messages, hupdates, hshows⟩ := h.live hlive
          refine ⟨hle, replaced, messages ++ [message], ?_, hshows⟩
          rw [BandMapClient.setBandMapSpotStore, hupdates, List.map_append, List.append_assoc]
          rfl

omit [Platform] in
/-- Without messages there are only snapshots to put in place. -/
theorem exists_replaced {updates : List StoreUpdate}
    (h : updates.filterMap StoreUpdate.message? = []) :
    ∃ replaced : List ClientSpotStore, updates = replaced.map .replace := by
  induction updates with
  | nil => exact ⟨[], rfl⟩
  | cons update updates ih =>
      cases update with
      | replace store =>
          obtain ⟨replaced, hreplaced⟩ := ih h
          exact ⟨store :: replaced, congrArg _ hreplaced⟩
      | message message => cases h

variable [Collator]

/-- A snapshot that is answered rightly, and the messages that came in before it. -/
theorem ClientOk.snapshotLoaded {client : BandMapClient} (h : ClientOk logId history client)
    (hnumbered : ∀ (i : Nat) (event : BandMapEvent), history[i]? = some event →
      event.sequence = i + 1)
    (hfrequencies : ∀ (sequence : Nat) (spot : BandMapSpot),
      .spotUpserted sequence spot ∈ history → 0 < spot.frequencyHz)
    {generation sequence : Nat} {spots : List BandMapSpot} (hle : sequence ≤ history.length)
    (hshows : Shows (createBandMapSpotStore spots) (visibleAt (some logId) history sequence))
    (hkeeps : client.enabled = true → client.generation = generation →
      client.pendingMessages = [] ∧
        TakesAllHidden logId history sequence client.bufferedMessages) :
    ClientOk logId history (client.snapshotLoaded generation sequence spots).1 := by
  rw [BandMapClient.snapshotLoaded]
  split
  · exact h.finishRefresh generation
  · next happlies =>
      have henabled : client.enabled = true := by
        cases hcase : client.enabled <;> simp_all
      have hgeneration : client.generation = generation := by
        by_contra hne
        simp_all
      obtain ⟨hpending, hhidden⟩ := hkeeps henabled hgeneration
      have hemptied : ∀ message ∈ ([] : List SequenceMessage), Trusted logId history message :=
        fun _ hmem => by cases hmem
      dsimp only
      cases hreplay : replayMessages (createBandMapSpotStore spots) sequence
          client.bufferedMessages with
      | none =>
          dsimp only
          apply ClientOk.finishRefresh
          rw [BandMapClient.refreshBandMapSnapshot]
          split
          · next hoff =>
              rw [henabled] at hoff
              cases hoff
          · exact ClientOk.of_not_live hemptied h.pending SyncStatus.noConfusion
      | some replayed =>
          obtain ⟨store, replayedSequence⟩ := replayed
          obtain ⟨hbound, hshown⟩ :=
            shows_replayed hnumbered hfrequencies hshows hle h.buffered hhidden hreplay
          obtain ⟨replaced, hreplaced⟩ := exists_replaced hpending
          dsimp only
          apply ClientOk.finishRefresh
          refine ⟨hemptied, fun message hmem => ?_, fun _ =>
            ⟨hbound, replaced ++ [store], [], ?_, ?_⟩⟩
          · cases List.mem_append.mp hmem with
            | inl hmem => exact h.pending message hmem
            | inr hmem => cases List.mem_singleton.mp hmem
          · rw [BandMapClient.setBandMapSpotStore, hreplaced, List.map_append, List.append_assoc]
            rfl
          · rw [List.getLast?_concat]
            exact hshown

end Clients

section Rendering

variable [Platform] [Collator] {logId : Int} {history : List BandMapEvent}

omit [Platform] [Collator] in
theorem foldl_recordEvents_fst {σ ε α : Type} (operation : α → σ → σ × List ε) (entries : List α)
    (state : σ × List ε) :
    (entries.foldl (fun state entry => recordEvents state (operation entry)) state).1 =
      entries.foldl (fun state entry => (operation entry state).1) state.1 := by
  induction entries generalizing state with
  | nil => rfl
  | cons entry entries ih => exact ih _

/-- Rendering runs the updates one after the other. -/
theorem render_fst (client : BandMapClient) :
    client.render.1 = client.updates.foldl (fun client update => (client.runUpdate update).1)
      { client with updates := [] } :=
  foldl_recordEvents_fst (fun update client => BandMapClient.runUpdate client update) _ _

/-- Of the snapshots the last one stays. -/
theorem foldl_replaced (replaced : List ClientSpotStore) (client : BandMapClient) :
    (replaced.map StoreUpdate.replace).foldl (fun client update => (client.runUpdate update).1)
      client = { client with store := replaced.getLast?.getD client.store } := by
  induction replaced generalizing client with
  | nil => rfl
  | cons store replaced ih =>
      rw [List.map_cons, List.foldl_cons, ih, List.getLast?_cons]
      rfl

/-- A client that asked for a snapshot stays so while the rest of its updates run. -/
theorem foldl_not_live {updates : List StoreUpdate} {client : BandMapClient}
    (hstatus : client.status ≠ .live) (hupdates : client.updates = [])
    (hbuffered : ∀ message ∈ client.bufferedMessages, Trusted logId history message) :
    ClientOk logId history
      (updates.foldl (fun client update => (client.runUpdate update).1) client) := by
  induction updates generalizing client with
  | nil =>
      refine ClientOk.of_not_live hbuffered (fun message hmem => ?_) hstatus
      rw [List.foldl_nil, hupdates] at hmem
      cases hmem
  | cons update updates ih =>
      rw [List.foldl_cons]
      cases update with
      | replace store => exact ih hstatus hupdates hbuffered
      | message message =>
          rw [BandMapClient.runUpdate]
          split
          · rw [BandMapClient.refreshBandMapSnapshot]
            split
            · exact ih SyncStatus.noConfusion hupdates fun _ hmem => by cases hmem
            · exact ih SyncStatus.noConfusion hupdates fun _ hmem => by cases hmem
          · exact ih hstatus hupdates hbuffered

/-- The messages of a live client run, until one is missing. -/
theorem foldl_messages {messages : List SequenceMessage} {client : BandMapClient}
    (hnumbered : ∀ (i : Nat) (event : BandMapEvent), history[i]? = some event →
      event.sequence = i + 1)
    (hfrequencies : ∀ (sequence : Nat) (spot : BandMapSpot),
      .spotUpserted sequence spot ∈ history → 0 < spot.frequencyHz)
    (hupdates : client.updates = [])
    (hbuffered : ∀ message ∈ client.bufferedMessages, Trusted logId history message)
    (hle : client.sequence ≤ history.length)
    (hshows : Shows client.store (visibleAt (some logId) history client.sequence))
    (htrusted : ∀ message ∈ messages, Trusted logId history message)
    (hhidden : TakesAllHidden logId history client.sequence messages) :
    ClientOk logId history ((messages.map StoreUpdate.message).foldl
      (fun client update => (client.runUpdate update).1) client) := by
  induction messages generalizing client with
  | nil =>
      refine ⟨hbuffered, fun message hmem => ?_, fun _ => ⟨hle, [], [], hupdates, hshows⟩⟩
      rw [List.map_nil, List.foldl_nil, hupdates] at hmem
      cases hmem
  | cons message messages ih =>
      rw [List.forall_mem_cons] at htrusted
      rw [List.map_cons, List.foldl_cons, BandMapClient.runUpdate]
      by_cases hnext : message.sequence ≤ client.sequence + 1
      · obtain ⟨hmessage, hrest⟩ := hhidden hnext
        obtain ⟨hneeds, hsequence, hbound, hshown⟩ :=
          shows_applied hnumbered hfrequencies hshows hle htrusted.1 hnext hmessage
        rw [hneeds, if_neg Bool.false_ne_true, hsequence]
        exact ih hupdates hbuffered hbound hshown htrusted.2 hrest
      · rw [needsRefresh_of_gap (by omega), if_pos rfl, BandMapClient.refreshBandMapSnapshot]
        split
        · exact foldl_not_live SyncStatus.noConfusion hupdates fun _ hmem => by cases hmem
        · exact foldl_not_live SyncStatus.noConfusion hupdates fun _ hmem => by cases hmem

theorem ClientOk.render {client : BandMapClient} (h : ClientOk logId history client)
    (hnumbered : ∀ (i : Nat) (event : BandMapEvent), history[i]? = some event →
      event.sequence = i + 1)
    (hfrequencies : ∀ (sequence : Nat) (spot : BandMapSpot),
      .spotUpserted sequence spot ∈ history → 0 < spot.frequencyHz)
    (hkeeps : client.status = .live →
      TakesAllHidden logId history client.sequence client.pendingMessages) :
    ClientOk logId history client.render.1 := by
  rw [render_fst]
  by_cases hlive : client.status = .live
  · obtain ⟨hle, replaced, messages, hupdates, hshows⟩ := h.live hlive
    have hpending : client.pendingMessages = messages := by
      rw [BandMapClient.pendingMessages, hupdates, List.filterMap_append, List.filterMap_map,
        List.filterMap_map]
      have hnone : replaced.filterMap (StoreUpdate.message? ∘ StoreUpdate.replace) = [] :=
        List.filterMap_eq_nil_iff.mpr fun _ _ => rfl
      have hsome : messages.filterMap (StoreUpdate.message? ∘ StoreUpdate.message) = messages :=
        List.filterMap_some
      rw [hnone, hsome, List.nil_append]
    have hhidden := hkeeps hlive
    rw [hpending] at hhidden
    rw [hupdates, List.foldl_append, foldl_replaced]
    refine foldl_messages hnumbered hfrequencies rfl h.buffered hle hshows (fun message hmem => ?_)
      hhidden
    apply h.pending message
    rw [hupdates]
    exact List.mem_append_right _ (List.mem_map_of_mem hmem)
  · exact foldl_not_live hlive rfl h.buffered

end Rendering

end Log73.Frontend
