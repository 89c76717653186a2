import Mathlib.Data.List.Perm.Lattice
import Log73.Frontend.MessageSending

/-!
What the function keys do over whole runs: the keys that are shown are those of the requests
under way, each of which is cleared by a timeout of its own if the radio does not report it; a
CQ is repeated only after the one before it was reported, so that no two of them wait at the
radio; and once the repetition was stopped, nothing is sent until a key is pressed again.
-/

namespace Log73.Frontend.MessageSending

open RadioIo (runMessageMode)

variable {sending : MessageSending}

section Booked

/-- The timeouts the browser is to run: one for each request under way, and that of the
repetition. -/
def expectedTimers (sending : MessageSending) : List (Nat × MessageTimer) :=
  (sending.activeMessageTimeouts.map fun entry => (entry.2, .clearMessageRequest entry.1))
    ++ sending.repeatTimeout.toList.map fun timer => (timer, .repeatRunF1)

/-- The requests under way, the keys shown for them and their timeouts fit each other. -/
structure Booked (sending : MessageSending) : Prop where
  shown : sending.activeMessageKeys = activeMessageKeysFromRequests sending.activeMessageRequests
  timed : sending.activeMessageTimeouts.map Prod.fst = sending.activeMessageRequests.map Prod.fst
  requests : (sending.activeMessageRequests.map Prod.fst).Nodup
  timers : sending.timers.Perm sending.expectedTimers
  distinct : (sending.timers.map Prod.fst).Nodup
  requestFresh : ∀ requestId ∈ sending.activeMessageRequests.map Prod.fst,
    requestId < sending.nextRequest
  timerFresh : ∀ timer ∈ sending.timers.map Prod.fst, timer < sending.nextTimer

theorem Booked.distinct_expected (h : sending.Booked) :
    (sending.expectedTimers.map Prod.fst).Nodup :=
  (h.timers.map Prod.fst).nodup_iff.mp h.distinct

theorem map_fst_expectedTimers (sending : MessageSending) :
    sending.expectedTimers.map Prod.fst =
      sending.activeMessageTimeouts.map Prod.snd ++ sending.repeatTimeout.toList := by
  rw [expectedTimers, List.map_append, List.map_map, List.map_map]
  exact congrArg₂ _ rfl (List.map_id _)

theorem Booked.distinct_timeouts (h : sending.Booked) :
    (sending.activeMessageTimeouts.map Prod.snd).Nodup := by
  have hdistinct := h.distinct_expected
  rw [map_fst_expectedTimers] at hdistinct
  exact (List.nodup_append.mp hdistinct).1

/-- The timeout of the repetition is none of those of the requests. -/
theorem Booked.repeatTimeout_ne (h : sending.Booked) {timer : Nat}
    (htimer : sending.repeatTimeout = some timer) {entry : Nat × Nat}
    (hentry : entry ∈ sending.activeMessageTimeouts) : entry.2 ≠ timer := by
  have hdistinct := h.distinct_expected
  rw [map_fst_expectedTimers, htimer] at hdistinct
  exact (List.nodup_append.mp hdistinct).2.2 entry.2 (List.mem_map_of_mem hentry) timer
    (List.mem_singleton_self timer)

theorem Booked.record (h : sending.Booked) (event : SendingEvent) : (sending.record event).Booked :=
  ⟨h.shown, h.timed, h.requests, h.timers, h.distinct, h.requestFresh, h.timerFresh⟩

theorem Booked.takeReport (h : sending.Booked) (requestId : Nat) :
    (sending.takeReport requestId).Booked :=
  ⟨h.shown, h.timed, h.requests, h.timers, h.distinct, h.requestFresh, h.timerFresh⟩

/-- Which request the repetition waits for does not count. -/
theorem Booked.repeating (h : sending.Booked) (repeatActive : Bool) (repeatRequestId : Option Nat)
    (loop : List Nat) :
    { sending with
      repeatActive := repeatActive
      repeatRequestId := repeatRequestId
      loop := loop }.Booked :=
  ⟨h.shown, h.timed, h.requests, h.timers, h.distinct, h.requestFresh, h.timerFresh⟩

/-- Without the timeout of the repetition, those of the requests are left. -/
theorem filter_expectedTimers (h : sending.Booked) {timer : Nat}
    (htimer : sending.repeatTimeout = some timer) :
    sending.expectedTimers.filter (·.1 ≠ timer) =
      sending.activeMessageTimeouts.map fun entry => (entry.2, .clearMessageRequest entry.1) := by
  rw [expectedTimers, htimer, List.filter_append, List.filter_map, List.filter_eq_self.mpr]
  · simp
  · intro entry hentry
    exact decide_eq_true (h.repeatTimeout_ne htimer hentry)

theorem Booked.withoutRepeat (h : sending.Booked) {timer : Nat}
    (htimer : sending.repeatTimeout = some timer) :
    { sending.clearTimeout timer with repeatTimeout := none }.Booked where
  shown := h.shown
  timed := h.timed
  requests := h.requests
  timers := by
    have hperm := h.timers.filter (fun timer' => decide (timer'.1 ≠ timer))
    rw [filter_expectedTimers h htimer] at hperm
    rw [expectedTimers, Option.toList_none, List.map_nil, List.append_nil]
    exact hperm
  distinct := h.distinct.sublist (List.filter_sublist.map Prod.fst)
  requestFresh := h.requestFresh
  timerFresh := fun timer' htimer' =>
    h.timerFresh timer' ((List.filter_sublist.map Prod.fst).subset htimer')

theorem Booked.stopRepeat (h : sending.Booked) : sending.stopRepeat.Booked := by
  cases htimer : sending.repeatTimeout with
  | none =>
      have hsame : sending.stopRepeat =
          { sending with repeatActive := false, repeatRequestId := none, loop := [] } := by
        simp only [MessageSending.stopRepeat, htimer, Option.elim_none]
      rw [hsame]
      exact h.repeating false none []
  | some timer =>
      have hcleared := h.withoutRepeat htimer
      have hsame : sending.stopRepeat =
          { sending.clearTimeout timer with
            repeatActive := false, repeatRequestId := none, repeatTimeout := none
            loop := [] } := by
        rw [MessageSending.stopRepeat, htimer]
        rfl
      rw [hsame]
      exact hcleared.repeating false none []

/-- A request under way has its timeout. -/
theorem Booked.lookup_timeout (h : sending.Booked) {requestId : Nat}
    (hactive : requestId ∈ sending.activeMessageRequests.map Prod.fst) :
    ∃ timer, sending.activeMessageTimeouts.lookup requestId = some timer
      ∧ (requestId, timer) ∈ sending.activeMessageTimeouts := by
  rw [← h.timed] at hactive
  obtain ⟨entry, hentry, rfl⟩ := List.mem_map.mp hactive
  cases hlookup : sending.activeMessageTimeouts.lookup entry.1 with
  | none =>
      have hne := List.lookup_eq_none_iff.mp hlookup entry hentry
      rw [bne_self_eq_false] at hne
      cases hne
  | some timer =>
      obtain ⟨front, back, hlist, _⟩ := List.lookup_eq_some_iff.mp hlookup
      exact ⟨timer, rfl, hlist ▸ List.mem_append_right front List.mem_cons_self⟩

theorem isNone_lookup {β : Type} {entries : List (Nat × β)} {key : Nat} :
    (entries.lookup key).isNone = true ↔ key ∉ entries.map Prod.fst := by
  rw [Option.isNone_iff_eq_none, List.lookup_eq_none_iff]
  constructor
  · intro h hmem
    obtain ⟨entry, hentry, rfl⟩ := List.mem_map.mp hmem
    have hne := h entry hentry
    rw [bne_self_eq_false] at hne
    cases hne
  · intro h entry hentry
    rw [bne_iff_ne]
    intro heq
    exact h (heq ▸ List.mem_map_of_mem hentry)

/-- Without the timeout of a request, those of the others and of the repetition are left. -/
theorem Booked.filter_expectedTimers_request (h : sending.Booked) {requestId timer : Nat}
    (hmem : (requestId, timer) ∈ sending.activeMessageTimeouts) :
    sending.expectedTimers.filter (·.1 ≠ timer) =
      { sending with
        activeMessageTimeouts := sending.activeMessageTimeouts.filter (·.1 ≠ requestId)
      }.expectedTimers := by
  have hfilter : sending.activeMessageTimeouts.filter (·.2 ≠ timer) =
      sending.activeMessageTimeouts.filter (·.1 ≠ requestId) := by
    apply List.filter_congr
    intro entry hentry
    rw [decide_eq_decide]
    refine not_congr ⟨fun heq => ?_, fun heq => ?_⟩
    · exact congrArg Prod.fst (List.inj_on_of_nodup_map h.distinct_timeouts hentry hmem heq)
    · exact congrArg Prod.snd
        (List.inj_on_of_nodup_map (h.timed ▸ h.requests) hentry hmem heq)
  have hrepeat : ∀ entry ∈ sending.repeatTimeout.toList.map fun timer =>
      (timer, MessageTimer.repeatRunF1),
      decide (entry.1 ≠ timer) = true := by
    intro entry hentry
    obtain ⟨other, hother, rfl⟩ := List.mem_map.mp hentry
    exact decide_eq_true fun heq => h.repeatTimeout_ne (Option.mem_toList.mp hother) hmem heq.symm
  rw [expectedTimers, expectedTimers, List.filter_append, List.filter_eq_self.mpr hrepeat,
    List.filter_map]
  exact congrArg (fun timeouts : List (Nat × Nat) => timeouts.map _ ++ _) hfilter

/-- Clearing a request drops its timeout and no other. -/
theorem Booked.clearMessageRequest (h : sending.Booked) (requestId : Nat) :
    (sending.clearMessageRequest requestId).Booked := by
  rw [MessageSending.clearMessageRequest]
  by_cases hnone : (sending.activeMessageRequests.lookup requestId).isNone = true
  · rw [if_pos hnone]
    exact h
  · rw [if_neg hnone]
    obtain ⟨timer, hlookup, hmem⟩ :=
      h.lookup_timeout (not_not.mp fun hout => hnone (isNone_lookup.mpr hout))
    rw [hlookup, Option.elim_some]
    have htimers : (sending.timers.filter (·.1 ≠ timer)).Sublist sending.timers :=
      List.filter_sublist
    refine ⟨rfl, ?_, ?_, ?_, ?_, ?_, ?_⟩
    · have hkeys {β : Type} (entries : List (Nat × β)) :
          (entries.filter (·.1 ≠ requestId)).map Prod.fst =
            (entries.map Prod.fst).filter (· ≠ requestId) := by
        rw [List.filter_map]
        rfl
      exact (hkeys _).trans ((congrArg (List.filter _) h.timed).trans (hkeys _).symm)
    · exact h.requests.sublist (List.filter_sublist.map Prod.fst)
    · exact h.filter_expectedTimers_request hmem ▸ h.timers.filter _
    · exact h.distinct.sublist (htimers.map Prod.fst)
    · intro other hother
      exact h.requestFresh other ((List.filter_sublist.map Prod.fst).subset hother)
    · intro other hother
      exact h.timerFresh other ((htimers.map Prod.fst).subset hother)

/-- Clearing a request whose timeout elapsed is clearing it. -/
theorem Booked.clearMessageRequest_elapsed (h : sending.Booked) {requestId timer : Nat}
    (hmem : (requestId, timer) ∈ sending.activeMessageTimeouts) :
    { sending with
      timers := sending.timers.filter (·.1 ≠ timer) }.clearMessageRequest requestId =
        sending.clearMessageRequest requestId := by
  have hactive : requestId ∈ sending.activeMessageRequests.map Prod.fst :=
    h.timed ▸ List.mem_map_of_mem hmem
  obtain ⟨other, hlookup, hother⟩ := h.lookup_timeout hactive
  have hsame : other = timer := congrArg Prod.snd
    (List.inj_on_of_nodup_map (h.timed ▸ h.requests) hother hmem rfl)
  subst hsame
  have hsome : ¬(sending.activeMessageRequests.lookup requestId).isNone = true :=
    fun hnone => isNone_lookup.mp hnone hactive
  simp only [MessageSending.clearMessageRequest, if_neg hsome, hlookup, Option.elim_some,
    clearTimeout, List.filter_filter, Bool.and_self]

theorem Booked.clearAllMessageRequests (h : sending.Booked) :
    sending.clearAllMessageRequests.Booked := by
  have htimers : sending.clearAllMessageRequests.timers.Sublist sending.timers :=
    List.filter_sublist
  refine ⟨rfl, rfl, List.nodup_nil, ?_, h.distinct.sublist (htimers.map Prod.fst),
    fun _ hmem => (List.not_mem_nil hmem).elim,
    fun other hother => h.timerFresh other ((htimers.map Prod.fst).subset hother)⟩
  have hperm := h.timers.filter fun timer =>
    !(sending.activeMessageTimeouts.map Prod.snd).contains timer.1
  have hleft : sending.expectedTimers.filter
      (fun timer => !(sending.activeMessageTimeouts.map Prod.snd).contains timer.1) =
        sending.clearAllMessageRequests.expectedTimers := by
    rw [expectedTimers, List.filter_append, List.filter_eq_nil_iff.mpr, List.filter_eq_self.mpr]
    · rfl
    · intro entry hentry
      obtain ⟨timer, htimer, rfl⟩ := List.mem_map.mp hentry
      rw [Bool.not_eq_true', ← Bool.not_eq_true, List.contains_iff_mem]
      intro hmem
      obtain ⟨other, hother, heq⟩ := List.mem_map.mp hmem
      exact h.repeatTimeout_ne (Option.mem_toList.mp htimer) hother heq
    · intro entry hentry
      obtain ⟨timeout, htimeout, rfl⟩ := List.mem_map.mp hentry
      rw [Bool.not_eq_true', Bool.not_eq_false, List.contains_iff_mem]
      exact List.mem_map_of_mem htimeout
  rw [hleft] at hperm
  exact hperm

/-- A timeout of its own is set for a request that is not under way yet. -/
theorem Booked.sendBatch (h : sending.Booked) (batch : MessageBatch) :
    (sending.sendBatch batch).Booked := by
  refine ⟨rfl, ?_, ?_, ?_, ?_, ?_, ?_⟩
  · show (sending.activeMessageTimeouts ++ [_]).map Prod.fst =
      (sending.activeMessageRequests ++ [_]).map Prod.fst
    rw [List.map_append, List.map_append, h.timed]
    rfl
  · show ((sending.activeMessageRequests ++ [_]).map Prod.fst).Nodup
    rw [List.map_append, List.map_singleton, List.nodup_append]
    refine ⟨h.requests, List.nodup_singleton _, fun other hother fresh hfresh => ?_⟩
    rw [List.mem_singleton.mp hfresh]
    exact Nat.ne_of_lt (h.requestFresh other hother)
  · show (sending.timers ++ [_]).Perm
      ((sending.activeMessageTimeouts ++ [_]).map _ ++ sending.repeatTimeout.toList.map _)
    rw [List.map_append, List.append_assoc]
    refine (h.timers.append_right _).trans ?_
    rw [expectedTimers, List.append_assoc]
    exact List.perm_append_comm.append_left _
  · show ((sending.timers ++ [_]).map Prod.fst).Nodup
    rw [List.map_append, List.map_singleton, List.nodup_append]
    refine ⟨h.distinct, List.nodup_singleton _, fun other hother fresh hfresh => ?_⟩
    rw [List.mem_singleton.mp hfresh]
    exact Nat.ne_of_lt (h.timerFresh other hother)
  · show ∀ requestId ∈ (sending.activeMessageRequests
      ++ [(sending.nextRequest, batch.keys)]).map Prod.fst, requestId < sending.nextRequest + 1
    rw [List.map_append, List.forall_mem_append]
    refine ⟨fun other hother => Nat.lt_succ_of_lt (h.requestFresh other hother), ?_⟩
    intro other hother
    rw [List.mem_singleton.mp hother]
    exact Nat.lt_succ_self _
  · show ∀ timer ∈ (sending.timers
      ++ [(sending.nextTimer, MessageTimer.clearMessageRequest sending.nextRequest)]).map Prod.fst,
        timer < sending.nextTimer + 1
    rw [List.map_append, List.forall_mem_append]
    refine ⟨fun other hother => Nat.lt_succ_of_lt (h.timerFresh other hother), ?_⟩
    intro other hother
    rw [List.mem_singleton.mp hother]
    exact Nat.lt_succ_self _

/-- The next CQ is put off where none is waited for. -/
theorem Booked.setRepeat (h : sending.Booked) (hnone : sending.repeatTimeout = none) :
    { sending with
      repeatTimeout := some sending.nextTimer
      timers := sending.timers ++ [(sending.nextTimer, MessageTimer.repeatRunF1)]
      nextTimer := sending.nextTimer + 1 }.Booked := by
  refine ⟨h.shown, h.timed, h.requests, ?_, ?_, h.requestFresh, ?_⟩
  · have htimers := h.timers
    rw [expectedTimers, hnone, Option.toList_none, List.map_nil, List.append_nil] at htimers
    exact htimers.append_right _
  · rw [List.map_append, List.map_singleton, List.nodup_append]
    refine ⟨h.distinct, List.nodup_singleton _, fun other hother fresh hfresh => ?_⟩
    rw [List.mem_singleton.mp hfresh]
    exact Nat.ne_of_lt (h.timerFresh other hother)
  · rw [List.map_append, List.forall_mem_append]
    refine ⟨fun other hother => Nat.lt_succ_of_lt (h.timerFresh other hother), ?_⟩
    intro other hother
    rw [List.mem_singleton.mp hother]
    exact Nat.lt_succ_self _

theorem Booked.mem_expectedTimers (h : sending.Booked) {timer : Nat} {what : MessageTimer}
    (hlookup : sending.timers.lookup timer = some what) :
    (timer, what) ∈ sending.expectedTimers := by
  obtain ⟨front, back, hlist, _⟩ := List.lookup_eq_some_iff.mp hlookup
  exact h.timers.mem_iff.mp (hlist ▸ List.mem_append_right front List.mem_cons_self)

end Booked

section Frames

/-- What is left as it is while keys are pressed: the repetition, and what was handed over. The
requests are new ones, under way and unanswered. -/
structure Sends (before after : MessageSending) (requestIds : List Nat) : Prop where
  booked : before.Booked → after.Booked
  repeatActive : after.repeatActive = before.repeatActive
  repeatRequestId : after.repeatRequestId = before.repeatRequestId
  repeatTimeout : after.repeatTimeout = before.repeatTimeout
  loop : after.loop = before.loop
  mounted : after.mounted = before.mounted
  unanswered : after.unanswered = before.unanswered ++ requestIds
  grows : before.nextRequest ≤ after.nextRequest
  fresh : ∀ requestId ∈ requestIds,
    before.nextRequest ≤ requestId ∧ requestId < after.nextRequest

theorem Sends.refl (sending : MessageSending) : Sends sending sending [] :=
  ⟨id, rfl, rfl, rfl, rfl, rfl, (List.append_nil _).symm, Nat.le_refl _,
    fun _ hmem => (List.not_mem_nil hmem).elim⟩

theorem Sends.trans {first second third : MessageSending} {earlier later : List Nat}
    (h : Sends first second earlier) (h' : Sends second third later) :
    Sends first third (earlier ++ later) where
  booked hbooked := h'.booked (h.booked hbooked)
  repeatActive := h'.repeatActive.trans h.repeatActive
  repeatRequestId := h'.repeatRequestId.trans h.repeatRequestId
  repeatTimeout := h'.repeatTimeout.trans h.repeatTimeout
  loop := h'.loop.trans h.loop
  mounted := h'.mounted.trans h.mounted
  unanswered := by rw [h'.unanswered, h.unanswered, List.append_assoc]
  grows := Nat.le_trans h.grows h'.grows
  fresh := by
    rw [List.forall_mem_append]
    refine ⟨fun requestId hmem => ?_, fun requestId hmem => ?_⟩
    · exact ⟨(h.fresh requestId hmem).1, Nat.lt_of_lt_of_le (h.fresh requestId hmem).2 h'.grows⟩
    · exact ⟨Nat.le_trans h.grows (h'.fresh requestId hmem).1, (h'.fresh requestId hmem).2⟩

theorem sends_record (sending : MessageSending) (event : SendingEvent) :
    Sends sending (sending.record event) [] :=
  ⟨fun h => h.record event, rfl, rfl, rfl, rfl, rfl, (List.append_nil _).symm, Nat.le_refl _,
    fun _ hmem => (List.not_mem_nil hmem).elim⟩

theorem sends_sendBatch (sending : MessageSending) (batch : MessageBatch) :
    Sends sending (sending.sendBatch batch) [sending.nextRequest] where
  booked h := h.sendBatch batch
  repeatActive := rfl
  repeatRequestId := rfl
  repeatTimeout := rfl
  loop := rfl
  mounted := rfl
  unanswered := rfl
  grows := Nat.le_succ _
  fresh := by
    intro requestId hmem
    rw [List.mem_singleton.mp hmem]
    exact ⟨Nat.le_refl _, Nat.lt_succ_self _⟩

theorem sends_sendBatches (batches : List MessageBatch) (sending : MessageSending) :
    Sends sending (sendBatches batches sending).1 (sendBatches batches sending).2 := by
  induction batches generalizing sending with
  | nil => exact Sends.refl sending
  | cons batch batches ih => exact (sends_sendBatch sending batch).trans (ih _)

variable [Platform]

theorem sends_prepareKey (sending : MessageSending) (mode : String) (values : MessageFields)
    (key : String) : Sends sending (sending.prepareKey mode values key).1 [] := by
  simp only [prepareKey]
  split
  · exact sends_record sending _
  · split
    · exact Sends.refl sending
    · split
      · exact Sends.refl sending
      · split
        · exact Sends.refl sending
        · split
          · exact sends_record sending _
          · exact Sends.refl sending

theorem sends_prepareKeys (mode : String) (values : MessageFields) (keys : List String)
    (sending : MessageSending) : Sends sending (prepareKeys mode values keys sending).1 [] := by
  induction keys generalizing sending with
  | nil => exact Sends.refl sending
  | cons key keys ih =>
      rw [prepareKeys]
      exact (sends_prepareKey sending mode values key).trans
        (ih (sending.prepareKey mode values key).1)

theorem sends_sendMessageKeys (sending : MessageSending) (keys : List String) (mode : String)
    (values : MessageFields) :
    Sends sending (sending.sendMessageKeys keys mode values).1
      (sending.sendMessageKeys keys mode values).2 := by
  have hprepared := sends_prepareKeys mode values keys sending
  simp only [sendMessageKeys]
  split
  · exact hprepared
  · exact hprepared.trans (sends_sendBatches _ _)

omit [Platform] in
theorem clearMessageRequest_eq (sending : MessageSending) (requestId : Nat) :
    sending.clearMessageRequest requestId =
      { sending with
        activeMessageRequests := (sending.clearMessageRequest requestId).activeMessageRequests
        activeMessageTimeouts := (sending.clearMessageRequest requestId).activeMessageTimeouts
        activeMessageKeys := (sending.clearMessageRequest requestId).activeMessageKeys
        timers := (sending.clearMessageRequest requestId).timers } := by
  rw [clearMessageRequest]
  split
  · rfl
  · cases sending.activeMessageTimeouts.lookup requestId with
    | none => rfl
    | some timer => rfl

omit [Platform] in
theorem stopRepeat_eq (sending : MessageSending) :
    sending.stopRepeat =
      { sending with
        repeatActive := false
        repeatRequestId := none
        repeatTimeout := none
        loop := []
        timers := sending.stopRepeat.timers } := by
  rw [stopRepeat]
  cases sending.repeatTimeout with
  | none => rfl
  | some timer => rfl

end Frames

section Looped

/-- Of the requests of a repetition, the last one only can be unanswered; while the next one is
put off, none is. -/
structure Looped (sending : MessageSending) : Prop where
  current : ∀ requestId, sending.repeatRequestId = some requestId → requestId ∈ sending.loop
  single : ∀ requestId ∈ sending.loop, requestId ∈ sending.unanswered →
    sending.repeatRequestId = some requestId
  waits : sending.repeatTimeout.isSome = true → ∀ requestId ∈ sending.loop,
    requestId ∉ sending.unanswered
  loopFresh : ∀ requestId ∈ sending.loop, requestId < sending.nextRequest
  unansweredFresh : ∀ requestId ∈ sending.unanswered, requestId < sending.nextRequest

theorem Looped.stopRepeat (h : sending.Looped) : sending.stopRepeat.Looped := by
  rw [stopRepeat_eq]
  exact ⟨fun _ heq => (by cases heq),
    fun _ hmem => (List.not_mem_nil hmem).elim, fun hsome => Bool.noConfusion hsome,
    fun _ hmem => (List.not_mem_nil hmem).elim, h.unansweredFresh⟩

theorem Looped.clearMessageRequest (h : sending.Looped) (requestId : Nat) :
    (sending.clearMessageRequest requestId).Looped := by
  rw [clearMessageRequest_eq]
  exact ⟨h.current, h.single, h.waits, h.loopFresh, h.unansweredFresh⟩

theorem Looped.takeReport (h : sending.Looped) (requestId : Nat) :
    (sending.takeReport requestId).Looped where
  current := h.current
  single other hother hmem := h.single other hother (List.mem_filter.mp hmem).1
  waits hsome other hother hmem := h.waits hsome other hother (List.mem_filter.mp hmem).1
  loopFresh := h.loopFresh
  unansweredFresh other hmem := h.unansweredFresh other (List.mem_filter.mp hmem).1

/-- New requests leave the repetition as it is. -/
theorem Looped.sends (h : sending.Looped) {after : MessageSending} {requestIds : List Nat}
    (hsends : Sends sending after requestIds) : after.Looped := by
  have hold {requestId : Nat} (hmem : requestId ∈ sending.loop)
      (hunanswered : requestId ∈ after.unanswered) : requestId ∈ sending.unanswered := by
    rw [hsends.unanswered, List.mem_append] at hunanswered
    refine hunanswered.resolve_right fun hnew => ?_
    exact Nat.not_lt.mpr (hsends.fresh requestId hnew).1 (h.loopFresh requestId hmem)
  refine ⟨?_, ?_, ?_, ?_, ?_⟩
  · rw [hsends.repeatRequestId, hsends.loop]
    exact h.current
  · rw [hsends.repeatRequestId, hsends.loop]
    exact fun requestId hmem hunanswered => h.single requestId hmem (hold hmem hunanswered)
  · rw [hsends.repeatTimeout, hsends.loop]
    exact fun hsome requestId hmem hunanswered =>
      h.waits hsome requestId hmem (hold hmem hunanswered)
  · rw [hsends.loop]
    exact fun requestId hmem => Nat.lt_of_lt_of_le (h.loopFresh requestId hmem) hsends.grows
  · rw [hsends.unanswered, List.forall_mem_append]
    exact ⟨fun requestId hmem =>
      Nat.lt_of_lt_of_le (h.unansweredFresh requestId hmem) hsends.grows,
      fun requestId hmem => (hsends.fresh requestId hmem).2⟩

/-- A repetition that starts waits for the request it starts with. -/
theorem Looped.start (h : sending.Looped) {requestId : Nat} (hnew : requestId < sending.nextRequest)
    (hnone : sending.repeatTimeout = none) :
    { sending with
      repeatActive := true
      repeatRequestId := some requestId
      loop := [requestId] }.Looped where
  current _ heq := Option.some.inj heq ▸ List.mem_singleton_self requestId
  single _ hmem _ := congrArg some (List.mem_singleton.mp hmem).symm
  waits hsome := by
    rw [hnone] at hsome
    cases hsome
  loopFresh _ hmem := List.mem_singleton.mp hmem ▸ hnew
  unansweredFresh := h.unansweredFresh

end Looped

/-- What every step of the hook keeps. -/
structure Sound (sending : MessageSending) : Prop where
  booked : sending.Booked
  looped : sending.Looped
  unmounted : sending.mounted = false → sending.timers = [] ∧ sending.activeMessageKeys = []

section Steps

theorem Sound.of_mounted (hbooked : sending.Booked) (hlooped : sending.Looped)
    (hmounted : sending.mounted = true) : sending.Sound where
  booked := hbooked
  looped := hlooped
  unmounted hfalse := by
    rw [hmounted] at hfalse
    cases hfalse

theorem Sound.unmount (h : sending.Sound) : sending.unmount.Sound := by
  have hbooked := h.booked.stopRepeat.clearAllMessageRequests
  have hnone : sending.stopRepeat.clearAllMessageRequests.repeatTimeout = none := by
    rw [stopRepeat_eq]
    rfl
  have hlooped := h.looped.stopRepeat
  refine ⟨⟨hbooked.shown, hbooked.timed, hbooked.requests, hbooked.timers, hbooked.distinct,
    hbooked.requestFresh, hbooked.timerFresh⟩, ⟨hlooped.current, hlooped.single, hlooped.waits,
    hlooped.loopFresh, hlooped.unansweredFresh⟩, fun _ => ⟨?_, rfl⟩⟩
  have htimers := hbooked.timers
  rw [expectedTimers, hnone] at htimers
  exact htimers.eq_nil

/-- A report ends its request, and puts off the next CQ where it is that of the last one. -/
theorem Sound.reported (h : sending.Sound) (hmounted : sending.mounted = true) {requestId : Nat}
    (hunanswered : requestId ∈ sending.unanswered) :
    ((sending.takeReport requestId).messageSent requestId).Sound := by
  have hbooked := (h.booked.takeReport requestId).clearMessageRequest requestId
  have hlooped := (h.looped.takeReport requestId).clearMessageRequest requestId
  have hcleared := clearMessageRequest_eq (sending.takeReport requestId) requestId
  rw [messageSent]
  generalize hstate : (sending.takeReport requestId).clearMessageRequest requestId = cleared at *
  have hmounted' : cleared.mounted = true := by
    rw [hcleared]
    exact hmounted
  have hgone : requestId ∉ cleared.unanswered := by
    rw [hcleared]
    exact fun hmem => of_decide_eq_true (List.mem_filter.mp hmem).2 rfl
  split
  · exact .of_mounted hbooked hlooped hmounted'
  · next hgoes =>
      rw [Bool.or_eq_true, decide_eq_true_eq, not_or, not_not] at hgoes
      have hcurrent : sending.repeatRequestId = some requestId := by
        have hlast := hgoes.2
        rw [hcleared] at hlast
        exact hlast
      have hnone : cleared.repeatTimeout = none := by
        rw [hcleared]
        cases htimeout : sending.repeatTimeout with
        | none => exact htimeout
        | some timer =>
            have hanswered := h.looped.waits (htimeout ▸ rfl) requestId
              (h.looped.current requestId hcurrent)
            exact absurd hunanswered hanswered
      refine .of_mounted (hbooked.setRepeat hnone) ?_ hmounted'
      refine ⟨hlooped.current, hlooped.single, fun _ other hother hwaiting => ?_,
        hlooped.loopFresh, hlooped.unansweredFresh⟩
      -- An unanswered one would be the last one, which was just reported.
      have hlast := hlooped.single other hother hwaiting
      rw [hgoes.2, Option.some_inj] at hlast
      exact hgone (hlast ▸ hwaiting)

variable [Platform]

/-- The messages of a press go out after the repetition was stopped, and may start another. -/
theorem Sound.press (h : sending.Sound) (hmounted : sending.mounted = true) (keys : List String)
    (mode : String) (values : MessageFields) (exchange shouldRepeat : Bool) :
    (afterSending (sending.stopRepeat.sendMessageKeys keys mode values) exchange
      shouldRepeat).Sound := by
  have hsends := sends_sendMessageKeys sending.stopRepeat keys mode values
  have hstopped := stopRepeat_eq sending
  have hbooked := hsends.booked h.booked.stopRepeat
  have hlooped := h.looped.stopRepeat.sends hsends
  have hmounted' : (sending.stopRepeat.sendMessageKeys keys mode values).1.mounted = true := by
    rw [hsends.mounted, hstopped]
    exact hmounted
  have hnone : (sending.stopRepeat.sendMessageKeys keys mode values).1.repeatTimeout = none := by
    rw [hsends.repeatTimeout, hstopped]
  have hfresh := hsends.fresh
  generalize sending.stopRepeat.sendMessageKeys keys mode values = sent at *
  obtain ⟨after, requestIds⟩ := sent
  cases requestIds with
  | nil => exact .of_mounted hbooked hlooped hmounted'
  | cons requestId requestIds =>
      have hmarks : Sends after
          (if exchange then after.record .markEsmExchangeSent else after) [] := by
        cases exchange with
        | true => exact sends_record after _
        | false => exact Sends.refl after
      have hbooked' := hmarks.booked hbooked
      have hlooped' := hlooped.sends hmarks
      simp only [afterSending]
      generalize (if exchange then after.record .markEsmExchangeSent else after) = marked at *
      split
      · refine .of_mounted (hbooked'.repeating _ _ _) ?_ (hmarks.mounted.trans hmounted')
        exact hlooped'.start
          (Nat.lt_of_lt_of_le (hfresh requestId List.mem_cons_self).2 hmarks.grows)
          (hmarks.repeatTimeout.trans hnone)
      · exact .of_mounted hbooked' hlooped' (hmarks.mounted.trans hmounted')

theorem repeatSend_withoutTimeout (sending : MessageSending) :
    { sending with repeatTimeout := none }.repeatSend = sending.repeatSend := by
  rw [MessageSending.repeatSend, MessageSending.repeatSend]

/-- The next CQ goes out where none of those before is unanswered. -/
theorem Sound.repeatSend (hbooked : sending.Booked) (hlooped : sending.Looped)
    (hmounted : sending.mounted = true) (hnone : sending.repeatTimeout = none)
    (hanswered : ∀ requestId ∈ sending.loop, requestId ∉ sending.unanswered) :
    sending.repeatSend.Sound := by
  have hsame : { sending with repeatTimeout := none } = sending := by
    rw [← hnone]
  rw [MessageSending.repeatSend]
  simp only [hsame]
  split
  · refine .of_mounted hbooked.stopRepeat hlooped.stopRepeat ?_
    rw [stopRepeat_eq]
    exact hmounted
  · have hsends := sends_sendMessageKeys sending ["F1"] runMessageMode sending.props.fields
    have hbooked' := hsends.booked hbooked
    have hlooped' := hlooped.sends hsends
    generalize sending.sendMessageKeys ["F1"] runMessageMode sending.props.fields = sent at *
    have hold : ∀ requestId ∈ sent.1.loop, requestId ∉ sent.1.unanswered := by
      rw [hsends.loop, hsends.unanswered]
      intro requestId hmem hunanswered
      cases List.mem_append.mp hunanswered with
      | inl hbefore => exact hanswered requestId hmem hbefore
      | inr hnew =>
          exact Nat.not_lt.mpr (hsends.fresh requestId hnew).1 (hlooped.loopFresh requestId hmem)
    refine .of_mounted (hbooked'.repeating _ _ _) ?_ (hsends.mounted.trans hmounted)
    refine ⟨fun requestId heq => ?_, fun requestId hmem hunanswered => ?_, fun hsome => ?_,
      fun requestId hmem => ?_, hlooped'.unansweredFresh⟩
    · exact List.mem_append_right _ (Option.mem_toList.mpr heq)
    · cases List.mem_append.mp hmem with
      | inl hbefore => exact absurd hunanswered (hold requestId hbefore)
      | inr hnew => exact Option.mem_toList.mp hnew
    · rw [hsends.repeatTimeout, hnone] at hsome
      cases hsome
    · cases List.mem_append.mp hmem with
      | inl hbefore => exact hlooped'.loopFresh requestId hbefore
      | inr hnew =>
          have hhead := List.mem_of_mem_head? (Option.mem_toList.mp hnew)
          exact (hsends.fresh requestId hhead).2

/-- A timeout that elapses clears its request, or repeats the CQ. -/
theorem Sound.timeout (h : sending.Sound) (hmounted : sending.mounted = true) (timer : Nat) :
    (sending.timeout timer).Sound := by
  rw [MessageSending.timeout]
  cases hlookup : sending.timers.lookup timer with
  | none => exact h
  | some what =>
      have hexpected := h.booked.mem_expectedTimers hlookup
      rw [expectedTimers, List.mem_append, List.mem_map, List.mem_map] at hexpected
      cases what with
      | clearMessageRequest requestId =>
          obtain ⟨⟨active, other⟩, hentry, heq⟩ | ⟨_, _, heq⟩ := hexpected
          · obtain ⟨rfl, hwhat⟩ := Prod.mk.inj heq
            obtain rfl := MessageTimer.clearMessageRequest.inj hwhat
            simp only
            rw [h.booked.clearMessageRequest_elapsed hentry, clearMessageRequest_eq]
            have hbooked := h.booked.clearMessageRequest active
            have hlooped := h.looped.clearMessageRequest active
            rw [clearMessageRequest_eq] at hbooked hlooped
            exact .of_mounted hbooked hlooped hmounted
          · cases heq
      | repeatRunF1 =>
          obtain ⟨_, _, heq⟩ | ⟨other, hother, heq⟩ := hexpected
          · cases heq
          · obtain rfl := (Prod.mk.inj heq).1
            have htimeout := Option.mem_toList.mp hother
            simp only
            rw [← repeatSend_withoutTimeout]
            refine Sound.repeatSend (h.booked.withoutRepeat htimeout) ?_ hmounted rfl ?_
            · exact ⟨h.looped.current, h.looped.single, fun hsome => Bool.noConfusion hsome,
                h.looped.loopFresh, h.looped.unansweredFresh⟩
            · exact h.looped.waits (htimeout ▸ rfl)

theorem Sound.react (h : sending.Sound) (hmounted : sending.mounted = true) (move : SendingMove) :
    (sending.react move).Sound := by
  cases move with
  | render props =>
      have hbooked := h.booked
      exact .of_mounted ⟨hbooked.shown, hbooked.timed, hbooked.requests, hbooked.timers,
        hbooked.distinct, hbooked.requestFresh, hbooked.timerFresh⟩
        ⟨h.looped.current, h.looped.single, h.looped.waits, h.looped.loopFresh,
          h.looped.unansweredFresh⟩ hmounted
  | setRepeatRunF1 checked =>
      have hbooked := h.booked
      exact .of_mounted ⟨hbooked.shown, hbooked.timed, hbooked.requests, hbooked.timers,
        hbooked.distinct, hbooked.requestFresh, hbooked.timerFresh⟩
        ⟨h.looped.current, h.looped.single, h.looped.waits, h.looped.loopFresh,
          h.looped.unansweredFresh⟩ hmounted
  | sendMessageKey key =>
      rw [MessageSending.react, MessageSending.sendMessageKey]
      exact h.press hmounted [key] sending.props.messageModeKey sending.props.fields _ _
  | sendEsmKeys keys values =>
      rw [MessageSending.react, MessageSending.sendEsmKeys]
      exact h.press hmounted keys sending.props.messageModeKey
        (values.getD sending.props.fields) _ _
  | stopMessageSending =>
      have hlooped := h.looped.stopRepeat
      refine .of_mounted (h.booked.stopRepeat.clearAllMessageRequests.record _)
        ⟨hlooped.current, hlooped.single, hlooped.waits, hlooped.loopFresh,
          hlooped.unansweredFresh⟩ ?_
      show sending.stopRepeat.mounted = true
      rw [stopRepeat_eq]
      exact hmounted
  | stopRepeat =>
      refine .of_mounted h.booked.stopRepeat h.looped.stopRepeat ?_
      show sending.stopRepeat.mounted = true
      rw [stopRepeat_eq]
      exact hmounted
  | reported requestId =>
      rw [MessageSending.react]
      split
      · next hunanswered => exact h.reported hmounted (List.contains_iff_mem.mp hunanswered)
      · exact h
  | overtaken requestId =>
      exact .of_mounted (h.booked.takeReport requestId) (h.looped.takeReport requestId) hmounted
  | timeout timer => exact h.timeout hmounted timer
  | unmount => exact h.unmount

theorem Sound.step (h : sending.Sound) (move : SendingMove) : (sending.step move).Sound := by
  rw [MessageSending.step]
  split
  · next hmounted => exact h.react hmounted move
  · exact h

end Steps

section Quiet

def SendingEvent.text? : SendingEvent → Option (Nat × String)
  | .sendText requestId text => some (requestId, text)
  | _ => none

/-- The texts that were handed to the radio. -/
def texts (sending : MessageSending) : List (Nat × String) :=
  sending.events.filterMap SendingEvent.text?

variable [Platform]

/-- Without a repetition, only the keys send something. -/
theorem quiet_step (hidle : sending.repeatActive = false) {move : SendingMove}
    (hmove : move.presses = false) :
    (sending.step move).repeatActive = false ∧ (sending.step move).texts = sending.texts := by
  have hstop (state : MessageSending) : state.stopRepeat.texts = state.texts := by
    rw [stopRepeat_eq]
    rfl
  have hclear (state : MessageSending) (requestId : Nat) :
      (state.clearMessageRequest requestId).repeatActive = state.repeatActive
        ∧ (state.clearMessageRequest requestId).texts = state.texts := by
    rw [clearMessageRequest_eq]
    exact ⟨rfl, rfl⟩
  rw [step]
  split
  · cases move with
    | render props => exact ⟨hidle, rfl⟩
    | setRepeatRunF1 checked => exact ⟨hidle, rfl⟩
    | sendMessageKey key => cases hmove
    | sendEsmKeys keys values => cases hmove
    | stopMessageSending =>
        refine ⟨?_, ?_⟩
        · show sending.stopRepeat.repeatActive = false
          rw [stopRepeat_eq]
        · rw [← hstop sending]
          exact List.filterMap_append.trans (List.append_nil _)
    | stopRepeat =>
        refine ⟨?_, hstop sending⟩
        show sending.stopRepeat.repeatActive = false
        rw [stopRepeat_eq]
    | reported requestId =>
        rw [react]
        split
        · obtain ⟨hactive, htexts⟩ := hclear (sending.takeReport requestId) requestId
          have hinactive := hactive.trans hidle
          have hends : (sending.takeReport requestId).messageSent requestId =
              (sending.takeReport requestId).clearMessageRequest requestId := by
            simp only [messageSent, hinactive, Bool.not_false, Bool.true_or, if_true]
          rw [hends]
          exact ⟨hinactive, htexts⟩
        · exact ⟨hidle, rfl⟩
    | overtaken requestId => exact ⟨hidle, rfl⟩
    | timeout timer =>
        rw [react, timeout]
        split
        · exact ⟨hidle, rfl⟩
        · next requestId _ =>
            obtain ⟨hactive, htexts⟩ :=
              hclear { sending with timers := sending.timers.filter (·.1 ≠ timer) } requestId
            exact ⟨hactive.trans hidle, htexts⟩
        · rw [repeatSend]
          simp only [hidle, Bool.not_false, Bool.true_or, if_true]
          refine ⟨?_, hstop _⟩
          rw [stopRepeat_eq]
    | unmount =>
        refine ⟨?_, hstop sending⟩
        show sending.stopRepeat.repeatActive = false
        rw [stopRepeat_eq]
  · exact ⟨hidle, rfl⟩

theorem quiet_run {moves : List SendingMove} (hidle : sending.repeatActive = false)
    (hmoves : ∀ move ∈ moves, move.presses = false) :
    (run moves sending).texts = sending.texts := by
  induction moves generalizing sending with
  | nil => rfl
  | cons move moves ih =>
      rw [List.forall_mem_cons] at hmoves
      obtain ⟨hactive, htexts⟩ := quiet_step hidle hmoves.1
      exact (ih hactive hmoves.2).trans htexts

end Quiet

section Runs

variable [Platform]

/-- What the operator can count on. The keys shown are those of the requests under way, each of
which has one timeout that clears it; the only other timeout is that of the repetition. Two
requests of a repetition are never unanswered at the same time, and none is while the next CQ is
put off. Once there is no repetition, nothing goes out until a key is pressed, and when the
window is gone no timeout is left. -/
structure Kept (sending : MessageSending) : Prop where
  shown : sending.activeMessageKeys = activeMessageKeysFromRequests sending.activeMessageRequests
  timed : sending.activeMessageTimeouts.map Prod.fst = sending.activeMessageRequests.map Prod.fst
  timers : sending.timers.Perm sending.expectedTimers
  single : ∀ first ∈ sending.loop, ∀ second ∈ sending.loop, first ∈ sending.unanswered →
    second ∈ sending.unanswered → first = second
  waits : sending.repeatTimeout.isSome = true → ∀ requestId ∈ sending.loop,
    requestId ∉ sending.unanswered
  quiet : sending.repeatActive = false → ∀ later : List SendingMove,
    (∀ move ∈ later, move.presses = false) → (run later sending).texts = sending.texts
  unmounted : sending.mounted = false → sending.timers = [] ∧ sending.activeMessageKeys = []

theorem Sound.kept (h : sending.Sound) : sending.Kept where
  shown := h.booked.shown
  timed := h.booked.timed
  timers := h.booked.timers
  single first hfirst second hsecond hfirst' hsecond' := by
    have hsame := (h.looped.single first hfirst hfirst').symm.trans
      (h.looped.single second hsecond hsecond')
    exact Option.some.inj hsame
  waits := h.looped.waits
  quiet hidle _ hlater := quiet_run hidle hlater
  unmounted := h.unmounted

omit [Platform] in
theorem sound_mount : ({} : MessageSending).Sound where
  booked := ⟨rfl, rfl, List.nodup_nil, .nil, List.nodup_nil,
    fun _ hmem => (List.not_mem_nil hmem).elim, fun _ hmem => (List.not_mem_nil hmem).elim⟩
  looped := ⟨fun _ heq => (by cases heq),
    fun _ hmem => (List.not_mem_nil hmem).elim, fun hsome => Bool.noConfusion hsome,
    fun _ hmem => (List.not_mem_nil hmem).elim, fun _ hmem => (List.not_mem_nil hmem).elim⟩
  unmounted _ := ⟨rfl, rfl⟩

/-- Whatever the operator, the radio and the clock do after the window opens, in any order. -/
theorem run_messageSending (moves : List SendingMove) : (run moves {}).Kept := by
  refine Sound.kept ?_
  exact Runs.invariant_run_of_forall Sound (fun _ move h => h.step move) sound_mount moves

end Runs

end Log73.Frontend.MessageSending
