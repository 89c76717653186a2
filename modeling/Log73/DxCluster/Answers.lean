import Log73.DxCluster.Sending
import Log73.Library.Slices

/-!
The answers to texts for a DX cluster: in every run a call is told that its text was sent exactly
if a listener took the text, once, and a call that waits has its command in the channel of a task
that is alive or about to start.
-/

namespace Log73.DxCluster

variable {tasks : List ListenerTask} {calls : List SendCall} {task : ListenerTask}
  {call : SendCall} {channel number : Nat} {change : ListenerTask → ListenerTask}

/-! ### Where commands are -/

/-- A number is in a list that the task of a channel has. -/
def At (field : ListenerTask → List Nat) (tasks : List ListenerTask) (channel number : Nat) :
    Prop :=
  ∃ task, tasks[channel]? = some task ∧ number ∈ field task

def Anywhere (field : ListenerTask → List Nat) (tasks : List ListenerTask) (number : Nat) : Prop :=
  ∃ channel, At field tasks channel number

/-- The command is in no channel any more, and its text was sent exactly if the result says so. -/
def Settled (tasks : List ListenerTask) (number : Nat) (result : Except String Unit) : Prop :=
  ¬Anywhere ListenerTask.queue tasks number ∧
    (Anywhere ListenerTask.sent tasks number ↔ result = .ok ())

/-- The command of the call came into a channel, if it ever comes into one. -/
def SendPhase.entered : SendPhase → Bool
  | .starting | .choosing | .sending _ => false
  | .waiting _ | .answered _ | .abandoned => true

structure SendCall.Kept (tasks : List ListenerTask) (number : Nat) (call : SendCall) : Prop where
  pending : call.completed.outcome = none → ¬Anywhere ListenerTask.sent tasks number ∧
    ∀ channel, call.phase = .waiting channel → At ListenerTask.queue tasks channel number
  completed : ∀ result, call.completed.outcome = some result →
    call.phase.entered = true ∧ Settled tasks number result
  answered : ∀ result, call.phase = .answered result → Settled tasks number result

structure Kept (tasks : List ListenerTask) (calls : List SendCall) : Prop where
  call : ∀ (number : Nat) (call : SendCall), calls[number]? = some call → call.Kept tasks number
  entered : ∀ number, Anywhere ListenerTask.accepted tasks number → ∃ call : SendCall,
    calls[number]? = some call ∧ call.phase.entered = true
  once : ∀ (channel : Nat) (task : ListenerTask), tasks[channel]? = some task →
    task.accepted.Nodup
  order : ∀ (channel : Nat) (task : ListenerTask), tasks[channel]? = some task →
    (task.sent ++ task.queue).Sublist task.accepted
  apart : ∀ number channel other, At ListenerTask.accepted tasks channel number →
    At ListenerTask.accepted tasks other number → channel = other
  ended : ∀ (channel : Nat) (task : ListenerTask), tasks[channel]? = some task →
    task.phase = .ended → task.queue = []

theorem SendCall.Kept.congr (h : call.Kept tasks number) {next : List ListenerTask}
    (hqueue : ∀ channel, At ListenerTask.queue next channel number ↔
      At ListenerTask.queue tasks channel number)
    (hsent : ∀ channel, At ListenerTask.sent next channel number ↔
      At ListenerTask.sent tasks channel number) : call.Kept next number := by
  have hqueued := exists_congr hqueue
  have hwas := exists_congr hsent
  have hsettled : ∀ result, Settled tasks number result → Settled next number result :=
    fun result h => ⟨(not_congr hqueued).mpr h.1, hwas.trans h.2⟩
  refine ⟨fun hnone => ?_, fun result hsome => ?_, fun result hphase => ?_⟩
  · obtain ⟨hnot, hwaiting⟩ := h.pending hnone
    exact ⟨(not_congr hwas).mpr hnot, fun channel hphase =>
      (hqueue channel).mpr (hwaiting channel hphase)⟩
  · exact (h.completed result hsome).imp_right (hsettled result)
  · exact hsettled result (h.answered result hphase)

theorem at_modify {field : ListenerTask → List Nat} {other : Nat}
    (hchannel : tasks[channel]? = some task) :
    At field (tasks.modify channel change) other number ↔
      if other = channel then number ∈ field (change task) else At field tasks other number := by
  by_cases heq : other = channel
  · subst heq
    rw [if_pos rfl, At, List.getElem?_modify_eq, hchannel]
    exact ⟨fun ⟨_, hfound, hmem⟩ => Option.some.inj hfound ▸ hmem, fun hmem => ⟨_, rfl, hmem⟩⟩
  · rw [if_neg heq, At, List.getElem?_modify_ne _ _ (Ne.symm heq)]
    exact Iff.rfl

/-- A field that the change leaves as it is. -/
theorem at_modify_of_eq {field : ListenerTask → List Nat} {other : Nat}
    (hchannel : tasks[channel]? = some task)
    (hmem : number ∈ field (change task) ↔ number ∈ field task) :
    At field (tasks.modify channel change) other number ↔ At field tasks other number := by
  rw [at_modify hchannel]
  split
  · rename_i heq
    subst heq
    refine hmem.trans ⟨fun hmem => ⟨task, hchannel, hmem⟩, fun ⟨found, hfound, hmem⟩ => ?_⟩
    rw [hchannel] at hfound
    exact Option.some.inj hfound ▸ hmem
  · exact Iff.rfl

/-! ### What every step keeps -/

namespace Kept

theorem accepted_of_queue (h : Kept tasks calls)
    (hqueue : At ListenerTask.queue tasks channel number) :
    At ListenerTask.accepted tasks channel number := by
  obtain ⟨task, htask, hmem⟩ := hqueue
  exact ⟨task, htask, (h.order channel task htask).mem (List.mem_append_right _ hmem)⟩

theorem accepted_of_sent (h : Kept tasks calls)
    (hsent : At ListenerTask.sent tasks channel number) :
    At ListenerTask.accepted tasks channel number := by
  obtain ⟨task, htask, hmem⟩ := hsent
  exact ⟨task, htask, (h.order channel task htask).mem (List.mem_append_left _ hmem)⟩

/-- The command of a call that has not come so far is nowhere. -/
theorem not_accepted (h : Kept tasks calls) (hcall : calls[number]? = some call)
    (hphase : call.phase.entered = false) : ¬Anywhere ListenerTask.accepted tasks number := by
  intro haccepted
  obtain ⟨found, hfound, hentered⟩ := h.entered number haccepted
  rw [hcall] at hfound
  rw [← Option.some.inj hfound, hphase] at hentered
  exact Bool.noConfusion hentered

theorem settled_of_not_accepted (h : Kept tasks calls)
    (hnot : ¬Anywhere ListenerTask.accepted tasks number) (error : String) :
    Settled tasks number (.error error) := by
  refine ⟨fun hqueue => hnot ?_, iff_of_false (fun hsent => hnot ?_) (by simp)⟩
  · exact hqueue.imp fun _ => h.accepted_of_queue
  · exact hsent.imp fun _ => h.accepted_of_sent

/-- A call of which nothing is known yet has no answer. -/
theorem outcome_eq_none (h : Kept tasks calls) (hcall : calls[number]? = some call)
    (hphase : call.phase.entered = false) : call.completed.outcome = none := by
  cases houtcome : call.completed.outcome with
  | none => rfl
  | some result =>
      have hentered := ((h.call number call hcall).completed result houtcome).1
      rw [hphase] at hentered
      exact Bool.noConfusion hentered

theorem modifyCall (h : Kept tasks calls) (hcall : calls[number]? = some call)
    {change : SendCall → SendCall} (hkept : (change call).Kept tasks number)
    (hentered : call.phase.entered = true → (change call).phase.entered = true) :
    Kept tasks (calls.modify number change) := by
  refine { h with call := fun other another hother => ?_, entered := fun other haccepted => ?_ }
  · rcases Slices.modify_eq_some hcall hother with ⟨rfl, rfl⟩ | ⟨-, hother⟩
    · exact hkept
    · exact h.call other another hother
  · obtain ⟨found, hfound, hphase⟩ := h.entered other haccepted
    by_cases heq : number = other
    · subst heq
      rw [hcall] at hfound
      cases hfound
      exact ⟨change call, Slices.modify_self hcall change, hentered hphase⟩
    · exact ⟨found, (List.getElem?_modify_ne _ _ heq).trans hfound, hphase⟩

/-- A call goes on without a command. -/
theorem call_goes (h : Kept tasks calls) (hcall : calls[number]? = some call)
    (hphase : call.phase.entered = false) {phase : SendPhase} (hnext : phase.entered = false) :
    Kept tasks (calls.modify number fun call => { call with phase := phase }) := by
  refine h.modifyCall hcall ⟨fun hnone => ?_, fun result hsome => ?_, fun result heq => ?_⟩
    fun hentered => absurd (hphase.symm.trans hentered) Bool.false_ne_true
  · refine ⟨((h.call number call hcall).pending hnone).1, fun channel heq => ?_⟩
    have heq : phase = .waiting channel := heq
    subst heq
    exact Bool.noConfusion hnext
  · exact absurd ((h.outcome_eq_none hcall hphase).symm.trans hsome) (Option.some_ne_none _).symm
  · have heq : phase = .answered result := heq
    subst heq
    exact Bool.noConfusion hnext

/-- A call that is told what is settled. -/
theorem call_answered (h : Kept tasks calls) (hcall : calls[number]? = some call)
    {result : Except String Unit} (hsettled : Settled tasks number result) :
    Kept tasks (calls.modify number fun call => { call with phase := .answered result }) := by
  have hkept := h.call number call hcall
  refine h.modifyCall hcall ⟨fun hnone => ?_, fun other hsome => ?_, fun other heq => ?_⟩ fun _ =>
    rfl
  · exact ⟨(hkept.pending hnone).1, fun channel heq => (by cases heq)⟩
  · exact ⟨rfl, (hkept.completed other hsome).2⟩
  · cases heq
    exact hsettled

theorem call_refused (h : Kept tasks calls) (hcall : calls[number]? = some call)
    (hphase : call.phase.entered = false) (error : String) :
    Kept tasks (calls.modify number fun call => { call with phase := .answered (.error error) }) :=
  h.call_answered hcall (h.settled_of_not_accepted (h.not_accepted hcall hphase) error)

theorem call_abandoned (h : Kept tasks calls) (hcall : calls[number]? = some call) :
    Kept tasks (calls.modify number fun call => { call with phase := .abandoned }) := by
  have hkept := h.call number call hcall
  refine h.modifyCall hcall ⟨fun hnone => ?_, fun other hsome => ?_, fun other heq => ?_⟩ fun _ =>
    rfl
  · exact ⟨(hkept.pending hnone).1, fun channel heq => (by cases heq)⟩
  · exact ⟨rfl, (hkept.completed other hsome).2⟩
  · cases heq

theorem add_call (h : Kept tasks calls) (text : String) :
    Kept tasks (calls ++ [{ text := text }]) := by
  refine { h with call := fun number call hcall => ?_, entered := fun number haccepted => ?_ }
  · rcases Slices.concat_eq_some hcall with hcall | ⟨rfl, rfl⟩
    · exact h.call number call hcall
    · have hnot : ¬Anywhere ListenerTask.accepted tasks calls.length := by
        intro haccepted
        obtain ⟨found, hfound, -⟩ := h.entered _ haccepted
        exact absurd (Slices.length_of_getElem? hfound) (Nat.lt_irrefl _)
      refine ⟨fun _ => ⟨fun hsent => hnot ?_, fun _ heq => (by cases heq)⟩,
        fun _ heq => (by cases heq), fun _ heq => (by cases heq)⟩
      exact hsent.imp fun _ => h.accepted_of_sent
  · obtain ⟨found, hfound, hphase⟩ := h.entered number haccepted
    exact ⟨found, Slices.concat_of_some hfound _, hphase⟩

/-- A change of a task that leaves what came into its channel. -/
theorem modifyTask (h : Kept tasks calls) (hchannel : tasks[channel]? = some task)
    {next : List SendCall} (haccepted : (change task).accepted = task.accepted)
    (horder : ((change task).sent ++ (change task).queue).Sublist (task.sent ++ task.queue))
    (hended : (change task).phase = .ended → (change task).queue = [])
    (hcalls : ∀ (number : Nat) (call : SendCall), next[number]? = some call →
      call.Kept (tasks.modify channel change) number)
    (hentered : ∀ (number : Nat) (call : SendCall), calls[number]? = some call →
      call.phase.entered = true →
        ∃ later : SendCall, next[number]? = some later ∧ later.phase.entered = true) :
    Kept (tasks.modify channel change) next := by
  have hat : ∀ number other, At ListenerTask.accepted (tasks.modify channel change) other number ↔
      At ListenerTask.accepted tasks other number :=
    fun number other => at_modify_of_eq hchannel (by rw [haccepted])
  refine ⟨hcalls, fun number hmem => ?_, fun other another hother => ?_,
    fun other another hother => ?_, fun number one other hone hother => ?_,
    fun other another hother => ?_⟩
  · obtain ⟨call, hcall, hphase⟩ := h.entered number (hmem.imp fun other => (hat number other).mp)
    exact hentered number call hcall hphase
  · rcases Slices.modify_eq_some hchannel hother with ⟨-, rfl⟩ | ⟨-, hother⟩
    · exact haccepted ▸ h.once channel task hchannel
    · exact h.once other another hother
  · rcases Slices.modify_eq_some hchannel hother with ⟨-, rfl⟩ | ⟨-, hother⟩
    · exact haccepted ▸ horder.trans (h.order channel task hchannel)
    · exact h.order other another hother
  · exact h.apart number one other ((hat number one).mp hone) ((hat number other).mp hother)
  · rcases Slices.modify_eq_some hchannel hother with ⟨-, rfl⟩ | ⟨-, hother⟩
    · exact hended
    · exact h.ended other another hother

/-- A task that goes on. -/
theorem task_goes (h : Kept tasks calls) (hchannel : tasks[channel]? = some task)
    (hqueue : (change task).queue = task.queue) (haccepted : (change task).accepted = task.accepted)
    (hsent : (change task).sent = task.sent)
    (hended : (change task).phase = .ended → task.phase = .ended) :
    Kept (tasks.modify channel change) calls := by
  refine h.modifyTask hchannel haccepted ?_ (fun hphase => ?_) (fun number call hcall => ?_)
    fun number call hcall hphase => ⟨call, hcall, hphase⟩
  · rw [hqueue, hsent]
  · rw [hqueue]
    exact h.ended channel task hchannel (hended hphase)
  · refine (h.call number call hcall).congr (fun other => ?_) fun other => ?_
    · exact at_modify_of_eq hchannel (by rw [hqueue])
    · exact at_modify_of_eq hchannel (by rw [hsent])

theorem add_task (h : Kept tasks calls) (config : DxClusterConfig) :
    Kept (tasks ++ [{ config := config }]) calls := by
  have hat : ∀ (field : ListenerTask → List Nat), field { config := config } = [] →
      ∀ number other, At field (tasks ++ [{ config := config }]) other number ↔
        At field tasks other number := by
    intro field hfield number other
    constructor
    · rintro ⟨found, hfound, hmem⟩
      rcases Slices.concat_eq_some hfound with hfound | ⟨_, rfl⟩
      · exact ⟨found, hfound, hmem⟩
      · rw [hfield] at hmem
        exact (List.not_mem_nil hmem).elim
    · rintro ⟨found, hfound, hmem⟩
      exact ⟨found, Slices.concat_of_some hfound _, hmem⟩
  refine ⟨fun number call hcall => ?_, fun number haccepted => ?_, fun other another hother => ?_,
    fun other another hother => ?_, fun number one other hone hother => ?_,
    fun other another hother hphase => ?_⟩
  · exact (h.call number call hcall).congr (hat _ rfl number) (hat _ rfl number)
  · exact h.entered number (haccepted.imp fun other => (hat _ rfl number other).mp)
  · rcases Slices.concat_eq_some hother with hother | ⟨_, rfl⟩
    · exact h.once other another hother
    · exact List.nodup_nil
  · rcases Slices.concat_eq_some hother with hother | ⟨_, rfl⟩
    · exact h.order other another hother
    · exact List.Sublist.refl _
  · exact h.apart number one other ((hat _ rfl number one).mp hone)
      ((hat _ rfl number other).mp hother)
  · rcases Slices.concat_eq_some hother with hother | ⟨_, rfl⟩
    · exact h.ended other another hother hphase
    · rfl

/-- A command comes into a channel. -/
theorem post (h : Kept tasks calls) (hchannel : tasks[channel]? = some task)
    (hlive : task.phase ≠ .ended) (hcall : calls[number]? = some call)
    (hphase : call.phase.entered = false) :
    Kept
      (tasks.modify channel fun task =>
        { task with queue := task.queue ++ [number], accepted := task.accepted ++ [number] })
      (calls.modify number fun call => { call with phase := .waiting channel }) := by
  have hnot := h.not_accepted hcall hphase
  have hkept : ∀ (xs : List Nat) {other : Nat}, other ≠ number →
      (other ∈ xs ++ [number] ↔ other ∈ xs) :=
    fun xs other hne => by rw [List.mem_append, List.mem_singleton, or_iff_left hne]
  have haccepted : ∀ other one, At ListenerTask.accepted (tasks.modify channel fun task =>
      { task with
        queue := task.queue ++ [number], accepted := task.accepted ++ [number] }) one other →
        one = channel ∧ other = number ∨ other ≠ number ∧
          At ListenerTask.accepted tasks one other := by
    intro other one hat
    by_cases heq : other = number
    · rw [at_modify hchannel] at hat
      split at hat
      · exact .inl ⟨‹_›, heq⟩
      · exact absurd ⟨one, heq ▸ hat⟩ hnot
    · exact .inr ⟨heq, (at_modify_of_eq hchannel (hkept _ heq)).mp hat⟩
  refine ⟨fun other another hother => ?_, fun other hmem => ?_, fun other another hother => ?_,
    fun other another hother => ?_, fun other one two hone htwo => ?_,
      fun other another hother => ?_⟩
  · rcases Slices.modify_eq_some hcall hother with ⟨rfl, rfl⟩ | ⟨hne, hother⟩
    · refine ⟨fun hnone => ⟨fun hsent => ?_, fun one heq => ?_⟩, fun result hsome => ?_,
        fun _ heq => (by cases heq)⟩
      · refine ((h.call other call hcall).pending hnone).1 (hsent.imp fun one => ?_)
        exact (at_modify_of_eq hchannel Iff.rfl).mp
      · cases heq
        rw [at_modify hchannel, if_pos rfl]
        exact List.mem_append_right _ List.mem_cons_self
      · have hnone := h.outcome_eq_none hcall hphase
        exact absurd (hnone.symm.trans hsome) (Option.some_ne_none result).symm
    · refine (h.call other another hother).congr (fun one => ?_) fun one => ?_
      · exact at_modify_of_eq hchannel (hkept _ hne)
      · exact at_modify_of_eq hchannel Iff.rfl
  · obtain ⟨one, hat⟩ := hmem
    rcases haccepted other one hat with ⟨-, rfl⟩ | ⟨hne, hat⟩
    · exact ⟨_, Slices.modify_self hcall _, rfl⟩
    · obtain ⟨found, hfound, hentered⟩ := h.entered other ⟨one, hat⟩
      exact ⟨found, (List.getElem?_modify_ne _ _ hne.symm).trans hfound, hentered⟩
  · rcases Slices.modify_eq_some hchannel hother with ⟨-, rfl⟩ | ⟨-, hother⟩
    · refine List.nodup_append.mpr ⟨h.once channel task hchannel, List.nodup_singleton number, ?_⟩
      rintro other hmem another hnumber rfl
      rw [List.mem_singleton.mp hnumber] at hmem
      exact hnot ⟨channel, task, hchannel, hmem⟩
    · exact h.once other another hother
  · rcases Slices.modify_eq_some hchannel hother with ⟨-, rfl⟩ | ⟨-, hother⟩
    · change (task.sent ++ (task.queue ++ [number])).Sublist _
      rw [← List.append_assoc]
      exact (h.order channel task hchannel).append_right [number]
    · exact h.order other another hother
  · rcases haccepted other one hone with ⟨rfl, heq⟩ | ⟨hne, hone⟩ <;>
      rcases haccepted other two htwo with ⟨rfl, heq'⟩ | ⟨hne', htwo⟩
    · rfl
    · exact absurd heq hne'
    · exact absurd heq' hne
    · exact h.apart other one two hone htwo
  · rcases Slices.modify_eq_some hchannel hother with ⟨-, rfl⟩ | ⟨-, hother⟩
    · exact fun hended => absurd hended hlive
    · exact h.ended other another hother

/-- What is in a channel has no answer yet. -/
theorem pending_of_queue (h : Kept tasks calls) (hcall : calls[number]? = some call)
    (hqueue : At ListenerTask.queue tasks channel number) :
    call.completed.outcome = none ∧ ¬Anywhere ListenerTask.sent tasks number ∧
      ∀ result, call.phase ≠ .answered result := by
  have hkept := h.call number call hcall
  have hnone : call.completed.outcome = none := by
    cases houtcome : call.completed.outcome with
    | none => rfl
    | some result => exact absurd ⟨channel, hqueue⟩ (hkept.completed result houtcome).2.1
  exact ⟨hnone, (hkept.pending hnone).1, fun result hphase =>
    (hkept.answered result hphase).1 ⟨channel, hqueue⟩⟩

/-- What is in one channel is in no other. -/
theorem not_queued_elsewhere (h : Kept tasks calls)
    (hqueue : At ListenerTask.queue tasks channel number) {other : Nat} (hne : other ≠ channel) :
    ¬At ListenerTask.queue tasks other number ∧ ¬At ListenerTask.sent tasks other number := by
  have haccepted := h.accepted_of_queue hqueue
  exact ⟨fun hother => hne (h.apart number other channel (h.accepted_of_queue hother) haccepted),
    fun hother => hne (h.apart number other channel (h.accepted_of_sent hother) haccepted)⟩

/-- The next command of a channel is answered. -/
theorem complete (h : Kept tasks calls) (hchannel : tasks[channel]? = some task)
    {rest : List Nat} (hqueue : task.queue = number :: rest) (result : Except String Unit)
    {sent : List Nat} (hsent : sent = task.sent ++ [number] ∧ result = .ok () ∨
      sent = task.sent ∧ result ≠ .ok ()) :
    Kept
      (tasks.modify channel fun task => { task with queue := task.queue.tail, sent := sent })
      (calls.modify number fun call => { call with completed := .value result }) := by
  have hat : At ListenerTask.queue tasks channel number :=
    ⟨task, hchannel, hqueue ▸ List.mem_cons_self⟩
  obtain ⟨call, hcall, hentered⟩ := h.entered number ⟨channel, h.accepted_of_queue hat⟩
  obtain ⟨-, hnot, hunanswered⟩ := h.pending_of_queue hcall hat
  have hnodup : (number :: rest).Nodup := by
    rw [← hqueue]
    exact ((h.order channel task hchannel).nodup (h.once channel task hchannel)).of_append_right
  have hmem : ∀ other, other ≠ number →
      (other ∈ task.queue.tail ↔ other ∈ task.queue) ∧ (other ∈ sent ↔ other ∈ task.sent) := by
    intro other hne
    refine ⟨?_, ?_⟩
    · rw [hqueue, List.tail_cons, List.mem_cons, or_iff_right hne]
    · rcases hsent with ⟨rfl, -⟩ | ⟨rfl, -⟩
      · rw [List.mem_append, List.mem_singleton, or_iff_left hne]
      · exact Iff.rfl
  refine h.modifyTask hchannel rfl ?_ (fun hended => ?_) (fun other another hother => ?_)
    fun other another hother hphase => ?_
  · change (sent ++ task.queue.tail).Sublist _
    rw [hqueue, List.tail_cons]
    rcases hsent with ⟨rfl, -⟩ | ⟨rfl, -⟩
    · rw [List.append_assoc, List.singleton_append]
    · exact (List.sublist_cons_self number rest).append_left task.sent
  · rw [h.ended channel task hchannel hended] at hqueue
    cases hqueue
  · rcases Slices.modify_eq_some hcall hother with ⟨rfl, rfl⟩ | ⟨hne, hother⟩
    · refine ⟨fun hnone => (by cases hnone), fun found heq => ⟨hentered, ?_⟩,
        fun found hphase => absurd hphase (hunanswered found)⟩
      cases heq
      refine ⟨?_, ?_⟩
      · rintro ⟨one, hone⟩
        rw [at_modify hchannel] at hone
        split at hone
        · rw [hqueue] at hone
          exact (List.nodup_cons.mp hnodup).1 hone
        · exact (h.not_queued_elsewhere hat ‹_›).1 hone
      · rcases hsent with ⟨rfl, rfl⟩ | ⟨rfl, hresult⟩
        · refine iff_of_true ⟨channel, ?_⟩ rfl
          rw [at_modify hchannel, if_pos rfl]
          exact List.mem_append_right _ List.mem_cons_self
        · refine iff_of_false (fun hsome => hnot (hsome.imp fun one => ?_)) hresult
          exact (at_modify_of_eq hchannel Iff.rfl).mp
    · refine (h.call other another hother).congr (fun one => ?_) fun one => ?_
      · exact at_modify_of_eq hchannel (hmem other hne).1
      · exact at_modify_of_eq hchannel (hmem other hne).2
  · by_cases heq : number = other
    · subst heq
      rw [hcall] at hother
      cases hother
      exact ⟨_, Slices.modify_self hcall _, hphase⟩
    · exact ⟨another, (List.getElem?_modify_ne _ _ heq).trans hother, hphase⟩

/-- The receiver of a channel goes. -/
theorem finish (h : Kept tasks calls) (hchannel : tasks[channel]? = some task) :
    Kept (tasks.modify channel fun task => { task with phase := .ended, queue := [] })
      (calls.mapIdx fun number call =>
        if number ∈ task.queue then { call with completed := .dropped } else call) := by
  refine h.modifyTask hchannel rfl ?_ (fun _ => rfl) (fun other another hother => ?_)
    fun other another hother hphase => ?_
  · exact (List.nil_sublist task.queue).append_left task.sent
  · rw [List.getElem?_mapIdx, Option.map_eq_some_iff] at hother
    obtain ⟨call, hcall, rfl⟩ := hother
    have hkept := h.call other call hcall
    split
    · rename_i hqueue
      have hat : At ListenerTask.queue tasks channel other := ⟨task, hchannel, hqueue⟩
      obtain ⟨found, hfound, hentered⟩ := h.entered other ⟨channel, h.accepted_of_queue hat⟩
      rw [hcall] at hfound
      cases hfound
      obtain ⟨-, hnot, hunanswered⟩ := h.pending_of_queue hcall hat
      refine ⟨fun hnone => (by cases hnone), fun result heq => ⟨hentered, ?_⟩,
        fun result hphase => absurd hphase (hunanswered result)⟩
      cases heq
      refine ⟨?_, iff_of_false (fun hsome => hnot (hsome.imp fun one => ?_)) (by simp)⟩
      · rintro ⟨one, hone⟩
        rw [at_modify hchannel] at hone
        split at hone
        · exact List.not_mem_nil hone
        · exact (h.not_queued_elsewhere hat ‹_›).1 hone
      · exact (at_modify_of_eq hchannel Iff.rfl).mp
    · rename_i hqueue
      refine hkept.congr (fun one => ?_) fun one => at_modify_of_eq hchannel Iff.rfl
      exact at_modify_of_eq hchannel (iff_of_false List.not_mem_nil hqueue)
  · refine ⟨_, by rw [List.getElem?_mapIdx, hother]; rfl, ?_⟩
    split <;> exact hphase

end Kept

namespace DxClusterManager

variable {cluster next : DxClusterManager} {index : Nat}

/-- A task that is not spawned yet belongs to a call of `apply_config` that is about to spawn it. -/
structure Sound (cluster : DxClusterManager) : Prop where
  kept : Kept cluster.tasks cluster.calls
  held : ∀ (channel : Nat) (task : ListenerTask), cluster.tasks[channel]? = some task →
    task.phase = .unspawned → ∃ apply ∈ cluster.applies, apply.phase = .marking channel

/-- Steps that spawn no task and take no call of `apply_config` further. -/
theorem Sound.of_kept (h : cluster.Sound) (hkept : Kept next.tasks next.calls)
    (hstarted : ∀ (channel : Nat) (task : ListenerTask), next.tasks[channel]? = some task →
      task.phase = .unspawned → ∃ before : ListenerTask, cluster.tasks[channel]? = some before ∧
        before.phase = .unspawned)
    (happlies : next.applies = cluster.applies) : next.Sound := by
  refine ⟨hkept, fun channel task htask hphase => ?_⟩
  obtain ⟨before, hbefore, hunspawned⟩ := hstarted channel task htask hphase
  rw [happlies]
  exact h.held channel before hbefore hunspawned

theorem unspawned_modify (hphase : ∀ task, (change task).phase = .unspawned →
      task.phase = .unspawned) (channel : Nat) (task : ListenerTask)
    (htask : (tasks.modify index change)[channel]? = some task)
    (hunspawned : task.phase = .unspawned) :
    ∃ before : ListenerTask, tasks[channel]? = some before ∧ before.phase = .unspawned := by
  rw [List.getElem?_modify] at htask
  obtain ⟨before, hbefore, rfl⟩ := Option.map_eq_some_iff.mp htask
  refine ⟨before, hbefore, ?_⟩
  split at hunspawned
  · exact hphase before hunspawned
  · exact hunspawned

theorem Sound.adjustCall (h : cluster.Sound) {change : SendCall → SendCall}
    (hkept : Kept cluster.tasks (cluster.calls.modify index change)) :
    (cluster.adjustCall index change).Sound :=
  h.of_kept hkept (fun _ task htask hphase => ⟨task, htask, hphase⟩) rfl

/-- A task that goes on, as far as it goes. -/
theorem Sound.adjustTask (h : cluster.Sound) (index : Nat) {change : ListenerTask → ListenerTask}
    (hsame : ∀ task, (change task).queue = task.queue ∧ (change task).accepted = task.accepted ∧
      (change task).sent = task.sent)
    (hended : ∀ task, (change task).phase = .ended → task.phase = .ended)
    (hunspawned : ∀ task, (change task).phase = .unspawned → task.phase = .unspawned) :
    (cluster.adjustTask index change).Sound := by
  refine h.of_kept ?_ (unspawned_modify hunspawned) rfl
  change Kept (cluster.tasks.modify index change) cluster.calls
  cases htask : cluster.tasks[index]? with
  | none =>
      rw [List.modify_eq_self (List.getElem?_eq_none_iff.mp htask)]
      exact h.kept
  | some task =>
      obtain ⟨hqueue, haccepted, hsent⟩ := hsame task
      exact h.kept.task_goes htask hqueue haccepted hsent (hended task)

theorem Sound.enter (h : cluster.Sound) (index : Nat) {phase : TaskPhase} (hended : phase ≠ .ended)
    (hunspawned : phase ≠ .unspawned) : (cluster.enter index phase).Sound :=
  h.adjustTask index (fun _ => ⟨rfl, rfl, rfl⟩) (fun _ heq => absurd heq hended)
    fun _ heq => absurd heq hunspawned

theorem Sound.endTask (h : cluster.Sound) (index : Nat) : (cluster.endTask index).Sound := by
  rw [DxClusterManager.endTask]
  split
  · exact h
  · rename_i task htask
    exact h.of_kept (h.kept.finish htask) (unspawned_modify fun _ hphase => (by cases hphase)) rfl

theorem Sound.receive (h : cluster.Sound) (htask : cluster.tasks[index]? = some task)
    (result : Except String Unit) {closed : TaskPhase} (hended : closed ≠ .ended)
    (hunspawned : closed ≠ .unspawned) : (cluster.receive index task result closed).Sound := by
  simp only [DxClusterManager.receive]
  cases hqueue : task.queue with
  | nil =>
      simp only [List.head?_nil]
      split
      · exact h
      · exact h.enter index hended hunspawned
  | cons number rest =>
      refine h.of_kept (h.kept.complete htask hqueue result ?_)
        (unspawned_modify fun _ hphase => hphase) rfl
      cases result with
      | ok value => exact .inl ⟨rfl, rfl⟩
      | error error => exact .inr ⟨rfl, by simp⟩

theorem Sound.taskStep (h : cluster.Sound) (htask : cluster.tasks[index]? = some task)
    (event : TaskEvent) : (cluster.taskStep index task event).Sound := by
  have hstate : ∀ state, Sound { cluster with connectionState := state } :=
    fun _ => ⟨h.kept, h.held⟩
  have henter : ∀ phase, phase ≠ .ended → phase ≠ .unspawned →
      (cluster.enter index phase).Sound := fun _ => h.enter index
  simp only [DxClusterManager.taskStep]
  cases task.phase with
  | spawned =>
      cases event with
      | proceed =>
          dsimp only
          split
          · exact henter _ (by simp) (by simp)
          · exact (hstate .stopped).endTask index
      | listen _ | lineClosed | tick _ | command _ | deadline => exact h
  | opening again =>
      cases event with
      | proceed => exact (hstate _).enter index (by simp) (by simp)
      | listen _ | lineClosed | tick _ | command _ | deadline => exact h
  | connecting =>
      cases event with
      | listen result => cases result <;> exact henter _ (by simp) (by simp)
      | proceed | lineClosed | tick _ | command _ | deadline => exact h
  | connected =>
      cases event with
      | proceed => exact (hstate _).enter index (by simp) (by simp)
      | listen _ | lineClosed | tick _ | command _ | deadline => exact h
  | listening =>
      cases event with
      | lineClosed => exact henter _ (by simp) (by simp)
      | tick running =>
          cases running with
          | false => exact henter _ (by simp) (by simp)
          | true => exact h
      | command result => exact h.receive htask result (by simp) (by simp)
      | proceed | listen _ | deadline => exact h
  | joining outcome =>
      cases event with
      | proceed => cases outcome <;> exact henter _ (by simp) (by simp)
      | listen _ | lineClosed | tick _ | command _ | deadline => cases outcome <;> exact h
  | scheduling =>
      cases event with
      | proceed => exact (hstate _).enter index (by simp) (by simp)
      | listen _ | lineClosed | tick _ | command _ | deadline => exact h
  | waiting =>
      cases event with
      | deadline => exact henter _ (by simp) (by simp)
      | command result => exact h.receive htask _ (by simp) (by simp)
      | proceed | listen _ | lineClosed | tick _ => exact h
  | stopping =>
      cases event with
      | proceed => exact (hstate .stopped).endTask index
      | listen _ | lineClosed | tick _ | command _ | deadline => exact h
  | unspawned | ended => exact h

theorem Sound.sendStep (h : cluster.Sound) {number : Nat} {call : SendCall}
    (hcall : cluster.calls[number]? = some call) : (cluster.sendStep number call).Sound := by
  obtain ⟨text, phase, completed⟩ := call
  cases phase with
  | starting =>
      simp only [DxClusterManager.sendStep]
      split
      · exact h.adjustCall (h.kept.call_refused hcall rfl listenerReconnecting)
      · exact h.adjustCall (h.kept.call_goes hcall rfl rfl)
  | choosing =>
      simp only [DxClusterManager.sendStep]
      split
      · exact h.adjustCall (h.kept.call_refused hcall rfl listenerNotRunning)
      · exact h.adjustCall (h.kept.call_goes hcall rfl rfl)
  | sending channel =>
      simp only [DxClusterManager.sendStep]
      split
      · exact h
      · rename_i task htask
        split
        · exact h.adjustCall (h.kept.call_refused hcall rfl listenerNotRunning)
        · split
          · exact h.of_kept (h.kept.post htask ‹_› hcall rfl)
              (unspawned_modify fun _ hphase => hphase) rfl
          · exact h
  | waiting channel =>
      simp only [DxClusterManager.sendStep]
      cases houtcome : completed.outcome with
      | none => exact h
      | some result =>
          have hsettled := ((h.kept.call number _ hcall).completed result houtcome).2
          exact h.adjustCall (h.kept.call_answered hcall hsettled)
  | answered _ | abandoned => exact h

theorem held_modify {apply : ApplyCall} (hfound : cluster.applies[index]? = some apply)
    {channel : Nat} (hphase : apply.phase ≠ .marking channel)
    (hheld : ∃ apply ∈ cluster.applies, apply.phase = .marking channel)
    (change : ApplyCall → ApplyCall) :
    ∃ apply ∈ cluster.applies.modify index change, apply.phase = .marking channel := by
  obtain ⟨holder, hmem, hholds⟩ := hheld
  obtain ⟨other, hother⟩ := List.mem_iff_getElem?.mp hmem
  have hne : index ≠ other := by
    rintro rfl
    rw [hfound] at hother
    exact hphase (Option.some.inj hother ▸ hholds)
  exact ⟨holder, List.mem_of_getElem? ((List.getElem?_modify_ne _ _ hne).trans hother), hholds⟩

/-- A call of `apply_config` that goes on, and leaves no task behind that it was to spawn. -/
theorem Sound.of_applies (h : cluster.Sound) {apply : ApplyCall}
    (hfound : cluster.applies[index]? = some apply) (hkept : Kept next.tasks next.calls)
    (hstarted : ∀ (channel : Nat) (task : ListenerTask), next.tasks[channel]? = some task →
      task.phase = .unspawned → apply.phase ≠ .marking channel ∧
        ∃ before : ListenerTask, cluster.tasks[channel]? = some before ∧ before.phase = .unspawned)
    {change : ApplyCall → ApplyCall}
    (happlies : next.applies = cluster.applies.modify index change) :
    next.Sound := by
  refine ⟨hkept, fun channel task htask hphase => ?_⟩
  obtain ⟨hother, before, hbefore, hunspawned⟩ := hstarted channel task htask hphase
  rw [happlies]
  exact held_modify hfound hother (h.held channel before hbefore hunspawned) change

/-- The task that a call was to spawn is not unspawned any more. -/
theorem started_modify {task : Nat} (hstarted : ∀ task, (change task).phase ≠ .unspawned)
    (channel : Nat) (another : ListenerTask)
    (hanother : (cluster.tasks.modify task change)[channel]? = some another)
    (hphase : another.phase = .unspawned) :
    ApplyPhase.marking task ≠ .marking channel ∧
      ∃ before : ListenerTask, cluster.tasks[channel]? = some before ∧
        before.phase = .unspawned := by
  rw [List.getElem?_modify] at hanother
  obtain ⟨before, hbefore, rfl⟩ := Option.map_eq_some_iff.mp hanother
  split at hphase
  · exact absurd hphase (hstarted before)
  · rename_i hne
    exact ⟨fun heq => hne (ApplyPhase.marking.inj heq), before, hbefore, hphase⟩

theorem Sound.applyStep (h : cluster.Sound) {apply : ApplyCall}
    (hfound : cluster.applies[index]? = some apply) : (cluster.applyStep index apply).Sound := by
  obtain ⟨config, phase⟩ := apply
  have hidle : (∀ channel, phase ≠ .marking channel) → ∀ (channel : Nat) (task : ListenerTask),
      cluster.tasks[channel]? = some task → task.phase = .unspawned → phase ≠ .marking channel ∧
        ∃ before : ListenerTask, cluster.tasks[channel]? = some before ∧
          before.phase = .unspawned :=
    fun hphase channel task htask hunspawned => ⟨hphase channel, task, htask, hunspawned⟩
  cases phase with
  | stopping => exact h.of_applies hfound h.kept (hidle fun _ => ApplyPhase.noConfusion) rfl
  | clearing => exact h.of_applies hfound h.kept (hidle fun _ => ApplyPhase.noConfusion) rfl
  | aborting =>
      have hnext : ∀ change,
          Sound { cluster with applies := cluster.applies.modify index change } :=
        fun change => h.of_applies hfound h.kept (hidle fun _ => ApplyPhase.noConfusion) rfl
      simp only [DxClusterManager.applyStep]
      split
      · exact hnext _
      · rename_i task _
        have hcleared : Sound { cluster with
            task := none
            applies := cluster.applies.modify index fun apply =>
              { apply with phase := if config.enabled then .opening else .done } } :=
          ⟨h.kept, (hnext _).held⟩
        exact hcleared.adjustTask task (fun _ => ⟨rfl, rfl, rfl⟩) (fun _ => id) fun _ => id
  | opening =>
      refine ⟨h.kept.add_task config, fun channel task htask hphase => ?_⟩
      rcases Slices.concat_eq_some htask with htask | ⟨rfl, rfl⟩
      · exact held_modify hfound ApplyPhase.noConfusion (h.held channel task htask hphase) _
      · exact ⟨_, List.mem_of_getElem? (Slices.modify_self hfound _), rfl⟩
  | marking task =>
      have hspawned : (cluster.enter task .spawned).Sound := h.enter task (by simp) (by simp)
      exact h.of_applies hfound hspawned.kept (started_modify fun _ => by simp) rfl
  | storing task => exact h.of_applies hfound h.kept (hidle fun _ => ApplyPhase.noConfusion) rfl
  | done => exact h

theorem Sound.dropApply (h : cluster.Sound) {apply : ApplyCall}
    (hfound : cluster.applies[index]? = some apply) : (cluster.dropApply index apply).Sound := by
  obtain ⟨config, phase⟩ := apply
  have hidle : (∀ channel, phase ≠ .marking channel) → Sound { cluster with
      applies := cluster.applies.modify index fun apply => { apply with phase := .done } } :=
    fun hphase => h.of_applies hfound h.kept
      (fun channel task htask hunspawned => ⟨hphase channel, task, htask, hunspawned⟩) rfl
  cases phase with
  | marking task =>
      simp only [DxClusterManager.dropApply, DxClusterManager.endTask]
      split
      · rename_i hnone
        refine h.of_applies hfound h.kept (fun channel task' htask hunspawned => ⟨?_, task', htask,
          hunspawned⟩) rfl
        intro heq
        rw [ApplyPhase.marking.inj heq, htask] at hnone
        cases hnone
      · rename_i found htask
        exact h.of_applies hfound (h.kept.finish htask) (started_modify fun _ => by simp) rfl
  | stopping | clearing | aborting | opening | storing _ | done =>
      exact hidle fun _ => ApplyPhase.noConfusion

theorem Sound.step (h : cluster.Sound) (move : ClusterMove) : (cluster.step move).Sound := by
  cases move with
  | send text => exact h.of_kept (h.kept.add_call text) (fun _ task htask hphase =>
      ⟨task, htask, hphase⟩) rfl
  | call index =>
      simp only [DxClusterManager.step]
      split
      · exact h.sendStep ‹_›
      · exact h
  | dropCall index =>
      simp only [DxClusterManager.step]
      split
      · exact h
      · exact h
      · exact h.adjustCall (h.kept.call_abandoned ‹_›)
  | apply config =>
      refine ⟨h.kept, fun channel task htask hphase => ?_⟩
      obtain ⟨apply, hmem, hmarking⟩ := h.held channel task htask hphase
      exact ⟨apply, List.mem_append_left _ hmem, hmarking⟩
  | applyStep index =>
      simp only [DxClusterManager.step]
      split
      · exact h.applyStep ‹_›
      · exact h
  | dropApply index =>
      simp only [DxClusterManager.step]
      split
      · exact h.dropApply ‹_›
      · exact h
  | task index event =>
      simp only [DxClusterManager.step]
      split
      · exact h.taskStep ‹_› event
      · exact h
  | cancel index =>
      simp only [DxClusterManager.step]
      split
      · split
        · exact h.endTask index
        · exact h
      · exact h

/-! ### Every run -/

/-- The calls whose texts listeners took, task by task in the order they were taken. -/
def sentTexts (cluster : DxClusterManager) : List Nat := cluster.tasks.flatMap ListenerTask.sent

theorem mem_sentTexts {number : Nat} :
    number ∈ cluster.sentTexts ↔ Anywhere ListenerTask.sent cluster.tasks number := by
  rw [sentTexts, List.mem_flatMap]
  constructor
  · rintro ⟨task, hmem, hnumber⟩
    obtain ⟨channel, htask⟩ := List.mem_iff_getElem?.mp hmem
    exact ⟨channel, task, htask, hnumber⟩
  · rintro ⟨channel, task, htask, hnumber⟩
    exact ⟨task, List.mem_of_getElem? htask, hnumber⟩

/-- What the callers of `send_text` can count on. -/
structure SendLaw (cluster : DxClusterManager) : Prop where
  once : cluster.sentTexts.Nodup
  answered : ∀ (number : Nat) (call : SendCall) (result : Except String Unit),
    cluster.calls[number]? = some call → call.phase = .answered result →
      (number ∈ cluster.sentTexts ↔ result = .ok ())
  waits : ∀ (number : Nat) (call : SendCall) (channel : Nat), cluster.calls[number]? = some call →
    call.phase = .waiting channel → call.completed.outcome = none →
      ∃ task : ListenerTask, cluster.tasks[channel]? = some task ∧ number ∈ task.queue ∧
        task.phase ≠ .ended ∧ (task.phase = .unspawned →
          ∃ apply ∈ cluster.applies, apply.phase = .marking channel)
  ordered : ∀ task ∈ cluster.tasks, task.sent.Sublist task.accepted

theorem Sound.sendLaw (h : cluster.Sound) : cluster.SendLaw where
  once := by
    refine List.nodup_flatMap.mpr ⟨fun task hmem => ?_, ?_⟩
    · obtain ⟨channel, htask⟩ := List.mem_iff_getElem?.mp hmem
      have hsent := (List.sublist_append_left _ _).trans (h.kept.order channel task htask)
      exact hsent.nodup (h.kept.once channel task htask)
    · rw [List.pairwise_iff_getElem]
      intro one two hone htwo hlt number hmem hmem'
      have hfirst : At ListenerTask.accepted cluster.tasks one number :=
        h.kept.accepted_of_sent ⟨_, List.getElem?_eq_getElem hone, hmem⟩
      have hsecond : At ListenerTask.accepted cluster.tasks two number :=
        h.kept.accepted_of_sent ⟨_, List.getElem?_eq_getElem htwo, hmem'⟩
      exact absurd (h.kept.apart number one two hfirst hsecond) (Nat.ne_of_lt hlt)
  answered number call result hcall hphase :=
    mem_sentTexts.trans ((h.kept.call number call hcall).answered result hphase).2
  waits number call channel hcall hphase hnone := by
    obtain ⟨task, htask, hqueue⟩ := ((h.kept.call number call hcall).pending hnone).2 channel hphase
    refine ⟨task, htask, hqueue, fun hended => ?_, h.held channel task htask⟩
    rw [h.kept.ended channel task htask hended] at hqueue
    exact List.not_mem_nil hqueue
  ordered task hmem := by
    obtain ⟨channel, htask⟩ := List.mem_iff_getElem?.mp hmem
    exact (List.sublist_append_left _ _).trans (h.kept.order channel task htask)

/-- Whatever calls come in, whatever the configuration is changed to, and wherever tasks are
aborted and calls given up. -/
theorem run_sendLaw (moves : List ClusterMove) : (({} : DxClusterManager).run moves).SendLaw := by
  refine Sound.sendLaw (Runs.invariant_run_of_forall Sound (fun _ move h => h.step move) ?_ moves)
  refine ⟨⟨fun _ _ hcall => (by cases hcall), fun _ haccepted => ?_, fun _ _ htask =>
    (by cases htask),
    fun _ _ htask => (by cases htask), fun _ _ _ hone => ?_, fun _ _ htask => (by cases htask)⟩,
    fun _ _ htask => (by cases htask)⟩
  · obtain ⟨_, _, htask, _⟩ := haccepted
    cases htask
  · obtain ⟨_, htask, _⟩ := hone
    cases htask

end DxClusterManager

end Log73.DxCluster
