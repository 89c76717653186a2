import Log73.RadioIo.RadioManager

/-!
One task a radio, references that count the handles, and calls that wait only for a
shutdown that is still under way: what the steps of the manager keep.
-/

namespace Log73.RadioIo

open TreeMap
open Std (ExtTreeMap)

def ManagedRadioSlot.references : Option ManagedRadioSlot → Nat
  | some (.active _ refcount) => refcount
  | _ => 0

/-- The notification a call of `acquire` depends on. -/
def AcquirePhase.awaited : AcquirePhase → Option Nat
  | .found done => some done
  | .waiting done => some done
  | _ => none

namespace RadioManager

/-- A release will still give this notification. -/
def Pending (releases : ExtTreeMap Nat ReleaseCall) (done : Nat) : Prop :=
  ∃ (call : Nat) (release : ReleaseCall), releases[call]? = some release ∧ release.done = done ∧
    release.phase ≠ .notified

/-- A task belongs to an active radio, or to the release that waits for its end. -/
def Owned (manager : RadioManager) (task : Nat) (radioId : Int) : Prop :=
  (∃ refcount, manager.radios[radioId]? = some (.active task refcount)) ∨
    ∃ (call done : Nat), manager.releases[call]? = some ⟨radioId, done, .stopping task⟩

structure Sound (manager : RadioManager) : Prop where
  counted : ∀ radioId : Int,
    manager.handles.count radioId = ManagedRadioSlot.references manager.radios[radioId]?
  referenced : ∀ (radioId : Int) (task refcount : Nat),
    manager.radios[radioId]? = some (.active task refcount) → 0 < refcount
  owned : ∀ (task : Nat) (radioId : Int), manager.tasks[task]? = some radioId →
    manager.Owned task radioId
  stops : ∀ (call : Nat) (release : ReleaseCall), manager.releases[call]? = some release →
    manager.radios[release.radioId]? = some (.shuttingDown release.done)
  single : ∀ (call other : Nat) (release release' : ReleaseCall),
    manager.releases[call]? = some release → manager.releases[other]? = some release' →
      release.radioId = release'.radioId → call = other
  pending : ∀ (call : Nat) (acquire : AcquireCall) (done : Nat),
    manager.acquires[call]? = some acquire → acquire.phase.awaited = some done →
      Pending manager.releases done

/-- What a step needs: no look at a slot between its notification and its removal, and no
notification between a look at the slot and the start of the wait. -/
def StepKeeps (manager : RadioManager) (action : RadioAction) : Prop :=
  match action with
  | .lookUp call | .install call =>
      ∀ (acquire : AcquireCall) (done : Nat), manager.acquires[call]? = some acquire →
        manager.radios[acquire.radioId]? = some (.shuttingDown done) →
          Pending manager.releases done
  | .notify call =>
      ∀ (release : ReleaseCall), manager.releases[call]? = some release →
        ∀ (other : Nat) (acquire : AcquireCall), manager.acquires[other]? = some acquire →
          acquire.phase ≠ .found release.done
  | _ => True

variable {manager : RadioManager}

/-- A call that waits for nothing new, or for a notification that is still to come. -/
theorem Sound.putAcquire (h : manager.Sound) (call : Nat) (radioId : Int) {phase : AcquirePhase}
    (hpending : ∀ done, phase.awaited = some done → Pending manager.releases done) :
    (manager.putAcquire call radioId phase).Sound := by
  refine ⟨h.counted, h.referenced, h.owned, h.stops, h.single, ?_⟩
  intro other acquire done hacquire hawaited
  rw [RadioManager.putAcquire, getElem?_insert_key] at hacquire
  split at hacquire
  · cases hacquire
    exact hpending done hawaited
  · exact h.pending other acquire done hacquire hawaited

/-- A call that is over. -/
theorem Sound.pending_erase (h : manager.Sound) (call other : Nat) (acquire : AcquireCall)
    (done : Nat) (hacquire : (manager.acquires.erase call)[other]? = some acquire)
    (hawaited : acquire.phase.awaited = some done) : Pending manager.releases done := by
  rw [getElem?_erase_key] at hacquire
  split at hacquire
  · cases hacquire
  · exact h.pending other acquire done hacquire hawaited

theorem Sound.acquire (h : manager.Sound) (radioId : Int) : (manager.acquire radioId).Sound := by
  have hput : (manager.putAcquire manager.nextId radioId .entered).Sound :=
    h.putAcquire manager.nextId radioId fun _ hnone => by cases hnone
  exact ⟨hput.counted, hput.referenced, hput.owned, hput.stops, hput.single, hput.pending⟩

/-- One more reference to an active radio. -/
theorem Sound.takeReference (h : manager.Sound) (call : Nat) {radioId : Int} {task refcount : Nat}
    (hslot : manager.radios[radioId]? = some (.active task refcount)) :
    (manager.takeReference call radioId task refcount).Sound := by
  refine ⟨?_, ?_, ?_, ?_, h.single, h.pending_erase call⟩
  · intro other
    rw [RadioManager.takeReference, getElem?_insert_key, List.count_cons, h.counted]
    by_cases heq : radioId = other
    · subst heq
      rw [if_pos rfl, hslot, if_pos (beq_self_eq_true radioId)]
      rfl
    · rw [if_neg heq, if_neg (by simpa using heq), Nat.add_zero]
  · intro other task' refcount' hother
    rw [RadioManager.takeReference, getElem?_insert_key] at hother
    split at hother
    · cases hother
      exact Nat.succ_pos refcount
    · exact h.referenced other task' refcount' hother
  · intro task' other htask
    cases h.owned task' other htask with
    | inl hactive =>
        obtain ⟨refcount', hactive⟩ := hactive
        refine Or.inl ?_
        rw [RadioManager.takeReference, getElem?_insert_key]
        split
        · next heq =>
            rw [heq, hactive] at hslot
            cases hslot
            exact ⟨refcount + 1, rfl⟩
        · exact ⟨refcount', hactive⟩
    | inr hstopping => exact Or.inr hstopping
  · intro other release hrelease
    have hstops := h.stops other release hrelease
    rw [RadioManager.takeReference, getElem?_insert_key]
    split
    · next heq =>
        rw [heq, hstops] at hslot
        cases hslot
    · exact hstops

theorem Sound.lookUp (h : manager.Sound) {call : Nat} (hkeeps : manager.StepKeeps (.lookUp call)) :
    (manager.lookUp call).Sound := by
  rw [RadioManager.lookUp]
  split
  · next radioId hacquire =>
      split
      · next task refcount hslot => exact h.takeReference call hslot
      · next done hslot =>
          refine h.putAcquire call radioId fun other hother => ?_
          cases hother
          exact hkeeps _ done hacquire hslot
      · exact h.putAcquire call radioId fun _ hnone => by cases hnone
  · exact h

theorem Sound.awaitShutdown (h : manager.Sound) (call : Nat) :
    (manager.awaitShutdown call).Sound := by
  rw [RadioManager.awaitShutdown]
  split
  · next radioId done hacquire =>
      exact h.putAcquire call radioId fun other hother => h.pending call _ other hacquire hother
  · exact h

theorem Sound.validate (h : manager.Sound) (call : Nat) (available : Bool) :
    (manager.validate call available).Sound := by
  rw [RadioManager.validate]
  split
  · next radioId _ =>
      split
      · exact h.putAcquire call radioId fun _ hnone => by cases hnone
      · exact ⟨h.counted, h.referenced, h.owned, h.stops, h.single, h.pending_erase call⟩
  · exact h

/-- A new task for a radio without a slot. -/
theorem Sound.install (h : manager.Sound) {call : Nat}
    (hkeeps : manager.StepKeeps (.install call)) :
    (manager.install call).Sound := by
  rw [RadioManager.install]
  split
  · next radioId hacquire =>
      split
      · next task refcount hslot => exact h.takeReference call hslot
      · next done hslot =>
          refine h.putAcquire call radioId fun other hother => ?_
          cases hother
          exact hkeeps _ done hacquire hslot
      · next hslot =>
          refine ⟨?_, ?_, ?_, ?_, h.single, h.pending_erase call⟩
          · intro other
            dsimp only
            rw [getElem?_insert_key, List.count_cons, h.counted]
            by_cases heq : radioId = other
            · subst heq
              rw [if_pos rfl, hslot, if_pos (beq_self_eq_true radioId)]
              rfl
            · rw [if_neg heq, if_neg (by simpa using heq), Nat.add_zero]
          · intro other task refcount hother
            rw [getElem?_insert_key] at hother
            split at hother
            · cases hother
              exact Nat.one_pos
            · exact h.referenced other task refcount hother
          · intro task other htask
            rw [getElem?_insert_key] at htask
            split at htask
            · next heq =>
                cases htask
                exact Or.inl ⟨1, by rw [getElem?_insert_key, if_pos rfl, heq]⟩
            · cases h.owned task other htask with
              | inl hactive =>
                  obtain ⟨refcount, hactive⟩ := hactive
                  refine Or.inl ⟨refcount, ?_⟩
                  rw [getElem?_insert_key, if_neg, hactive]
                  intro heq
                  rw [heq, hactive] at hslot
                  cases hslot
              | inr hstopping => exact Or.inr hstopping
          · intro other release hrelease
            have hstops := h.stops other release hrelease
            rw [getElem?_insert_key, if_neg, hstops]
            intro heq
            rw [heq, hstops] at hslot
            cases hslot
  · exact h

/-- The pending notifications stay when a release is new, or goes on to give its own. -/
theorem Pending.insert {releases : ExtTreeMap Nat ReleaseCall} {done : Nat}
    (h : Pending releases done) {call : Nat} {release : ReleaseCall}
    (hphase : release.phase ≠ .notified)
    (hsame : ∀ old : ReleaseCall, releases[call]? = some old → old.done = release.done) :
    Pending (releases.insert call release) done := by
  obtain ⟨other, old, hold, hdone, hpending⟩ := h
  by_cases heq : call = other
  · subst heq
    refine ⟨call, release, ?_, ?_, hphase⟩
    · rw [getElem?_insert_key, if_pos rfl]
    · rw [← hsame old hold]
      exact hdone
  · refine ⟨other, old, ?_, hdone, hpending⟩
    rw [getElem?_insert_key, if_neg heq]
    exact hold

/-- No release stops a radio that is active. -/
theorem Sound.idle (h : manager.Sound) {radioId : Int} {task refcount : Nat}
    (hslot : manager.radios[radioId]? = some (.active task refcount)) (call : Nat)
    (release : ReleaseCall) (hrelease : manager.releases[call]? = some release) :
    radioId ≠ release.radioId := by
  intro heq
  rw [heq, h.stops call release hrelease] at hslot
  cases hslot

/-- Handles are only held of active radios. -/
theorem Sound.active_of_held (h : manager.Sound) {radioId : Int}
    (hheld : radioId ∈ manager.handles) :
    ∃ task refcount : Nat, manager.radios[radioId]? = some (.active task refcount) ∧
      manager.handles.count radioId = refcount := by
  have hpositive : 0 < manager.handles.count radioId := List.count_pos_iff.mpr hheld
  have hcounted := h.counted radioId
  cases hslot : manager.radios[radioId]? with
  | none =>
      rw [hslot] at hcounted
      exact absurd hcounted (Nat.ne_of_gt hpositive)
  | some slot =>
      rw [hslot] at hcounted
      cases slot with
      | active task refcount => exact ⟨task, refcount, rfl, hcounted⟩
      | shuttingDown done => exact absurd hcounted (Nat.ne_of_gt hpositive)

/-- With a handle the slot of its radio loses one reference. -/
theorem Sound.counted_erase (h : manager.Sound) {radioId : Int} {slot : ManagedRadioSlot}
    (hslot : ManagedRadioSlot.references (some slot) = manager.handles.count radioId - 1)
    (other : Int) : (manager.handles.erase radioId).count other =
      ManagedRadioSlot.references (manager.radios.insert radioId slot)[other]? := by
  rw [getElem?_insert_key, List.count_erase]
  by_cases heq : radioId = other
  · subst heq
    rw [if_pos rfl, if_pos (beq_self_eq_true radioId), hslot]
  · rw [if_neg heq, if_neg (by simpa using heq), Nat.sub_zero]
    exact h.counted other

/-- The release of a radio that no other release stops. -/
theorem Sound.single_insert (h : manager.Sound) {new : ReleaseCall}
    (hidle : ∀ (call : Nat) (release : ReleaseCall), manager.releases[call]? = some release →
      new.radioId ≠ release.radioId) (id call other : Nat) (release release' : ReleaseCall)
    (hrelease : (manager.releases.insert id new)[call]? = some release)
    (hrelease' : (manager.releases.insert id new)[other]? = some release')
    (hradio : release.radioId = release'.radioId) : call = other := by
  rw [getElem?_insert_key] at hrelease hrelease'
  split at hrelease
  · next hcall =>
      split at hrelease'
      · next hother => exact hcall.symm.trans hother
      · cases hrelease
        exact absurd hradio (hidle other release' hrelease')
  · split at hrelease'
    · cases hrelease'
      exact absurd hradio.symm (hidle call release hrelease)
    · exact h.single call other release release' hrelease hrelease' hradio

/-- The task of the last handle belongs to the release that stops it. -/
theorem Sound.owned_stopping (h : manager.Sound) {radioId : Int} {stopped refcount call done : Nat}
    (hslot : manager.radios[radioId]? = some (.active stopped refcount))
    (hnew : manager.releases[call]? = none) (task : Nat) (other : Int)
    (htask : manager.tasks[task]? = some other) :
    (∃ refcount, (manager.radios.insert radioId (.shuttingDown done))[other]? =
        some (.active task refcount)) ∨
      ∃ other' done' : Nat,
        (manager.releases.insert call ⟨radioId, done, .stopping stopped⟩)[other']?
        = some ⟨other, done', .stopping task⟩ := by
  cases h.owned task other htask with
  | inl hactive =>
      obtain ⟨refcount', hactive⟩ := hactive
      by_cases heq : radioId = other
      · rw [← heq, hslot] at hactive
        cases hactive
        refine Or.inr ⟨call, done, ?_⟩
        rw [getElem?_insert_key, if_pos rfl, heq]
      · refine Or.inl ⟨refcount', ?_⟩
        rw [getElem?_insert_key, if_neg heq]
        exact hactive
  | inr hstopping =>
      obtain ⟨other', done', hstopping⟩ := hstopping
      refine Or.inr ⟨other', done', ?_⟩
      rw [getElem?_insert_key, if_neg, hstopping]
      intro heq
      rw [← heq, hnew] at hstopping
      cases hstopping

/-- The last handle: a release stops the task. -/
theorem Sound.release_last (h : manager.Sound) {radioId : Int} {task refcount call done : Nat}
    (hslot : manager.radios[radioId]? = some (.active task refcount))
    (hcount : manager.handles.count radioId = refcount) (hlast : refcount - 1 = 0)
    (hnew : manager.releases[call]? = none) (nextId : Nat) :
    Sound { manager with
      handles := manager.handles.erase radioId
      radios := manager.radios.insert radioId (.shuttingDown done)
      releases := manager.releases.insert call ⟨radioId, done, .stopping task⟩
      nextId := nextId } := by
  have hidle := h.idle hslot
  refine ⟨h.counted_erase ?_, ?_, h.owned_stopping hslot hnew, ?_, h.single_insert hidle call, ?_⟩
  · rw [hcount, hlast]
    rfl
  · intro other task' refcount' hother
    rw [getElem?_insert_key] at hother
    split at hother
    · cases hother
    · exact h.referenced other task' refcount' hother
  · intro other release hrelease
    dsimp only at hrelease ⊢
    rw [getElem?_insert_key] at hrelease
    split at hrelease
    · cases hrelease
      rw [getElem?_insert_key, if_pos rfl]
    · rw [getElem?_insert_key, if_neg (hidle other release hrelease)]
      exact h.stops other release hrelease
  · intro other acquire done' hacquire hawaited
    refine (h.pending other acquire done' hacquire hawaited).insert
      ReleasePhase.noConfusion fun old hold => ?_
    rw [hnew] at hold
    cases hold

/-- The references that are left keep the task. -/
theorem Sound.release_more (h : manager.Sound) {radioId : Int} {task refcount : Nat}
    (hslot : manager.radios[radioId]? = some (.active task refcount))
    (hcount : manager.handles.count radioId = refcount) (hleft : refcount - 1 ≠ 0) :
    Sound { manager with
      handles := manager.handles.erase radioId
      radios := manager.radios.insert radioId (.active task (refcount - 1)) } := by
  refine ⟨h.counted_erase ?_, ?_, ?_, ?_, h.single, h.pending⟩
  · rw [hcount]
    rfl
  · intro other task' refcount' hother
    rw [getElem?_insert_key] at hother
    split at hother
    · cases hother
      exact Nat.pos_of_ne_zero hleft
    · exact h.referenced other task' refcount' hother
  · intro task' other htask
    cases h.owned task' other htask with
    | inl hactive =>
        obtain ⟨refcount', hactive⟩ := hactive
        refine Or.inl ?_
        dsimp only
        rw [getElem?_insert_key]
        split
        · next heq =>
            rw [← heq, hslot] at hactive
            cases hactive
            exact ⟨refcount - 1, rfl⟩
        · exact ⟨refcount', hactive⟩
    | inr hstopping => exact Or.inr hstopping
  · intro call release hrelease
    dsimp only
    rw [getElem?_insert_key, if_neg (h.idle hslot call release hrelease)]
    exact h.stops call release hrelease

/-- The references that are left, or a release that stops the task. -/
theorem Sound.release (h : manager.Sound) (hfresh : ∀ call : Nat, manager.nextId ≤ call →
    manager.releases[call]? = none) (radioId : Int) : (manager.release radioId).Sound := by
  rw [RadioManager.release]
  split
  · next hheld =>
      obtain ⟨task, refcount, hslot, hcount⟩ := h.active_of_held hheld
      simp only [hslot]
      split
      · next hlast => exact h.release_last hslot hcount hlast (hfresh _ (Nat.le_succ _)) _
      · next hleft => exact h.release_more hslot hcount hleft
  · exact h

theorem Sound.endTask (h : manager.Sound) (task : Nat) : (manager.endTask task).Sound := by
  refine ⟨h.counted, h.referenced, ?_, h.stops, h.single, h.pending⟩
  intro other radioId hother
  rw [RadioManager.endTask, getElem?_erase_key] at hother
  split at hother
  · cases hother
  · exact h.owned other radioId hother

/-- A release goes on with its radio and its notification. -/
theorem Sound.putRelease (h : manager.Sound) {call : Nat} {old : ReleaseCall}
    (hold : manager.releases[call]? = some old) (release : ReleaseCall)
    (hradio : release.radioId = old.radioId) (hdone : release.done = old.done)
    (htask : ∀ task : Nat, old.phase = .stopping task → manager.tasks[task]? = none)
    (acquires : ExtTreeMap Nat AcquireCall)
    (hpending : ∀ (other : Nat) (acquire : AcquireCall) (done : Nat),
      acquires[other]? = some acquire → acquire.phase.awaited = some done →
        Pending (manager.releases.insert call release) done) :
    Sound { manager.putRelease call release with acquires := acquires } := by
  refine ⟨h.counted, h.referenced, ?_, ?_, ?_, hpending⟩
  · intro task radioId hrunning
    cases h.owned task radioId hrunning with
    | inl hactive => exact Or.inl hactive
    | inr hstopping =>
        obtain ⟨other, done, hstopping⟩ := hstopping
        refine Or.inr ⟨other, done, ?_⟩
        rw [RadioManager.putRelease, getElem?_insert_key, if_neg, hstopping]
        intro heq
        rw [← heq, hold] at hstopping
        cases hstopping
        have hended : manager.tasks[task]? = none := htask task rfl
        have hrunning : manager.tasks[task]? = some radioId := hrunning
        rw [hended] at hrunning
        cases hrunning
  · intro other release' hrelease
    rw [RadioManager.putRelease, getElem?_insert_key] at hrelease
    split at hrelease
    · cases hrelease
      rw [hradio, hdone]
      exact h.stops call old hold
    · exact h.stops other release' hrelease
  · intro first second release₁ release₂ hfirst hsecond heq
    rw [RadioManager.putRelease, getElem?_insert_key] at hfirst hsecond
    split at hfirst
    · next hcall =>
        cases hfirst
        split at hsecond
        · next hother => exact hcall.symm.trans hother
        · rw [← hcall]
          exact h.single call second old release₂ hold hsecond (hradio.symm.trans heq)
    · split at hsecond
      · next hcall =>
          cases hsecond
          rw [← hcall]
          exact h.single first call release₁ old hfirst hold (heq.trans hradio)
      · exact h.single first second release₁ release₂ hfirst hsecond heq

theorem Sound.joinTask (h : manager.Sound) (call : Nat) : (manager.joinTask call).Sound := by
  rw [RadioManager.joinTask]
  split
  · next radioId done task hold =>
      split
      · exact h
      · next hended =>
          refine h.putRelease hold ⟨radioId, done, .stopped⟩ rfl rfl ?_ manager.acquires ?_
          · intro other hother
            cases hother
            exact ExtTreeMap.getElem?_eq_none_of_contains_eq_false (Bool.not_eq_true _ ▸ hended)
          · intro other acquire awaited hacquire hawaited
            refine (h.pending other acquire awaited hacquire hawaited).insert
              ReleasePhase.noConfusion fun old' hold' => ?_
            rw [hold] at hold'
            cases hold'
            rfl
  · exact h

/-- Every call that waits for the notification is woken, and none is about to wait for it. -/
theorem Sound.notify (h : manager.Sound) {call : Nat} (hkeeps : manager.StepKeeps (.notify call)) :
    (manager.notify call).Sound := by
  rw [RadioManager.notify]
  split
  · next radioId done hold =>
      refine h.putRelease hold ⟨radioId, done, .notified⟩ rfl rfl (fun _ hother => by cases hother)
        _ ?_
      intro other acquire awaited hacquire hawaited
      rw [ExtTreeMap.getElem?_map] at hacquire
      obtain ⟨before, hbefore, heq⟩ := Option.map_eq_some_iff.mp hacquire
      split at heq
      · cases heq
        cases hawaited
      · next hnot =>
          subst heq
          obtain ⟨giving, release, hgiving, hdone, hpending⟩ :=
            h.pending other before awaited hbefore hawaited
          refine ⟨giving, release, ?_, hdone, hpending⟩
          rw [getElem?_insert_key, if_neg]
          · exact hgiving
          · intro hcall
            rw [← hcall, hold] at hgiving
            cases hgiving
            have hdone : done = awaited := hdone
            subst hdone
            cases hphase : before.phase with
            | found other' =>
                rw [hphase] at hawaited
                cases hawaited
                exact hkeeps _ hold other before hbefore hphase
            | waiting other' =>
                rw [hphase] at hawaited
                cases hawaited
                exact hnot hphase
            | entered | validating | validated =>
                rw [hphase] at hawaited
                cases hawaited
  · exact h

theorem Sound.removeSlot (h : manager.Sound) (call : Nat) : (manager.removeSlot call).Sound := by
  rw [RadioManager.removeSlot]
  split
  · next radioId done hold =>
      have hstops := h.stops call _ hold
      dsimp only at hstops ⊢
      rw [hstops]
      refine ⟨?_, ?_, ?_, ?_, ?_, ?_⟩
      · intro other
        dsimp only
        rw [h.counted, getElem?_erase_key]
        split
        · next heq =>
            rw [← heq, hstops]
            rfl
        · rfl
      · intro other task refcount hother
        rw [getElem?_erase_key] at hother
        split at hother
        · cases hother
        · exact h.referenced other task refcount hother
      · intro task other htask
        cases h.owned task other htask with
        | inl hactive =>
            obtain ⟨refcount, hactive⟩ := hactive
            refine Or.inl ⟨refcount, ?_⟩
            rw [getElem?_erase_key, if_neg, hactive]
            intro heq
            rw [← heq, hstops] at hactive
            cases hactive
        | inr hstopping =>
            obtain ⟨giving, done', hstopping⟩ := hstopping
            refine Or.inr ⟨giving, done', ?_⟩
            rw [getElem?_erase_key, if_neg, hstopping]
            intro heq
            rw [← heq, hold] at hstopping
            cases hstopping
      · intro other release hrelease
        dsimp only at hrelease ⊢
        rw [getElem?_erase_key] at hrelease
        split at hrelease
        · cases hrelease
        · next hne =>
            rw [getElem?_erase_key, if_neg]
            · exact h.stops other release hrelease
            · exact fun hradio => hne (h.single call other _ release hold hrelease hradio)
      · intro first second release release' hfirst hsecond heq
        dsimp only at hfirst hsecond
        rw [getElem?_erase_key] at hfirst hsecond
        split at hfirst
        · cases hfirst
        · split at hsecond
          · cases hsecond
          · exact h.single first second release release' hfirst hsecond heq
      · intro other acquire awaited hacquire hawaited
        obtain ⟨giving, release, hgiving, hdone, hpending⟩ :=
          h.pending other acquire awaited hacquire hawaited
        refine ⟨giving, release, ?_, hdone, hpending⟩
        dsimp only
        rw [getElem?_erase_key, if_neg, hgiving]
        intro heq
        rw [← heq, hold] at hgiving
        cases hgiving
        exact hpending rfl
  · exact h

/-- New calls get numbers of their own, and a slot that shuts down has its release. -/
structure Attended (manager : RadioManager) : Prop where
  fresh : ∀ call : Nat, manager.nextId ≤ call → manager.releases[call]? = none
  attended : ∀ (radioId : Int) (done : Nat),
    manager.radios[radioId]? = some (.shuttingDown done) →
      ∃ (call : Nat) (release : ReleaseCall), manager.releases[call]? = some release ∧
        release.radioId = radioId

/-- A slot of an active radio hides no other. -/
theorem Attended.activate (h : manager.Attended) (radioId other : Int) (task refcount done : Nat)
    (hother : (manager.radios.insert radioId (.active task refcount))[other]? =
      some (.shuttingDown done)) :
    ∃ (call : Nat) (release : ReleaseCall), manager.releases[call]? = some release ∧
      release.radioId = other := by
  rw [getElem?_insert_key] at hother
  split at hother
  · cases hother
  · exact h.attended other done hother

theorem Attended.putRelease (h : manager.Attended) {call : Nat} {old : ReleaseCall}
    (hold : manager.releases[call]? = some old) (release : ReleaseCall)
    (hradio : release.radioId = old.radioId) (acquires : ExtTreeMap Nat AcquireCall) :
    Attended { manager.putRelease call release with acquires := acquires } := by
  refine ⟨fun other hother => ?_, fun radioId done hslot => ?_⟩
  · rw [RadioManager.putRelease, getElem?_insert_key, if_neg]
    · exact h.fresh other hother
    · intro heq
      rw [h.fresh call (heq ▸ hother)] at hold
      cases hold
  · obtain ⟨giving, release', hgiving, hsame⟩ := h.attended radioId done hslot
    rw [RadioManager.putRelease]
    by_cases heq : call = giving
    · subst heq
      rw [hold] at hgiving
      cases hgiving
      exact ⟨call, release, by rw [getElem?_insert_key, if_pos rfl], hradio.trans hsame⟩
    · exact ⟨giving, release', by rw [getElem?_insert_key, if_neg heq, hgiving], hsame⟩

theorem Attended.release (h : manager.Attended) (radioId : Int) :
    (manager.release radioId).Attended := by
  rw [RadioManager.release]
  split
  · dsimp only
    split
    · next task refcount _ =>
        split
        · refine ⟨fun call hcall => ?_, fun other done hother => ?_⟩
          · dsimp only at hcall ⊢
            rw [getElem?_insert_key, if_neg (by omega)]
            exact h.fresh call (by omega)
          · dsimp only at hother ⊢
            rw [getElem?_insert_key] at hother
            split at hother
            · next heq =>
                exact ⟨manager.nextId + 1, _, by rw [getElem?_insert_key, if_pos rfl], heq⟩
            · obtain ⟨call, release, hrelease, hradio⟩ := h.attended other done hother
              refine ⟨call, release, ?_, hradio⟩
              rw [getElem?_insert_key, if_neg, hrelease]
              intro heq
              rw [← heq, h.fresh _ (by omega)] at hrelease
              cases hrelease
        · exact ⟨h.fresh, fun other done => h.activate radioId other task _ done⟩
    · exact ⟨h.fresh, h.attended⟩
  · exact h

theorem Attended.removeSlot (h : manager.Attended) (call : Nat) :
    (manager.removeSlot call).Attended := by
  rw [RadioManager.removeSlot]
  split
  · next radioId done hold =>
      have hfresh : ∀ other : Nat, manager.nextId ≤ other →
          (manager.releases.erase call)[other]? = none := by
        intro other hother
        rw [getElem?_erase_key, h.fresh other hother, ite_self]
      have hothers (other : Int) (hne : radioId ≠ other) (done : Nat)
          (hslot : manager.radios[other]? = some (.shuttingDown done)) :
          ∃ (giving : Nat) (release : ReleaseCall),
            (manager.releases.erase call)[giving]? = some release ∧ release.radioId = other := by
        obtain ⟨giving, release, hgiving, hradio⟩ := h.attended other done hslot
        refine ⟨giving, release, ?_, hradio⟩
        rw [getElem?_erase_key, if_neg, hgiving]
        intro heq
        rw [← heq, hold] at hgiving
        cases hgiving
        exact hne hradio
      dsimp only
      split
      · refine ⟨hfresh, fun other done' hother => ?_⟩
        rw [getElem?_erase_key] at hother
        split at hother
        · cases hother
        · next hne => exact hothers other hne done' hother
      · next hactive =>
          refine ⟨hfresh, fun other done' hother => hothers other (fun heq => ?_) done' hother⟩
          subst heq
          exact hactive done' hother
  · exact h

theorem Attended.step (h : manager.Attended) (action : RadioAction) :
    (manager.step action).Attended := by
  cases action with
  | acquire radioId => exact ⟨fun call hcall => h.fresh call (Nat.le_of_succ_le hcall), h.attended⟩
  | lookUp call =>
      rw [RadioManager.step, RadioManager.lookUp]
      split
      · next radioId _ =>
          split
          · exact ⟨h.fresh, fun other done => h.activate radioId other _ _ done⟩
          · exact ⟨h.fresh, h.attended⟩
          · exact ⟨h.fresh, h.attended⟩
      · exact h
  | awaitShutdown call =>
      rw [RadioManager.step, RadioManager.awaitShutdown]
      split
      · exact ⟨h.fresh, h.attended⟩
      · exact h
  | validate call available =>
      rw [RadioManager.step, RadioManager.validate]
      split
      · split
        · exact ⟨h.fresh, h.attended⟩
        · exact ⟨h.fresh, h.attended⟩
      · exact h
  | install call =>
      rw [RadioManager.step, RadioManager.install]
      split
      · next radioId _ =>
          split
          · exact ⟨h.fresh, fun other done => h.activate radioId other _ _ done⟩
          · exact ⟨h.fresh, h.attended⟩
          · exact ⟨fun call hcall => h.fresh call (Nat.le_of_succ_le hcall),
              fun other done => h.activate radioId other _ _ done⟩
      · exact h
  | release radioId => exact h.release radioId
  | endTask task => exact ⟨h.fresh, h.attended⟩
  | joinTask call =>
      rw [RadioManager.step, RadioManager.joinTask]
      split
      · next hold =>
          split
          · exact h
          · exact h.putRelease hold ⟨_, _, .stopped⟩ rfl manager.acquires
      · exact h
  | notify call =>
      rw [RadioManager.step, RadioManager.notify]
      split
      · next hold => exact h.putRelease hold ⟨_, _, .notified⟩ rfl _
      · exact h
  | removeSlot call => exact h.removeSlot call

theorem Sound.step (h : manager.Sound) (hattended : manager.Attended) {action : RadioAction}
    (hkeeps : manager.StepKeeps action) : (manager.step action).Sound := by
  cases action with
  | acquire radioId => exact h.acquire radioId
  | lookUp call => exact h.lookUp hkeeps
  | awaitShutdown call => exact h.awaitShutdown call
  | validate call available => exact h.validate call available
  | install call => exact h.install hkeeps
  | release radioId => exact h.release hattended.fresh radioId
  | endTask task => exact h.endTask task
  | joinTask call => exact h.joinTask call
  | notify call => exact h.notify hkeeps
  | removeSlot call => exact h.removeSlot call

theorem sound_empty : Sound {} where
  counted radioId := by simp [ManagedRadioSlot.references]
  referenced _ _ _ h := by simp at h
  owned _ _ h := by simp at h
  stops _ _ h := by simp at h
  single _ _ _ _ h := by simp at h
  pending _ _ _ h := by simp at h

theorem attended_empty : Attended {} where
  fresh _ _ := by simp
  attended _ _ h := by simp at h

/-- What holds of the radios whenever the lock is free. A call that waits has its notification
before it, and without a release under way none waits or finds a slot to wait for. -/
structure Guarantees (manager : RadioManager) : Prop where
  oneTask : ∀ (task other : Nat) (radioId : Int), manager.tasks[task]? = some radioId →
    manager.tasks[other]? = some radioId → task = other
  refcount : ∀ (radioId : Int) (task refcount : Nat),
    manager.radios[radioId]? = some (.active task refcount) →
      refcount = manager.handles.count radioId
  awaited : ∀ (call : Nat) (acquire : AcquireCall) (done : Nat),
    manager.acquires[call]? = some acquire → acquire.phase = .waiting done →
      Pending manager.releases done
  proceeds : (∀ call : Nat, manager.releases[call]? = none) →
    (∀ (call : Nat) (acquire : AcquireCall), manager.acquires[call]? = some acquire →
      acquire.phase.awaited = none) ∧
    ∀ (radioId : Int) (done : Nat), manager.radios[radioId]? ≠ some (.shuttingDown done)

theorem Sound.guarantees (h : manager.Sound) (hattended : manager.Attended) :
    manager.Guarantees where
  oneTask task other radioId htask hother := by
    cases h.owned task radioId htask with
    | inl hactive =>
        obtain ⟨refcount, hactive⟩ := hactive
        cases h.owned other radioId hother with
        | inl hactive' =>
            obtain ⟨refcount', hactive'⟩ := hactive'
            rw [hactive] at hactive'
            cases hactive'
            rfl
        | inr hstopping =>
            obtain ⟨call, done, hstopping⟩ := hstopping
            have hstops := h.stops call _ hstopping
            dsimp only at hstops
            rw [hactive] at hstops
            cases hstops
    | inr hstopping =>
        obtain ⟨call, done, hstopping⟩ := hstopping
        cases h.owned other radioId hother with
        | inl hactive =>
            obtain ⟨refcount, hactive⟩ := hactive
            have hstops := h.stops call _ hstopping
            dsimp only at hstops
            rw [hactive] at hstops
            cases hstops
        | inr hstopping' =>
            obtain ⟨call', done', hstopping'⟩ := hstopping'
            have hcall := h.single call call' _ _ hstopping hstopping' rfl
            rw [← hcall, hstopping] at hstopping'
            cases hstopping'
            rfl
  refcount radioId task refcount hslot := by
    rw [h.counted, hslot]
    rfl
  awaited call acquire done hacquire hphase := by
    apply h.pending call acquire done hacquire
    rw [hphase]
    rfl
  proceeds hidle := by
    refine ⟨fun call acquire hacquire => ?_, fun radioId done hslot => ?_⟩
    · cases hawaited : acquire.phase.awaited with
      | none => rfl
      | some done =>
          obtain ⟨giving, release, hgiving, -⟩ := h.pending call acquire done hacquire hawaited
          rw [hidle giving] at hgiving
          cases hgiving
    · obtain ⟨giving, release, hgiving, -⟩ := hattended.attended radioId done hslot
      rw [hidle giving] at hgiving
      cases hgiving

/-- In every run without a look that comes too late, or a wait that starts too late, one task a
radio runs, references count the handles, and no call waits for what was given already. -/
theorem guarantees_of_keeps (actions : List RadioAction)
    (h : Runs.Keeps step StepKeeps {} actions) : (run {} actions).Guarantees := by
  have hrun : (run {} actions).Sound ∧ (run {} actions).Attended :=
    Runs.invariant_run (fun manager : RadioManager => manager.Sound ∧ manager.Attended)
      (fun manager action hinvariant hkeeps =>
        ⟨hinvariant.1.step hinvariant.2 hkeeps, hinvariant.2.step action⟩)
      ⟨sound_empty, attended_empty⟩ h
  exact hrun.1.guarantees hrun.2

end RadioManager

/-- A radio is acquired and started. -/
def startedActions : List RadioAction :=
  [.acquire 1, .lookUp 0, .validate 0 true, .install 0]

/-- The last reference is released, and another call finds the slot. -/
def foundActions : List RadioAction :=
  startedActions ++ [.release 1, .acquire 1, .lookUp 4]

/-- The shutdown is over before the call starts to wait. -/
def lostActions : List RadioAction :=
  foundActions ++ [.endTask 1, .joinTask 3, .notify 3, .removeSlot 3, .awaitShutdown 4]

/-- The call waits before the shutdown is over. -/
def waitedActions : List RadioAction :=
  foundActions ++ [.awaitShutdown 4, .endTask 1, .joinTask 3]

/-- It is woken, and starts the radio again. -/
def restartedActions : List RadioAction :=
  waitedActions ++ [.notify 3, .removeSlot 3, .lookUp 4, .validate 4 true, .install 4]

namespace RadioManager

/-- A look where there is no slot. -/
theorem looksIdle {manager : RadioManager} {call : Nat} (acquire : AcquireCall)
    (hacquire : manager.acquires[call]? = some acquire)
    (hslot : manager.radios[acquire.radioId]? = none) :
    ∀ (other : AcquireCall) (done : Nat), manager.acquires[call]? = some other →
      manager.radios[other.radioId]? = some (.shuttingDown done) →
        Pending manager.releases done := by
  intro other done hother hdown
  rw [hacquire] at hother
  cases hother
  rw [hslot] at hdown
  cases hdown

theorem guarantees_of_keeps_restarted : (run {} restartedActions).Guarantees := by
  apply guarantees_of_keeps
  refine ⟨trivial, ?_, trivial, ?_, trivial, trivial, ?_, trivial, trivial, trivial, ?_,
    trivial, ?_,
    trivial, ?_, trivial⟩
  · exact looksIdle ⟨1, .entered⟩ (by decide +kernel) (by decide +kernel)
  · exact looksIdle ⟨1, .validated⟩ (by decide +kernel) (by decide +kernel)
  · intro acquire done hacquire hdown
    have hfound : (run {} foundActions.dropLast).acquires[4]? = some ⟨1, .entered⟩ := by
      decide +kernel
    have hslot : (run {} foundActions.dropLast).radios[(1 : Int)]? = some (.shuttingDown 2) := by
      decide +kernel
    cases Option.some.inj (hfound.symm.trans hacquire)
    cases Option.some.inj (hslot.symm.trans hdown)
    exact ⟨3, ⟨1, 2, .stopping 1⟩, by decide +kernel, rfl, ReleasePhase.noConfusion⟩
  · intro release hrelease other acquire hacquire hphase
    have hstopped : (run {} waitedActions).releases[3]? = some ⟨1, 2, .stopped⟩ := by
      decide +kernel
    have hwaits : ∀ entry ∈ (run {} waitedActions).acquires.toList, entry.2.phase = .waiting 2 := by
      decide +kernel
    cases Option.some.inj (hstopped.symm.trans hrelease)
    have hwaiting := hwaits (other, acquire)
        (ExtTreeMap.mem_toList_iff_getElem?_eq_some.mpr hacquire)
    dsimp only at hwaiting
    rw [hwaiting] at hphase
    cases hphase
  · exact looksIdle ⟨1, .entered⟩ (by decide +kernel) (by decide +kernel)
  · exact looksIdle ⟨1, .validated⟩ (by decide +kernel) (by decide +kernel)

theorem not_guarantees_lost : ¬ (run {} lostActions).Guarantees := by
  intro h
  have hwaiting : (run {} lostActions).acquires[4]? = some ⟨1, .waiting 2⟩ := by decide +kernel
  obtain ⟨call, release, hrelease, -⟩ := h.awaited 4 _ 2 hwaiting rfl
  have hnone : (run {} lostActions).releases = ∅ := by
    rw [← ExtTreeMap.isEmpty_iff]
    decide +kernel
  rw [hnone, ExtTreeMap.getElem?_empty] at hrelease
  cases hrelease

end RadioManager

end Log73.RadioIo
