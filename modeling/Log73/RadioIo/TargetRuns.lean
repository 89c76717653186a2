import Log73.RadioIo.TargetAgreement
import Log73.Library.Slices

/-! Runs of registrations, releases, selections and broadcasts. -/

namespace Log73.RadioIo

open ListenerManager

variable {ρ : Type} {manager later : ListenerManager ρ} {pages rest : List LoggerPage}
  {page : LoggerPage}

/-- A page whose socket has registered the logger. -/
def LoggerPage.isFor (radioId : Int) (loggerId : String) (page : LoggerPage) : Bool :=
  page.initial.isSome && page.logger.radioId = radioId && page.logger.loggerId = loggerId

/-- The registrations count the registered pages, all for the same log, and name the target. -/
structure Registered (manager : ListenerManager ρ) (pages : List LoggerPage) : Prop where
  target : ∀ radioId target, manager.targetOf radioId = some target →
    ∃ registration, manager.registered radioId target.loggerId = some registration ∧
      registration.logId = target.logId
  counted : ∀ radioId loggerId,
    LoggerRegistration.references (manager.registered radioId loggerId) =
      pages.countP (LoggerPage.isFor radioId loggerId)
  logs : ∀ page ∈ pages, page.initial.isSome → ∃ registration,
    manager.registered page.logger.radioId page.logger.loggerId = some registration ∧
      registration.logId = page.logger.logId

namespace Registered

theorem perm (h : Registered manager pages) (hperm : rest.Perm pages) :
    Registered manager rest where
  target := h.target
  counted radioId loggerId := (h.counted radioId loggerId).trans (hperm.countP_eq _).symm
  logs page hpage := h.logs page (hperm.mem_iff.mp hpage)

/-- A page whose logger is not registered does not count. -/
theorem cons_iff (hpage : page.initial = none) :
    Registered manager (page :: rest) ↔ Registered manager rest := by
  have hcount : ∀ radioId loggerId, (page :: rest).countP (LoggerPage.isFor radioId loggerId) =
      rest.countP (LoggerPage.isFor radioId loggerId) := by
    intro radioId loggerId
    rw [List.countP_cons, LoggerPage.isFor, hpage]
    rfl
  constructor
  · intro h
    refine ⟨h.target, fun radioId loggerId => ?_, fun other hother => ?_⟩
    · exact (h.counted radioId loggerId).trans (hcount radioId loggerId)
    · exact h.logs other (List.mem_cons_of_mem _ hother)
  · intro h
    refine ⟨h.target, fun radioId loggerId => ?_, fun other hother hsome => ?_⟩
    · exact (h.counted radioId loggerId).trans (hcount radioId loggerId).symm
    · cases List.mem_cons.mp hother with
      | inl heq =>
          rw [heq, hpage] at hsome
          cases hsome
      | inr hrest => exact h.logs other hrest hsome

theorem acquired (h : Registered manager rest) {state : TargetState}
    (hacquired : Acquired manager later page.logger.radioId page.logger.loggerId
      page.logger.logId state) :
    Registered later ({ page with initial := some state } :: rest) := by
  have hkept : ∀ {radioId loggerId registration},
      manager.registered radioId loggerId = some registration →
        ∃ registration', later.registered radioId loggerId = some registration' ∧
          registration'.logId = registration.logId := by
    intro radioId loggerId registration hregistration
    rw [hacquired.registered]
    split
    · next heq =>
        obtain ⟨rfl, rfl⟩ := heq
        exact ⟨_, rfl, (hacquired.same_log registration hregistration).symm⟩
    · exact ⟨registration, hregistration, rfl⟩
  constructor
  case target =>
    intro radioId target htarget
    rw [hacquired.targetOf] at htarget
    obtain ⟨registration, hregistration, hlog⟩ := h.target radioId target htarget
    obtain ⟨registration', hregistration', hlog'⟩ := hkept hregistration
    exact ⟨registration', hregistration', hlog'.trans hlog⟩
  case counted =>
    intro radioId loggerId
    rw [hacquired.registered, List.countP_cons, LoggerPage.isFor, ← h.counted]
    by_cases heq : page.logger.radioId = radioId ∧ page.logger.loggerId = loggerId
    · obtain ⟨rfl, rfl⟩ := heq
      simp [LoggerRegistration.references]
    · rw [if_neg heq, if_neg]
      · rfl
      · simpa [and_assoc] using heq
  case logs =>
    intro other hother hsome
    cases List.mem_cons.mp hother with
    | inl heq =>
        rw [heq, hacquired.registered, if_pos ⟨rfl, rfl⟩]
        exact ⟨_, rfl, rfl⟩
    | inr hrest =>
        obtain ⟨registration, hregistration, hlog⟩ := h.logs other hrest hsome
        obtain ⟨registration', hregistration', hlog'⟩ := hkept hregistration
        exact ⟨registration', hregistration', hlog'.trans hlog⟩

theorem release (h : Registered manager (page :: rest)) (hsome : page.initial.isSome) :
    Registered (manager.release page.logger.radioId page.logger.loggerId) rest := by
  obtain ⟨mine, hmine, hlog⟩ := h.logs page List.mem_cons_self hsome
  have hcount : mine.refcount = rest.countP
      (LoggerPage.isFor page.logger.radioId page.logger.loggerId) + 1 := by
    have hcounted := h.counted page.logger.radioId page.logger.loggerId
    rw [hmine, List.countP_cons] at hcounted
    simpa [LoggerRegistration.references, LoggerPage.isFor, hsome] using hcounted
  have hkept : ∀ {radioId loggerId registration},
      manager.registered radioId loggerId = some registration →
        (page.logger.radioId = radioId → page.logger.loggerId = loggerId → mine.drop ≠ none) →
          ∃ left, (manager.release page.logger.radioId page.logger.loggerId).registered radioId
            loggerId = some left ∧ left.logId = registration.logId := by
    intro radioId loggerId registration hregistration hstays
    rw [registered_release]
    split
    · next heq =>
        obtain ⟨rfl, rfl⟩ := heq
        rw [hmine] at hregistration ⊢
        cases hregistration
        obtain ⟨left, hleft⟩ := Option.ne_none_iff_exists'.mp (hstays rfl rfl)
        exact ⟨left, hleft, LoggerRegistration.logId_of_drop hleft⟩
    · exact ⟨registration, hregistration, rfl⟩
  constructor
  case target =>
    intro radioId target htarget
    have hregistered : ∀ target, manager.targetOf page.logger.radioId = some target →
        ∃ registration, manager.registered page.logger.radioId target.loggerId =
          some registration := fun target htarget =>
      (h.target page.logger.radioId target htarget).imp fun _ => And.left
    cases @release_cases _ _ _ page.logger.loggerId hregistered with
    | inl hgone =>
        have hother : page.logger.radioId ≠ radioId := by
          rintro rfl
          rw [hgone.target] at htarget
          cases htarget
        rw [hgone.others radioId hother] at htarget
        obtain ⟨registration, hregistration, hsame⟩ := h.target radioId target htarget
        obtain ⟨left, hleft, hlogId⟩ := hkept hregistration fun heq => absurd heq hother
        exact ⟨left, hleft, hlogId.trans hsame⟩
    | inr hstays =>
        rw [hstays.targetOf] at htarget
        obtain ⟨registration, hregistration, hsame⟩ := h.target radioId target htarget
        obtain ⟨left, hleft, hlogId⟩ := hkept hregistration fun hradio hlogger =>
          hstays.kept mine hmine (by simp [isTargetOf, hradio, hlogger, htarget])
        exact ⟨left, hleft, hlogId.trans hsame⟩
  case counted =>
    intro radioId loggerId
    rw [registered_release]
    split
    · next heq =>
        obtain ⟨rfl, rfl⟩ := heq
        rw [hmine, Option.bind_some, LoggerRegistration.drop]
        split
        · next hlast => simp only [LoggerRegistration.references]; omega
        · simp only [LoggerRegistration.references]; omega
    · next hother =>
        rw [h.counted, List.countP_cons, if_neg, Nat.add_zero]
        simpa [LoggerPage.isFor, hsome] using hother
  case logs =>
    intro other hother hregistered
    obtain ⟨registration, hregistration, hsame⟩ :=
      h.logs other (List.mem_cons_of_mem _ hother) hregistered
    obtain ⟨left, hleft, hlogId⟩ := hkept hregistration fun hradio hlogger => by
      have hpos : 0 < rest.countP
          (LoggerPage.isFor page.logger.radioId page.logger.loggerId) := by
        refine List.countP_pos_iff.mpr ⟨other, hother, ?_⟩
        simp [LoggerPage.isFor, hregistered, hradio, hlogger]
      rw [LoggerRegistration.drop, if_neg (by omega)]
      exact Option.some_ne_none _
    exact ⟨left, hleft, hlogId.trans hsame⟩

theorem targeted (h : Registered manager pages) {radioId : Int} {loggerId : String}
    {state : TargetState} (htargeted : Targeted manager later radioId loggerId state) :
    Registered later pages := by
  constructor
  case target =>
    intro other target htarget
    rw [htargeted.registered]
    rcases eq_or_ne radioId other with rfl | hother
    · obtain ⟨registration, enabled, hregistration, hnext⟩ := htargeted.targetOf
      rw [hnext, nextTarget] at htarget
      split at htarget
      · cases htarget
        exact ⟨registration, hregistration, rfl⟩
      · split at htarget
        · cases htarget
        · exact h.target radioId target htarget
    · rw [htargeted.others other hother] at htarget
      exact h.target other target htarget
  case counted =>
    intro other logger
    rw [htargeted.registered]
    exact h.counted other logger
  case logs =>
    intro page hpage hsome
    rw [htargeted.registered]
    exact h.logs page hpage hsome

theorem one_log (h : Registered manager pages) {other : LoggerPage} (hpage : page ∈ pages)
    (hother : other ∈ pages) (hsome : page.initial.isSome) (hsome' : other.initial.isSome)
    (hradio : page.logger.radioId = other.logger.radioId)
    (hlogger : page.logger.loggerId = other.logger.loggerId) :
    page.logger.logId = other.logger.logId := by
  obtain ⟨registration, hregistration, hlog⟩ := h.logs page hpage hsome
  obtain ⟨registration', hregistration', hlog'⟩ := h.logs other hother hsome'
  rw [hradio, hlogger, hregistration'] at hregistration
  cases hregistration
  exact hlog.symm.trans hlog'

end Registered

namespace TargetSystem

variable {system after : TargetSystem ρ} {radioId : Int} {since : Nat} {state : TargetState}

/-- The targets of a radio that were found or broadcast since then. -/
def recorded (system : TargetSystem ρ) (since : Nat) (radioId : Int) : List TargetState :=
  (system.sent.drop since ++ system.pending).filter (·.radioId = radioId)

/-- Who was told the state then and hears everything since will know the target. -/
def Knows (system : TargetSystem ρ) (since : Nat) (radioId : Int) (state : TargetState) : Prop :=
  (system.recorded since radioId).getLast?.getD state =
    targetState radioId (system.manager.targetOf radioId)

/-- A call finds new targets. -/
theorem Knows.record (h : system.Knows since radioId state) (states : List TargetState)
    (hsent : after.sent = system.sent) (hpending : after.pending = system.pending ++ states)
    (hstates : (states.filter (·.radioId = radioId)).getLast?.getD
        (targetState radioId (system.manager.targetOf radioId)) =
      targetState radioId (after.manager.targetOf radioId)) :
    after.Knows since radioId state := by
  rw [Knows, recorded] at h
  rw [Knows, recorded, hsent, hpending, ← List.append_assoc, List.filter_append,
    List.getLast?_append, ← hstates, ← h]
  cases (states.filter (·.radioId = radioId)).getLast? <;> simp

/-- What is broadcast in order is only moved. -/
theorem recorded_send {index : Nat} (hstate : system.pending[index]? = some state)
    (horder : system.InOrder (.send index)) (hsince : since ≤ system.sent.length) :
    (system.step (.send index)).recorded since radioId = system.recorded since radioId := by
  have hlt := Slices.length_of_getElem? hstate
  have hsplit : system.pending =
      system.pending.take index ++ state :: system.pending.drop (index + 1) := by
    have hget : system.pending[index] = state := (List.getElem?_eq_some_iff.mp hstate).2
    rw [← hget, List.getElem_cons_drop, List.take_append_drop]
  have hearlier : ∀ earlier ∈ system.pending.take index, earlier.radioId ≠ state.radioId :=
    horder state hstate
  rw [recorded, recorded, step, hstate, Option.elim_some, List.eraseIdx_eq_take_drop_succ,
    List.drop_append_of_le_length hsince]
  conv_rhs => rw [hsplit]
  by_cases hradio : state.radioId = radioId
  · have hnone : (system.pending.take index).filter (·.radioId = radioId) = [] := by
      refine List.filter_eq_nil_iff.mpr fun earlier hmem => ?_
      rw [← hradio]
      simpa using hearlier earlier hmem
    simp [hnone, hradio]
  · simp [hradio]

theorem Knows.send (h : system.Knows since radioId state) {index : Nat}
    (horder : system.InOrder (.send index)) (hsince : since ≤ system.sent.length) :
    (system.step (.send index)).Knows since radioId state := by
  cases hstate : system.pending[index]? with
  | none =>
      rw [step, hstate]
      exact h
  | some sent =>
      have hmanager : (system.step (.send index)).manager = system.manager := by
        rw [step, hstate]
        rfl
      rw [Knows, recorded_send hstate horder hsince, hmanager]
      exact h

/-- A state read under the lock is as good as what was heard before. -/
theorem Knows.read (h : system.Knows 0 radioId (noTargetState radioId)) (since : Nat) :
    system.Knows since radioId (targetState radioId (system.manager.targetOf radioId)) := by
  have hsplit : system.recorded 0 radioId =
      (system.sent.take since).filter (·.radioId = radioId) ++ system.recorded since radioId := by
    rw [recorded, recorded, List.drop_zero, ← List.filter_append, ← List.append_assoc,
      List.take_append_drop]
  rw [Knows, hsplit, List.getLast?_append] at h
  rw [Knows]
  cases hlast : (system.recorded since radioId).getLast? with
  | none => rfl
  | some last =>
      rw [hlast] at h
      exact h

/-- Everybody who heard all broadcasts since it was told a state will know the target. -/
structure Told (system : TargetSystem ρ) : Prop where
  everyone : ∀ radioId, system.Knows 0 radioId (noTargetState radioId)
  subscribed : ∀ page ∈ system.pages, page.subscribedAt ≤ system.sent.length
  pages : ∀ page ∈ system.pages, ∀ state, page.initial = some state →
    system.Knows page.subscribedAt page.logger.radioId state

/-- A call that finds new targets and leaves at most the pages there were. -/
theorem Told.record (h : system.Told) (states : List TargetState)
    (hsent : after.sent = system.sent) (hpending : after.pending = system.pending ++ states)
    (hstates : ∀ radioId, (states.filter (·.radioId = radioId)).getLast?.getD
        (targetState radioId (system.manager.targetOf radioId)) =
      targetState radioId (after.manager.targetOf radioId))
    (hpages : ∀ page ∈ after.pages, page ∈ system.pages) : after.Told where
  everyone radioId := (h.everyone radioId).record states hsent hpending (hstates radioId)
  subscribed page hpage := by
    rw [hsent]
    exact h.subscribed page (hpages page hpage)
  pages page hpage state hstate :=
    (h.pages page (hpages page hpage) state hstate).record states hsent hpending
      (hstates page.logger.radioId)

theorem Told.send (h : system.Told) {index : Nat} (horder : system.InOrder (.send index)) :
    (system.step (.send index)).Told := by
  have hpages : (system.step (.send index)).pages = system.pages := by
    rw [step]
    cases system.pending[index]? <;> rfl
  have hlength : system.sent.length ≤ (system.step (.send index)).sent.length := by
    rw [step]
    cases system.pending[index]? <;> simp
  constructor
  case everyone => exact fun radioId => (h.everyone radioId).send horder (Nat.zero_le _)
  case subscribed =>
    intro page hpage
    rw [hpages] at hpage
    exact Nat.le_trans (h.subscribed page hpage) hlength
  case pages =>
    intro page hpage state hstate
    rw [hpages] at hpage
    exact (h.pages page hpage state hstate).send horder (h.subscribed page hpage)

theorem registered_step (h : Registered system.manager system.pages) (action : TargetAction) :
    Registered (system.step action).manager (system.step action).pages := by
  cases action with
  | subscribe logger =>
      refine Registered.perm ?_ (List.perm_append_singleton _ _)
      exact (Registered.cons_iff rfl).mpr h
  | acquire index config initialMode =>
      rw [step]
      cases hpage : system.pages[index]? with
      | none => exact h
      | some page =>
          have hperm := Slices.perm_cons_eraseIdx hpage
          rw [Option.elim_some, TargetSystem.acquire]
          cases hinitial : page.initial with
          | some _ => exact h
          | none =>
              have hrest : Registered system.manager (system.pages.eraseIdx index) :=
                (Registered.cons_iff hinitial).mp (h.perm hperm.symm)
              dsimp only
              split
              · exact hrest
              · next state manager hacquire =>
                  exact (hrest.acquired (acquired hacquire)).perm
                    (Slices.set_perm_cons_eraseIdx hpage _)
  | release index =>
      rw [step]
      cases hpage : system.pages[index]? with
      | none => exact h
      | some page =>
          have hperm := Slices.perm_cons_eraseIdx hpage
          rw [Option.elim_some, TargetSystem.release]
          cases hinitial : page.initial with
          | none => exact h
          | some _ => exact (h.perm hperm.symm).release (by rw [hinitial]; rfl)
  | setTarget index enabled =>
      rw [step]
      cases hpage : system.pages[index]? with
      | none => exact h
      | some page =>
          rw [Option.elim_some, TargetSystem.setTarget]
          cases page.initial with
          | none => exact h
          | some _ =>
              dsimp only
              split
              · exact h
              · next state manager hset => exact h.targeted (targeted hset)
  | send index =>
      rw [step]
      cases system.pending[index]? <;> exact h

theorem Told.step (h : system.Told) (hregistered : Registered system.manager system.pages)
    {action : TargetAction} (horder : system.InOrder action) : (system.step action).Told := by
  cases action with
  | subscribe logger =>
      refine ⟨h.everyone, fun page hpage => ?_, fun page hpage state hstate => ?_⟩
      · cases List.mem_append.mp hpage with
        | inl hold => exact h.subscribed page hold
        | inr hnew =>
            rw [List.mem_singleton.mp hnew]
            exact Nat.le_refl _
      · cases List.mem_append.mp hpage with
        | inl hold => exact h.pages page hold state hstate
        | inr hnew =>
            rw [List.mem_singleton.mp hnew] at hstate
            cases hstate
  | acquire index config initialMode =>
      rw [TargetSystem.step]
      cases hpage : system.pages[index]? with
      | none => exact h
      | some page =>
          rw [Option.elim_some, TargetSystem.acquire]
          cases page.initial with
          | some _ => exact h
          | none =>
              dsimp only
              split
              · exact h.record [] rfl (List.append_nil _).symm (fun _ => rfl)
                  fun _ => List.mem_of_mem_eraseIdx
              · next state manager hacquire =>
                  have hacquired := acquired hacquire
                  have hsame : Told { system with manager := manager } := by
                    refine h.record [] rfl (List.append_nil _).symm (fun radioId => ?_) fun _ => id
                    dsimp only
                    rw [hacquired.targetOf]
                    rfl
                  refine ⟨hsame.everyone, fun other hother => ?_, fun other hother told htold => ?_⟩
                  · cases List.mem_or_eq_of_mem_set hother with
                    | inl hold => exact h.subscribed other hold
                    | inr hnew =>
                        rw [hnew]
                        exact h.subscribed page (List.mem_of_getElem? hpage)
                  · cases List.mem_or_eq_of_mem_set hother with
                    | inl hold => exact hsame.pages other hold told htold
                    | inr hnew =>
                        rw [hnew] at htold ⊢
                        cases htold
                        rw [hacquired.state, ← hacquired.targetOf]
                        exact (hsame.everyone page.logger.radioId).read page.subscribedAt
  | release index =>
      rw [TargetSystem.step]
      cases hpage : system.pages[index]? with
      | none => exact h
      | some page =>
          rw [Option.elim_some, TargetSystem.release]
          cases page.initial with
          | none => exact h
          | some _ =>
              refine h.record _ rfl rfl (fun radioId => ?_) fun _ => List.mem_of_mem_eraseIdx
              cases @release_cases _ _ _ page.logger.loggerId fun target htarget =>
                  (hregistered.target page.logger.radioId target htarget).imp fun _ => And.left with
              | inl hgone =>
                  rw [hgone.broadcast]
                  rcases eq_or_ne page.logger.radioId radioId with rfl | hother
                  · simp [noTargetState, targetState, hgone.target]
                  · simp [noTargetState, targetState, hother, hgone.others radioId hother]
              | inr hstays =>
                  rw [hstays.broadcast]
                  exact congrArg (targetState radioId) (hstays.targetOf radioId).symm
  | setTarget index enabled =>
      rw [TargetSystem.step]
      cases hpage : system.pages[index]? with
      | none => exact h
      | some page =>
          rw [Option.elim_some, TargetSystem.setTarget]
          cases page.initial with
          | none => exact h
          | some _ =>
              dsimp only
              split
              · exact h
              · next state manager hset =>
                  have htargeted := targeted hset
                  refine h.record [state] rfl rfl (fun radioId => ?_) fun _ => id
                  rw [htargeted.state]
                  rcases eq_or_ne page.logger.radioId radioId with rfl | hother
                  · simp [targetState]
                  · simp [targetState, hother, htargeted.others radioId hother]
  | send index => exact h.send horder

/-- With nothing left to broadcast, what was recorded was broadcast. -/
theorem Settled.recorded (hsettled : system.Settled radioId) (since : Nat) :
    system.recorded since radioId =
      (system.sent.drop since).filter (·.radioId = radioId) := by
  have hnone : system.pending.filter (·.radioId = radioId) = [] := by
    refine List.filter_eq_nil_iff.mpr fun state hstate => ?_
    simpa using hsettled state hstate
  rw [TargetSystem.recorded, List.filter_append, hnone, List.append_nil]

theorem foldl_last {β : Type} (f : TargetState → β) (first : TargetState) (rest : List TargetState)
    (start : β) : (first :: rest).foldl (fun _ message => f message) start =
      f (rest.getLast?.getD first) := by
  induction rest generalizing first start with
  | nil => rfl
  | cons second rest ih =>
      rw [List.foldl_cons, ih, List.getLast?_cons]
      rfl

/-- A page that handles a target as it is meant shows whether it is the target. -/
theorem Told.showsTarget (h : system.Told) {page : LoggerPage} (hpage : page ∈ system.pages)
    (hsome : page.initial.isSome) (hsettled : system.Settled page.logger.radioId)
    {isTarget : TargetState → Logger → Bool}
    (hhandles : ∀ logger target, isTarget (targetState logger.radioId target) logger = true ↔
      target = some { loggerId := logger.loggerId, logId := logger.logId }) :
    system.ShowsTarget isTarget page := by
  obtain ⟨state, hstate⟩ := Option.isSome_iff_exists.mp hsome
  have hknows := h.pages page hpage state hstate
  rw [Knows, hsettled.recorded] at hknows
  rw [ShowsTarget, shows, messages, hstate, Option.toList_some, List.singleton_append,
    foldl_last fun message => isTarget message page.logger]
  rw [hknows]
  exact hhandles page.logger _

theorem wsjtx_handles (targetIntent : Bool) (logger : Logger) (target : Option ListenerTarget) :
    (wsjtxTargetUpdate (targetState logger.radioId target) logger targetIntent).isTarget = true ↔
      target = some { loggerId := logger.loggerId, logId := logger.logId } := by
  have hnamed := logger.named
  cases target with
  | none => simp [wsjtxTargetUpdate, targetState]
  | some target =>
      obtain ⟨loggerId, logId⟩ := target
      by_cases hempty : loggerId = ""
      · simp [wsjtxTargetUpdate, targetState, hempty, hnamed.symm]
      · simp only [wsjtxTargetUpdate, targetState, Option.map_some, Option.getD_some, hempty,
          ↓reduceIte, Bool.and_eq_true, Option.some.injEq, ListenerTarget.mk.injEq]
        exact and_congr decide_eq_true_iff decide_eq_true_iff

theorem digitalIo_handles (logger : Logger) (target : Option ListenerTarget) :
    digitalIoIsTarget (targetState logger.radioId target) logger = true ↔
      target = some { loggerId := logger.loggerId, logId := logger.logId } := by
  have hnamed := logger.named
  cases target with
  | none => simp [digitalIoIsTarget, targetState, hnamed.symm]
  | some target =>
      obtain ⟨loggerId, logId⟩ := target
      simp only [digitalIoIsTarget, targetState, Option.map_some, Option.getD_some,
        Bool.and_eq_true, Option.some.injEq, ListenerTarget.mk.injEq]
      exact and_congr decide_eq_true_iff decide_eq_true_iff

/-- In runs whose broadcasts come in the order of the calls, all see the target. -/
theorem target_agreement (actions : List TargetAction)
    (hrun : Runs.Keeps step InOrder ({} : TargetSystem ρ) actions) :
    (Runs.run step ({} : TargetSystem ρ) actions).TargetAgreement := by
  have htarget : ∀ radioId, ({} : ListenerManager ρ).targetOf radioId = none := fun radioId => by
    simp [targetOf]
  have hnobody : ∀ radioId loggerId, ({} : ListenerManager ρ).registered radioId loggerId = none :=
    fun radioId loggerId => by simp [registered]
  have hstart : Registered ({} : TargetSystem ρ).manager [] ∧ ({} : TargetSystem ρ).Told := by
    refine ⟨⟨fun radioId target h => ?_, fun radioId loggerId => ?_, fun _ hmem => ?_⟩,
      ⟨fun radioId => ?_, fun _ hmem => ?_, fun _ hmem => ?_⟩⟩
    · rw [htarget] at h
      cases h
    · rw [hnobody]
      rfl
    · cases hmem
    · rw [Knows, htarget]
      rfl
    · cases hmem
    · cases hmem
  obtain ⟨hregistered, htold⟩ := Runs.invariant_run
    (fun system : TargetSystem ρ => Registered system.manager system.pages ∧ system.Told)
    (fun system action h horder => ⟨registered_step h.1 action, h.2.step h.1 horder⟩) hstart hrun
  generalize Runs.run step ({} : TargetSystem ρ) actions = system at *
  constructor
  case registered => exact hregistered.target
  case one_log =>
    intro page hpage other hother hsome hsome'
    exact hregistered.one_log hpage hother hsome hsome'
  case last_broadcast =>
    intro radioId hsettled
    have hknows := htold.everyone radioId
    rwa [Knows, hsettled.recorded] at hknows
  case shown =>
    intro page hpage hsome hsettled
    exact ⟨fun targetIntent => htold.showsTarget hpage hsome hsettled (wsjtx_handles targetIntent),
      htold.showsTarget hpage hsome hsettled digitalIo_handles⟩

/-- Two loggers of a radio, the second of which takes the target from the first. -/
def takeOver (broadcasts : List Nat) : List TargetAction :=
  let config := { wsjtxEnabled := true, fldigiDataEnabled := true, fldigiRttyEnabled := false }
  [.subscribe ⟨1, "a", 10, by decide⟩, .acquire 0 config "DATA",
    .subscribe ⟨1, "b", 10, by decide⟩, .acquire 1 config "DATA",
    .setTarget 0 true, .setTarget 1 true] ++ broadcasts.map .send

theorem target_agreement_inOrder :
    (Runs.run step ({} : TargetSystem Unit) (takeOver [0, 0])).TargetAgreement :=
  target_agreement (takeOver [0, 0]) ⟨trivial, trivial, trivial, trivial, trivial, trivial,
    nofun, nofun, trivial⟩

/-- The first logger's target is broadcast after the second's: nobody sees who the target is. -/
theorem not_target_agreement_overtaken :
    ¬(Runs.run step ({} : TargetSystem Unit) (takeOver [1, 0])).TargetAgreement := by
  intro h
  have hlast := h.last_broadcast 1 fun state hstate => by
    have hpending : (Runs.run step ({} : TargetSystem Unit) (takeOver [1, 0])).pending.length =
        0 := by
      decide
    rw [List.length_eq_zero_iff.mp hpending] at hstate
    cases hstate
  have hloggers := congrArg TargetState.loggerId hlast
  revert hloggers
  decide

end TargetSystem

end Log73.RadioIo
