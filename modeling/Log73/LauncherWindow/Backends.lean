import Log73.LauncherWindow.Machine

/-!
The launcher over every run: no two backends are alive, no file is removed and no window closed
under a backend, every report of a task is taken, and a request to close is carried out.
-/

namespace Log73.LauncherWindow

/-! ### What a message does to the launcher -/

/-- What the launcher knows of its tasks. -/
structure Core where
  child : Option Nat
  activeToken : Option Nat
  stopInProgress : Bool
  downloadInProgress : Option DownloadKind
  pendingCloseWindow : Option Nat

def Effect.removal : Effect → Option String
  | .removed path => some path
  | .saved _ | .spawned _ _ _ => none

namespace Launcher

variable {state next : Launcher} {found : Found}

def core (state : Launcher) : Core where
  child := state.child
  activeToken := state.activeToken
  stopInProgress := state.stopInProgress
  downloadInProgress := state.downloadInProgress
  pendingCloseWindow := state.pendingCloseWindow

def removals (state : Launcher) : List String := state.effects.filterMap Effect.removal

/-- What the user's messages come to. -/
inductive Pressed (found : Found) (state : Launcher) : Launcher → Task → Prop
  | kept (next : Launcher) : next.core = state.core → next.removals = state.removals →
      Pressed found state next .none
  | opening (settings : LauncherSettings) (action : OpenAction) :
      Pressed found state state (.openAction settings action)
  | removed (next : Launcher) : next.core = state.core → state.canRemoveFiles = true →
      Pressed found state next .none
  | started (next : Launcher) (child token : Nat) : found.spawned = .ok child →
      state.child = none → state.stopInProgress = false →
      next.core = { state.core with
        child := some child, activeToken := some token, stopInProgress := false } →
      next.removals = state.removals → Pressed found state next (.waitForExit child token)
  | stopping (next : Launcher) (child token : Nat) : state.child = some child →
      state.activeToken = some token → state.stopInProgress = false →
      next.core = { state.core with stopInProgress := true } →
      next.removals = state.removals → Pressed found state next (.attemptStop child token)
  | downloading (next : Launcher) (settings : LauncherSettings) (kind : DownloadKind) :
      state.downloadInProgress = none →
      next.core = { state.core with downloadInProgress := some kind } →
      next.removals = state.removals → Pressed found state next (.download settings kind)
  | waiting (next : Launcher) (window : Nat) : state.stopInProgress = true →
      next.core = { state.core with pendingCloseWindow := some window } →
      next.removals = state.removals → Pressed found state next .none
  | leaving (next : Launcher) (window child token : Nat) : state.child = some child →
      state.activeToken = some token → state.stopInProgress = false →
      next.core = { state.core with stopInProgress := true, pendingCloseWindow := some window } →
      next.removals = state.removals → Pressed found state next (.attemptStop child token)
  | closing (next : Launcher) (window : Nat) : state.child = none → state.stopInProgress = false →
      state.downloadInProgress = none →
      next.core = { state.core with pendingCloseWindow := some window } →
      next.removals = state.removals → Pressed found state next (.close window)

theorem removals_perform (state : Launcher) (effect : Effect) :
    (state.perform effect).removals = state.removals ++ effect.removal.toList := by
  unfold removals perform
  rw [List.filterMap_append]
  cases effect <;> rfl

theorem persist_kept (state : Launcher) (found : Found) :
    (state.persistSettingsIfDirty found).core = state.core ∧
      (state.persistSettingsIfDirty found).removals = state.removals := by
  unfold persistSettingsIfDirty
  split
  · split
    · refine ⟨rfl, ?_⟩
      exact (removals_perform state (.saved state.settings)).trans (List.append_nil _)
    · exact ⟨rfl, rfl⟩
  · exact ⟨rfl, rfl⟩

theorem pressed_persist (hcore : next.core = (state.persistSettingsIfDirty found).core)
    (hremovals : next.removals = (state.persistSettingsIfDirty found).removals) :
    Pressed found state next .none :=
  .kept next (hcore.trans (persist_kept state found).1)
    (hremovals.trans (persist_kept state found).2)

theorem core_removeFile (state : Launcher) (found : Found) (path label : String) :
    (state.removeFile found path label).1.core = state.core := by
  unfold removeFile
  split <;> rfl

theorem core_removal (label : String) (result : Launcher × Except String String) :
    (removal label result).core = result.1.core := by
  unfold removal
  split <;> rfl

theorem pressed_startBackend (state : Launcher) (found : Found) :
    Pressed found state (state.startBackend found).1 (state.startBackend found).2 := by
  obtain ⟨hcore, hremovals⟩ := persist_kept state found
  unfold startBackend
  split
  · exact .kept state rfl rfl
  · rename_i hidle
    rw [Bool.or_eq_true, not_or, Bool.not_eq_true, Bool.not_eq_true] at hidle
    dsimp only
    generalize state.persistSettingsIfDirty found = saved at *
    split
    · exact .kept _ hcore hremovals
    · split
      · exact .kept _ hcore hremovals
      · rename_i child hspawned
        refine .started _ child saved.nextToken hspawned (Option.isSome_eq_false_iff.mp hidle.1 |>
          Option.isNone_iff_eq_none.mp) hidle.2 ?_ ?_
        · rw [← hcore]
          rfl
        · rw [← hremovals]
          exact (removals_perform saved _).trans (List.append_nil _)

theorem pressed_stopBackend (state : Launcher) (found : Found) :
    Pressed found state state.stopBackend.1 state.stopBackend.2 := by
  unfold stopBackend
  split
  · exact .kept state rfl rfl
  · rename_i hstop
    split
    · rename_i child token hchild htoken
      exact .stopping _ child token hchild htoken (Bool.eq_false_iff.mpr hstop) rfl rfl
    · exact .kept state rfl rfl

theorem pressed_startDownload (state : Launcher) (found : Found) (kind : DownloadKind) :
    Pressed found state (state.startDownload found kind).1 (state.startDownload found kind).2 := by
  obtain ⟨hcore, hremovals⟩ := persist_kept state found
  unfold startDownload
  split
  · exact .kept _ rfl rfl
  · rename_i hdownload
    dsimp only
    generalize state.persistSettingsIfDirty found = saved at *
    split
    · exact .kept _ hcore hremovals
    · refine .downloading _ _ kind ?_ ?_ hremovals
      · exact Option.not_isSome_iff_eq_none.mp hdownload
      · rw [← hcore]
        rfl

theorem pressed_closeOrStop {asked : Launcher} {window : Nat}
    (hpaired : state.child.isSome = state.activeToken.isSome)
    (hdownload : state.downloadInProgress = none)
    (hasked : asked.core = { state.core with pendingCloseWindow := some window })
    (hremovals : asked.removals = state.removals) :
    Pressed found state (asked.closeOrStop window).1 (asked.closeOrStop window).2 := by
  have hchild : asked.child = state.child := congrArg Core.child hasked
  have htoken : asked.activeToken = state.activeToken := congrArg Core.activeToken hasked
  have hstop : asked.stopInProgress = state.stopInProgress := congrArg Core.stopInProgress hasked
  unfold closeOrStop
  cases hphase : state.stopInProgress with
  | true =>
      rw [hstop, hphase, Bool.or_true, if_pos rfl, Bool.not_true, Bool.and_false,
        if_neg Bool.false_ne_true]
      exact .waiting _ window hphase hasked hremovals
  | false =>
      cases hnow : state.child with
      | none =>
          rw [hchild, hnow, hstop, hphase, Option.isSome_none, Bool.or_false,
            if_neg Bool.false_ne_true]
          exact .closing _ window hnow hphase hdownload hasked hremovals
      | some child =>
          cases hactive : state.activeToken with
          | none =>
              rw [hnow, hactive] at hpaired
              cases hpaired
          | some token =>
              have hstopped : (asked.say "Stopping backend before exit...").stopBackend =
                  ({ asked with stopInProgress := true, status := "Stopping backend..." },
                    .attemptStop child token) := by
                unfold stopBackend say
                dsimp only
                rw [hstop, hphase, hchild, hnow, htoken, hactive]
                rfl
              rw [hchild, hnow, hstop, hphase, Option.isSome_some, Bool.true_or,
                if_pos rfl, Bool.not_false, Bool.and_true, if_pos rfl, hstopped]
              refine .leaving _ window child token hnow hactive hphase ?_ hremovals
              exact congrArg (fun core : Core => { core with stopInProgress := true }) hasked

/-- A launcher has the token of its child, and no stop is under way without one. -/
theorem pressed_windowCloseRequested (hpaired : state.child.isSome = state.activeToken.isSome)
    (found : Found) (window : Nat) :
    Pressed found state (state.windowCloseRequested found window).1
      (state.windowCloseRequested found window).2 := by
  obtain ⟨hcore, hremovals⟩ := persist_kept state found
  unfold windowCloseRequested
  split
  · exact .kept _ rfl rfl
  · rename_i hdownload
    refine pressed_closeOrStop hpaired (Option.not_isSome_iff_eq_none.mp hdownload) ?_ hremovals
    exact congrArg (fun core : Core => { core with pendingCloseWindow := some window }) hcore

/-- What a message of the user does to the launcher. -/
theorem pressed_update (hpaired : state.child.isSome = state.activeToken.isSome) (found : Found)
    {message : Message} (hmessage : message.isReport = false) :
    Pressed found state (state.update found message).1 (state.update found message).2 := by
  cases message with
  | downloadFinished outcome => cases hmessage
  | backendExited event => cases hmessage
  | stopAttemptFinished outcome => cases hmessage
  | backToMainPressed =>
      dsimp only [update, backToMainPressed]
      split
      · exact .kept _ rfl rfl
      · exact pressed_persist rfl rfl
  | removeLogFilePressed =>
      dsimp only [update, removeLogFilePressed]
      split
      · exact .kept _ rfl rfl
      · rename_i hcan
        rw [Bool.not_eq_true, Bool.not_eq_false'] at hcan
        refine .removed _ ?_ hcan
        rw [core_removal, removeLogFile]
        split
        · rfl
        · exact core_removeFile ..
  | removeDatabasePressed =>
      dsimp only [update, removeDatabasePressed]
      split <;> exact .kept _ rfl rfl
  | confirmRemoveDatabasePressed =>
      dsimp only [update, confirmRemoveDatabasePressed]
      split
      · exact .kept _ rfl rfl
      · rename_i hcan
        rw [Bool.not_eq_true, Bool.not_eq_false'] at hcan
        refine .removed _ ?_ hcan
        rw [core_removal, removeDatabase]
        split
        · rfl
        · exact core_removeFile ..
  | startPressed => exact pressed_startBackend state found
  | stopPressed => exact pressed_stopBackend state found
  | downloadDxccPressed => exact pressed_startDownload state found .dxcc
  | downloadSuperCheckPartialPressed => exact pressed_startDownload state found .superCheckPartial
  | windowCloseRequested window => exact pressed_windowCloseRequested hpaired found window
  | openLogPressed => exact .opening _ _
  | openInBrowserPressed => exact .opening _ _
  | openInAppModePressed => exact .opening _ _
  | _ => exact .kept _ rfl rfl

theorem core_handleStopOutcome (state : Launcher) (outcome : StopOutcome) :
    (state.handleStopOutcome outcome).core = state.core := by
  unfold handleStopOutcome
  split <;> rfl

/-- The report of the exit that is waited for frees the launcher and closes its window. -/
theorem handleBackendExit_held {event : ProcessExit}
    (hactive : state.activeToken = some event.token) :
    (state.handleBackendExit event).1.core =
      { state.core with
        child := none, activeToken := none, stopInProgress := false, pendingCloseWindow := none } ∧
    (state.handleBackendExit event).2 = state.pendingCloseWindow.elim .none .close ∧
    (state.handleBackendExit event).1.removals = state.removals := by
  unfold handleBackendExit
  rw [if_neg (not_not_intro hactive)]
  dsimp only
  cases hpending : state.pendingCloseWindow with
  | none =>
      refine ⟨?_, rfl, rfl⟩
      unfold core
      rw [hpending]
  | some window => exact ⟨rfl, rfl, rfl⟩

theorem downloadFinished_under_way (outcome : DownloadOutcome)
    (hdownload : state.downloadInProgress = some outcome.kind) :
    (state.downloadFinished outcome).core = { state.core with downloadInProgress := none } ∧
      (state.downloadFinished outcome).removals = state.removals := by
  unfold downloadFinished
  rw [if_neg (not_not_intro hdownload)]
  exact ⟨rfl, rfl⟩

end Launcher

/-! ### The machine -/

def Core.held (core : Core) : List (Nat × Nat) :=
  (core.child.bind fun child => core.activeToken.map fun token => (child, token)).toList

/-- The launcher knows what the machine does. -/
structure Core.Tracks (core : Core) (machine : Machine) : Prop where
  paired : core.child.isSome = core.activeToken.isSome
  waits : machine.waits = core.held
  downloads : machine.downloads = core.downloadInProgress.toList
  stopping : core.stopInProgress = true → core.child.isSome = true
  backends : ∀ child ∈ machine.alive, core.child = some child ∨ child ∈ machine.lost
  leaving : ∀ window, core.pendingCloseWindow = some window →
    window ∈ machine.closed ∨ core.stopInProgress = true
  stops : core.stopInProgress = true → ∀ child, core.child = some child →
    (∃ attempt ∈ machine.stops, attempt.child = child) ∨ child ∉ machine.alive ∨
      child ∈ machine.unstoppable
  ended : machine.ended = true → ∀ child ∈ machine.alive, child ∈ machine.lost

namespace Machine

variable {machine : Machine}

def Sound (machine : Machine) : Prop := machine.launcher.core.Tracks machine

/-- The machine with another launcher. -/
def withLauncher (machine : Machine) (launcher : Launcher) : Machine :=
  { machine with launcher := launcher }

theorem deliver_eq (machine : Machine) (message : Message) (found : Found) :
    machine.deliver message found =
      (machine.withLauncher (machine.launcher.update
        { found with spawned := found.spawned.map fun _ => machine.spawned } message).1).absorb
          (machine.launcher.update
            { found with spawned := found.spawned.map fun _ => machine.spawned } message).2 := rfl

theorem sound_kept (h : machine.Sound) {launcher : Launcher}
    (hcore : launcher.core = machine.launcher.core) : (machine.withLauncher launcher).Sound := by
  unfold Sound withLauncher
  dsimp only
  rw [hcore]
  exact ⟨h.paired, h.waits, h.downloads, h.stopping, h.backends, h.leaving, h.stops, h.ended⟩

/-- A message of the user leaves a machine whose launcher is there sound. -/
theorem sound_pressed (h : machine.Sound) (hlive : machine.ended = false) {found : Found}
    {next : Launcher} {task : Task} (hpressed : Launcher.Pressed found machine.launcher next task) :
    ((machine.withLauncher next).absorb task).Sound := by
  cases hpressed with
  | kept next hcore hremovals => exact sound_kept h hcore
  | opening settings action => exact h
  | removed next hcore hcan => exact sound_kept h hcore
  | started next child token hspawned hchild hstop hcore hremovals =>
      unfold Sound withLauncher absorb
      dsimp only
      rw [hcore]
      refine ⟨rfl, ?_, h.downloads, Bool.noConfusion, ?_, ?_, Bool.noConfusion, ?_⟩
      · rw [h.waits, Core.held]
        dsimp only [Launcher.core]
        rw [hchild]
        rfl
      · intro other hother
        rcases List.mem_append.mp hother with hold | hnew
        · refine .inr ((h.backends other hold).resolve_left fun hsome => ?_)
          cases hchild.symm.trans hsome
        · exact .inl (congrArg some (List.mem_singleton.mp hnew).symm)
      · intro window hpending
        refine .inl ((h.leaving window hpending).resolve_right fun hstopping => ?_)
        cases hstop.symm.trans hstopping
      · exact fun hended => Bool.noConfusion (hlive.symm.trans hended)
  | stopping next child token hchild htoken hstop hcore hremovals =>
      unfold Sound withLauncher absorb
      dsimp only
      rw [hcore]
      refine ⟨h.paired, h.waits, h.downloads, ?_, h.backends, fun _ _ => .inr rfl, ?_, h.ended⟩
      · exact fun _ => Option.isSome_of_mem hchild
      · intro _ other hother
        refine .inl ⟨_, List.mem_append_right _ (List.mem_singleton.mpr rfl), ?_⟩
        exact Option.some.inj (hchild.symm.trans hother)
  | downloading next settings kind hdownload hcore hremovals =>
      unfold Sound withLauncher absorb
      dsimp only
      rw [hcore]
      refine ⟨h.paired, h.waits, ?_, h.stopping, h.backends, h.leaving, h.stops, h.ended⟩
      rw [h.downloads]
      dsimp only [Launcher.core]
      rw [hdownload]
      rfl
  | waiting next window hstop hcore hremovals =>
      unfold Sound withLauncher absorb
      dsimp only
      rw [hcore]
      exact ⟨h.paired, h.waits, h.downloads, h.stopping, h.backends, fun _ _ => .inr hstop, h.stops,
        h.ended⟩
  | leaving next window child token hchild htoken hstop hcore hremovals =>
      unfold Sound withLauncher absorb
      dsimp only
      rw [hcore]
      refine ⟨h.paired, h.waits, h.downloads, ?_, h.backends, fun _ _ => .inr rfl, ?_, h.ended⟩
      · exact fun _ => Option.isSome_of_mem hchild
      · intro _ other hother
        refine .inl ⟨_, List.mem_append_right _ (List.mem_singleton.mpr rfl), ?_⟩
        exact Option.some.inj (hchild.symm.trans hother)
  | closing next window hchild hstop hdownload hcore hremovals =>
      unfold Sound withLauncher absorb
      dsimp only
      rw [hcore]
      refine ⟨h.paired, h.waits, h.downloads, h.stopping, h.backends, ?_, h.stops, h.ended⟩
      intro other hother
      exact .inl (List.mem_append_right _ (List.mem_singleton.mpr (Option.some.inj hother).symm))

theorem sound_deliver (h : machine.Sound) (hlive : machine.ended = false) {message : Message}
    (hmessage : message.isReport = false) (found : Found) :
    (machine.deliver message found).Sound :=
  sound_pressed h hlive (Launcher.pressed_update h.paired _ hmessage)

/-- The report of a stop changes nothing that the launcher knows. -/
theorem deliver_stop (machine : Machine) (outcome : StopOutcome) (found : Found) :
    machine.deliver (.stopAttemptFinished outcome) found =
      machine.withLauncher (machine.launcher.handleStopOutcome outcome) := rfl

theorem sound_finishStop {index : Nat} {attempt : StopAttempt}
    (hattempt : machine.stops[index]? = some attempt) (h : machine.Sound)
    (hdone : attempt.child ∉ machine.alive ∨ attempt.child ∈ machine.unstoppable) (note : String)
    (found : Found) : (machine.finishStop index attempt note found).Sound := by
  unfold finishStop
  rw [deliver_stop]
  refine sound_kept ?_ (Launcher.core_handleStopOutcome _ _)
  refine ⟨h.paired, h.waits, h.downloads, h.stopping, h.backends, h.leaving, ?_, h.ended⟩
  intro hstop child hchild
  rcases h.stops hstop child hchild with ⟨other, hother, hsame⟩ | hover
  · obtain ⟨place, hplace⟩ := List.getElem?_of_mem hother
    by_cases hindex : place = index
    · rw [hindex, hattempt] at hplace
      rw [← hsame, ← Option.some.inj hplace]
      exact .inr hdone
    · exact .inl ⟨other, List.mem_eraseIdx_iff_getElem?.mpr ⟨place, hindex, hplace⟩, hsame⟩
  · exact .inr hover

theorem sound_moveStop {index : Nat} {attempt : StopAttempt}
    (hattempt : machine.stops[index]? = some attempt) (h : machine.Sound) (phase : StopPhase) :
    (machine.moveStop index attempt phase).Sound := by
  refine ⟨h.paired, h.waits, h.downloads, h.stopping, h.backends, h.leaving, ?_, h.ended⟩
  intro hstop child hchild
  rcases h.stops hstop child hchild with ⟨other, hother, hsame⟩ | hover
  · obtain ⟨place, hplace⟩ := List.getElem?_of_mem hother
    refine .inl ?_
    by_cases hindex : place = index
    · rw [hindex, hattempt] at hplace
      refine ⟨{ attempt with phase := phase }, ?_, ?_⟩
      · refine List.mem_of_getElem? (i := index) ?_
        exact List.getElem?_set_self (List.getElem?_eq_some_iff.mp hattempt).1
      · rw [← hsame, ← Option.some.inj hplace]
    · refine ⟨other, List.mem_of_getElem? (i := place) ?_, hsame⟩
      exact (List.getElem?_set_ne (Ne.symm hindex)).trans hplace
  · exact .inr hover

theorem sound_exit (h : machine.Sound) (child : Nat) : (machine.exit child).Sound := by
  have halive : ∀ other, other ∈ (machine.exit child).alive → other ∈ machine.alive :=
    fun other hother => (List.mem_filter.mp hother).1
  refine ⟨h.paired, h.waits, h.downloads, h.stopping,
    fun other hother => h.backends other (halive other hother), h.leaving, ?_,
    fun hended other hother => h.ended hended other (halive other hother)⟩
  intro hstop other hother
  exact (h.stops hstop other hother).imp_right fun hover =>
    hover.imp_left fun hdead hmem => hdead (halive other hmem)

theorem exit_alive (machine : Machine) (child : Nat) : child ∉ (machine.exit child).alive := by
  intro hmem
  have hne := (List.mem_filter.mp hmem).2
  exact of_decide_eq_true hne rfl

theorem sound_giveUp (h : machine.Sound) (child : Nat) : (machine.giveUp child).Sound :=
  ⟨h.paired, h.waits, h.downloads, h.stopping, h.backends, h.leaving,
    fun hstop other hother => (h.stops hstop other hother).imp_right fun hover =>
      hover.imp_right fun hmem => List.mem_append_left _ hmem, h.ended⟩

theorem giveUp_mem (machine : Machine) (child : Nat) :
    child ∈ (machine.giveUp child).unstoppable :=
  List.mem_append_right _ (List.mem_singleton.mpr rfl)

theorem sound_stop (h : machine.Sound) (index : Nat) (answer : StopAnswer) (found : Found) :
    (machine.stop index answer found).Sound := by
  unfold stop
  split
  · exact h
  · rename_i attempt hattempt
    have hgiven : (machine.giveUp attempt.child).stops[index]? = some attempt := hattempt
    have hexit : (machine.exit attempt.child).stops[index]? = some attempt := hattempt
    split
    · exact sound_moveStop hattempt h _
    · exact sound_moveStop hattempt h _
    · exact sound_finishStop hgiven (sound_giveUp h _) (.inr (giveUp_mem machine _)) _ found
    · split
      · split
        · exact sound_moveStop hattempt h _
        · exact h
      · rename_i hdead
        exact sound_finishStop hattempt h (.inl hdead) _ found
    · exact sound_finishStop hexit (sound_exit h _) (.inl (exit_alive machine _)) _ found
    · exact sound_finishStop hgiven (sound_giveUp h _) (.inr (giveUp_mem machine _)) _ found
    · exact h

theorem held_eq {core : Core} {index child token : Nat}
    (h : core.held[index]? = some (child, token)) :
    core.child = some child ∧ core.activeToken = some token ∧ core.held.eraseIdx index = [] := by
  unfold Core.held at *
  cases hchild : core.child with
  | none =>
      rw [hchild] at h
      cases h
  | some held =>
      cases htoken : core.activeToken with
      | none =>
          rw [hchild, htoken] at h
          cases h
      | some active =>
          rw [hchild, htoken] at h
          cases index with
          | zero =>
              cases h
              exact ⟨rfl, rfl, rfl⟩
          | succ index => cases h

/-- The machine after the report of the exit that it waits for. -/
theorem deliver_exit (machine : Machine) {event : ProcessExit}
    (hactive : machine.launcher.activeToken = some event.token)
    (found : Found) :
    ∃ launcher : Launcher,
      machine.deliver (.backendExited event) found =
          { machine with
            launcher := launcher
            closed := machine.closed ++ machine.launcher.pendingCloseWindow.toList } ∧
        launcher.core =
          { machine.launcher.core with
            child := none, activeToken := none, stopInProgress := false,
            pendingCloseWindow := none } ∧
        launcher.removals = machine.launcher.removals := by
  obtain ⟨hcore, htask, hremovals⟩ := Launcher.handleBackendExit_held hactive
  refine ⟨(machine.launcher.handleBackendExit event).1, ?_, hcore, hremovals⟩
  rw [deliver_eq]
  dsimp only [Launcher.update]
  rw [htask]
  cases machine.launcher.pendingCloseWindow with
  | none =>
      rw [Option.toList_none, List.append_nil]
      rfl
  | some window => rfl

theorem sound_exited (h : machine.Sound) (event : ProcessExit) {child : Nat} {lost : List Nat}
    (hchild : machine.launcher.child = some child)
    (hactive : machine.launcher.activeToken = some event.token)
    (hlost : ∀ other ∈ machine.lost, other ∈ lost) (hgone : child ∈ machine.alive → child ∈ lost)
    (found : Found) :
    (({ machine with waits := [], lost := lost } : Machine).deliver (.backendExited event)
      found).Sound := by
  obtain ⟨launcher, heq, hcore, -⟩ :=
    deliver_exit { machine with waits := [], lost := lost } hactive found
  rw [heq]
  unfold Sound
  dsimp only
  rw [hcore]
  have hbackends : ∀ other ∈ machine.alive, other ∈ lost := by
    intro other hother
    rcases h.backends other hother with hsame | hmem
    · rw [← Option.some.inj (hchild.symm.trans hsame)] at hother ⊢
      exact hgone hother
    · exact hlost other hmem
  exact ⟨rfl, rfl, h.downloads, Bool.noConfusion, fun other hother => .inr (hbackends other hother),
    fun window hwindow => (by cases hwindow), Bool.noConfusion, fun _ => hbackends⟩

theorem sound_waited (h : machine.Sound) (index : Nat) (result : ExitResult) (found : Found) :
    (machine.waited index result found).Sound := by
  unfold waited
  split
  · exact h
  · rename_i child token hwait
    rw [h.waits] at hwait
    obtain ⟨hchild, htoken, hnone⟩ := held_eq hwait
    dsimp only
    rw [h.waits, hnone]
    have hreported : ∀ reported : ExitResult, child ∉ machine.alive →
        (({ machine with waits := [] } : Machine).deliver
          (.backendExited { token := token, result := reported }) found).Sound :=
      fun reported hdead => sound_exited h { token := token, result := reported } hchild htoken
        (fun _ hmem => hmem) (fun hmem => absurd hmem hdead) found
    split
    · rename_i error
      exact sound_exited h { token := token, result := .error error } hchild htoken
        (fun _ hmem => List.mem_append_left _ hmem)
        (fun _ => List.mem_append_right _ (List.mem_singleton.mpr rfl)) found
    · split
      · exact h
      · exact hreported _ ‹_›

theorem sound_downloaded (h : machine.Sound) (index : Nat) (result : Except String String)
    (found : Found) : (machine.downloaded index result found).Sound := by
  unfold downloaded
  split
  · exact h
  · rename_i kind hkind
    rw [h.downloads] at hkind
    cases hdownload : machine.launcher.downloadInProgress with
    | none =>
        rw [Launcher.core, hdownload] at hkind
        cases hkind
    | some current =>
        rw [Launcher.core, hdownload] at hkind
        cases index with
        | succ index => cases hkind
        | zero =>
            cases hkind
            obtain ⟨hcore, -⟩ := Launcher.downloadFinished_under_way
              { kind := kind, result := result } hdownload
            rw [deliver_eq]
            dsimp only [Launcher.update, absorb, withLauncher]
            unfold Sound
            dsimp only
            rw [hcore, h.downloads]
            refine ⟨h.paired, h.waits, ?_, h.stopping, h.backends, h.leaving, h.stops, h.ended⟩
            dsimp only [Launcher.core]
            rw [hdownload]
            rfl

theorem sound_drop (h : machine.Sound) (waitFails : Bool) : (machine.drop waitFails).Sound := by
  unfold drop
  cases hchild : machine.launcher.child with
  | none =>
      refine ⟨h.paired, h.waits, h.downloads, h.stopping, h.backends, h.leaving, h.stops, ?_⟩
      intro _ child hmem
      refine (h.backends child hmem).resolve_left fun hsome => ?_
      cases hchild.symm.trans hsome
  | some child =>
      dsimp only
      split
      · refine ⟨h.paired, h.waits, h.downloads, h.stopping, ?_, h.leaving, h.stops, ?_⟩
        · exact fun other hmem => (h.backends other hmem).imp_right (List.mem_append_left _)
        · intro _ other hmem
          rcases h.backends other hmem with hsome | hlost
          · exact List.mem_append_right _
              (List.mem_singleton.mpr (Option.some.inj (hsome.symm.trans hchild)))
          · exact List.mem_append_left _ hlost
      · have hsound := sound_exit h child
        refine ⟨hsound.paired, hsound.waits, hsound.downloads, hsound.stopping, hsound.backends,
          hsound.leaving, hsound.stops, ?_⟩
        intro _ other hmem
        refine (hsound.backends other hmem).resolve_left fun hsome => ?_
        rw [Option.some.inj (hsome.symm.trans hchild)] at hmem
        exact exit_alive machine child hmem

theorem sound_step (h : machine.Sound) (move : Move) : (machine.step move).Sound := by
  cases move with
  | exit child => exact sound_exit h child
  | press message found =>
      dsimp only [step]
      split
      · exact h
      · rename_i hopen
        rw [Bool.or_eq_true, not_or, Bool.not_eq_true, Bool.not_eq_true] at hopen
        exact sound_deliver h hopen.1 hopen.2 found
  | waited index result found =>
      dsimp only [step]
      split
      · exact h
      · exact sound_waited h index result found
  | stop index answer found =>
      dsimp only [step]
      split
      · exact h
      · exact sound_stop h index answer found
  | downloaded index result found =>
      dsimp only [step]
      split
      · exact h
      · exact sound_downloaded h index result found
  | drop waitFails =>
      dsimp only [step]
      split
      · exact h
      · exact sound_drop h waitFails

theorem absorb_launcher (machine : Machine) (task : Task) :
    (machine.absorb task).launcher = machine.launcher := by
  cases task <;> rfl

/-- A step removes a file only while the launcher has no child, and closes a window only when it
leaves the launcher without one. -/
def Careful (machine next : Machine) : Prop :=
  (next.launcher.removals = machine.launcher.removals ∨ machine.launcher.child = none) ∧
    (next.closed = machine.closed ∨ next.launcher.child = none)

theorem Careful.refl (machine : Machine) : Careful machine machine := ⟨.inl rfl, .inl rfl⟩

theorem careful_pressed {found : Found} {next : Launcher} {task : Task}
    (hpressed : Launcher.Pressed found machine.launcher next task) :
    Careful machine ((machine.withLauncher next).absorb task) := by
  unfold Careful
  rw [absorb_launcher]
  cases hpressed with
  | kept next hcore hremovals => exact ⟨.inl hremovals, .inl rfl⟩
  | opening settings action => exact ⟨.inl rfl, .inl rfl⟩
  | removed next hcore hcan =>
      refine ⟨.inr ?_, .inl rfl⟩
      rw [Launcher.canRemoveFiles, Bool.and_eq_true] at hcan
      exact Option.isNone_iff_eq_none.mp hcan.1
  | started next child token hspawned hchild hstop hcore hremovals =>
      exact ⟨.inl hremovals, .inl rfl⟩
  | stopping next child token hchild htoken hstop hcore hremovals =>
      exact ⟨.inl hremovals, .inl rfl⟩
  | downloading next settings kind hdownload hcore hremovals =>
      exact ⟨.inl hremovals, .inl rfl⟩
  | waiting next window hstop hcore hremovals => exact ⟨.inl hremovals, .inl rfl⟩
  | leaving next window child token hchild htoken hstop hcore hremovals =>
      exact ⟨.inl hremovals, .inl rfl⟩
  | closing next window hchild hstop hdownload hcore hremovals =>
      exact ⟨.inl hremovals, .inr ((congrArg Core.child hcore).trans hchild)⟩

theorem careful_finishStop (machine : Machine) (index : Nat) (attempt : StopAttempt)
    (note : String) (found : Found) :
    Careful machine (machine.finishStop index attempt note found) := by
  unfold finishStop
  rw [deliver_stop]
  refine ⟨.inl ?_, .inl rfl⟩
  dsimp only [withLauncher, Launcher.handleStopOutcome]
  split <;> rfl

theorem careful_waited (h : machine.Sound) (index : Nat) (result : ExitResult) (found : Found) :
    Careful machine (machine.waited index result found) := by
  unfold waited
  split
  · exact .refl machine
  · rename_i child token hwait
    rw [h.waits] at hwait
    obtain ⟨-, htoken, -⟩ := held_eq hwait
    have hreported : ∀ (left : Machine) (event : ProcessExit),
        left.launcher = machine.launcher → event.token = token →
          Careful machine (left.deliver (.backendExited event) found) := by
      intro left event hleft hevent
      have hactive : left.launcher.activeToken = some event.token := by
        rw [hleft, hevent]
        exact htoken
      obtain ⟨launcher, heq, hcore, hremovals⟩ := deliver_exit left hactive found
      rw [heq]
      refine ⟨.inl ?_, .inr (congrArg Core.child hcore)⟩
      rw [hremovals, hleft]
    dsimp only
    split
    · exact hreported _ _ rfl rfl
    · split
      · exact .refl machine
      · exact hreported _ _ rfl rfl

theorem careful_step (h : machine.Sound) (move : Move) : Careful machine (machine.step move) := by
  cases move with
  | exit child => exact .refl machine
  | press message found =>
      dsimp only [step]
      split
      · exact .refl machine
      · rename_i hopen
        rw [Bool.or_eq_true, not_or, Bool.not_eq_true, Bool.not_eq_true] at hopen
        exact careful_pressed (Launcher.pressed_update h.paired _ hopen.2)
  | waited index result found =>
      dsimp only [step]
      split
      · exact .refl machine
      · exact careful_waited h index result found
  | stop index answer found =>
      dsimp only [step, stop]
      split
      · exact .refl machine
      · split
        · exact .refl machine
        · split
          · exact .refl machine
          · exact .refl machine
          · exact careful_finishStop _ ..
          · split
            · split <;> exact .refl machine
            · exact careful_finishStop _ ..
          · exact careful_finishStop _ ..
          · exact careful_finishStop _ ..
          · exact .refl machine
  | downloaded index result found =>
      dsimp only [step, downloaded]
      split
      · exact .refl machine
      · split
        · exact .refl machine
        · refine ⟨.inl ?_, .inl rfl⟩
          dsimp only [deliver, Launcher.update, absorb, Launcher.downloadFinished]
          split <;> rfl
  | drop waitFails =>
      dsimp only [step, drop]
      split
      · exact .refl machine
      · split
        · exact .refl machine
        · split <;> exact .refl machine

/-- The launcher after `run_with`, with the settings it has loaded. -/
def start (settings : LauncherSettings) : Machine where
  launcher := { settings := settings }

theorem sound_run (settings : LauncherSettings) (moves : List Move) :
    ((start settings).run moves).Sound := by
  refine Runs.invariant_run_of_forall Sound (fun _ move h => sound_step h move) ?_ moves
  exact ⟨rfl, rfl, rfl, Bool.noConfusion, fun child hmem => absurd hmem List.not_mem_nil,
    fun window hwindow => (by cases hwindow), Bool.noConfusion, Bool.noConfusion⟩

/-- At most one backend is alive that could be waited for; no file is removed and no window closed
while one is; none is left when the launcher has ended. -/
theorem run_backends (settings : LauncherSettings) (moves : List Move) (move : Move) :
    let machine := (start settings).run moves
    let next := machine.step move
    (∀ child ∈ machine.alive, ∀ other ∈ machine.alive,
        child ∉ machine.lost → other ∉ machine.lost → child = other) ∧
      (next.launcher.removals ≠ machine.launcher.removals →
        ∀ child ∈ machine.alive, child ∈ machine.lost) ∧
      (next.closed ≠ machine.closed → ∀ child ∈ next.alive, child ∈ next.lost) ∧
      (machine.ended = true → ∀ child ∈ machine.alive, child ∈ machine.lost) := by
  intro machine next
  have hsound : machine.Sound := sound_run settings moves
  have hnext : next.Sound := sound_step hsound move
  obtain ⟨hremovals, hclosed⟩ := careful_step hsound move
  have hfree : ∀ machine : Machine, machine.Sound → machine.launcher.child = none →
      ∀ child ∈ machine.alive, child ∈ machine.lost := by
    intro machine h hnone child hmem
    refine (h.backends child hmem).resolve_left fun hsome => ?_
    cases hnone.symm.trans hsome
  refine ⟨fun child hchild other hother hlost hlost' => ?_, fun hne => ?_, fun hne => ?_,
    hsound.ended⟩
  · have hheld := (hsound.backends child hchild).resolve_right hlost
    have hheld' := (hsound.backends other hother).resolve_right hlost'
    exact Option.some.inj (hheld.symm.trans hheld')
  · exact hfree machine hsound (hremovals.resolve_left hne)
  · exact hfree next hnext (hclosed.resolve_left hne)

/-- Every report of an exit is of the child that the launcher has, and every report of a download
of the one it waits for. A window that was asked to close is closed, or its backend is being
stopped, has exited or cannot be stopped; once it has exited the report closes the window. -/
theorem run_requests (settings : LauncherSettings) (moves : List Move) :
    let machine := (start settings).run moves
    (∀ child token, (child, token) ∈ machine.waits →
        machine.launcher.child = some child ∧ machine.launcher.activeToken = some token) ∧
      machine.downloads = machine.launcher.downloadInProgress.toList ∧
      ∀ window, machine.launcher.pendingCloseWindow = some window → window ∉ machine.closed →
        ∃ child token, machine.waits = [(child, token)] ∧
          ((∃ attempt ∈ machine.stops, attempt.child = child) ∨ child ∉ machine.alive ∨
            child ∈ machine.unstoppable) ∧
          (machine.ended = false → child ∉ machine.alive → ∀ result found,
            window ∈ (machine.step (.waited 0 result found)).closed) := by
  intro machine
  have hsound : machine.Sound := sound_run settings moves
  refine ⟨fun child token hmem => ?_, hsound.downloads, fun window hwindow hopen => ?_⟩
  · rw [hsound.waits] at hmem
    obtain ⟨index, hindex⟩ := List.getElem?_of_mem hmem
    obtain ⟨hchild, htoken, -⟩ := held_eq hindex
    exact ⟨hchild, htoken⟩
  · have hstop := (hsound.leaving window hwindow).resolve_left hopen
    obtain ⟨child, hchild⟩ := Option.isSome_iff_exists.mp (hsound.stopping hstop)
    have hactive := hsound.paired.symm.trans (hsound.stopping hstop)
    obtain ⟨token, htoken⟩ := Option.isSome_iff_exists.mp hactive
    have hwaits : machine.waits = [(child, token)] := by
      rw [hsound.waits, Core.held, hchild, htoken]
      rfl
    refine ⟨child, token, hwaits, hsound.stops hstop child hchild, ?_⟩
    intro hlive hdead result found
    have hreported : ∀ (left : Machine) (event : ProcessExit),
        left.launcher = machine.launcher → event.token = token →
          window ∈ (left.deliver (.backendExited event) found).closed := by
      intro left event hleft hevent
      have hsame : left.launcher.activeToken = some event.token := by
        rw [hleft, hevent]
        exact htoken
      obtain ⟨launcher, heq, -, -⟩ := deliver_exit left hsame found
      have hpending : machine.launcher.pendingCloseWindow = some window := hwindow
      rw [heq, hleft, hpending]
      exact List.mem_append_right _ (List.mem_singleton.mpr rfl)
    dsimp only [step]
    rw [hlive, if_neg Bool.false_ne_true, waited, hwaits]
    dsimp only [List.getElem?_cons_zero]
    split
    · exact hreported _ _ rfl rfl
    · rw [if_neg hdead]
      exact hreported _ _ rfl rfl

end Machine

end Log73.LauncherWindow
