import Log73.ClientSettings.Saving
import Log73.Library.Runs
import Log73.Library.Slices

/-!
The settings file over every run of saves, loads, failures and crashes: it is a register that a
save sets or leaves as it is, and that a crash sets back to what it has held since the crash
before. So a load finds the settings of a save that returned, whole, or what was there at first.
-/

namespace Log73.ClientSettings

open Durable (Disk File)

variable {S : Type}

/-! ### Names and texts -/

theorem temporaryName_ne (fileName uuid : String) : fileName ≠ temporaryName fileName uuid := by
  intro heq
  have hlength := congrArg String.length heq
  simp only [temporaryName, String.length_append] at hlength
  have hdot : ".".length = 1 := rfl
  omega

theorem temporaryName_injective {fileName uuid other : String}
    (h : temporaryName fileName uuid = temporaryName fileName other) : uuid = other := by
  simpa [temporaryName, String.append_assoc] using h

/-- `serde_json` reads back what it writes. -/
def SettingsFormat.RoundTrips (format : SettingsFormat S) : Prop :=
  ∀ settings contents, format.contents settings = .ok contents → ∃ text value,
    String.fromUTF8? contents = some text ∧ format.fromStr text = .ok value ∧
      (value.asObject.bind (List.lookup "schema_version")).bind asU64 =
        some (format.schemaVersion settings : Int) ∧
      format.fromValue value = .ok settings

/-- What a load makes of settings that were saved. -/
def SettingsFormat.readBack (format : SettingsFormat S) (settings : S) : Except String S :=
  if format.schemaVersion settings = settingsSchemaVersion then .ok settings
  else .error (unsupportedSchemaVersion (format.schemaVersion settings))

theorem SettingsFormat.RoundTrips.loadContents {format : SettingsFormat S}
    (h : format.RoundTrips) {settings : S} {contents : ByteArray}
    (hcontents : format.contents settings = .ok contents) (path : String) :
    format.loadContents path contents = format.readBack settings := by
  obtain ⟨text, value, htext, hvalue, hversion, hsettings⟩ := h settings contents hcontents
  simp only [SettingsFormat.loadContents, htext, loadFromStr, hvalue, hversion, readBack]
  by_cases hcurrent : format.schemaVersion settings = settingsSchemaVersion
  · rw [if_pos hcurrent, hcurrent, if_neg (not_not_intro rfl), hsettings]
    rfl
  · rw [if_neg hcurrent, if_pos fun heq => hcurrent (Int.ofNat_inj.mp heq)]

/-! ### The register -/

/-- What a settings file holds, and what it has held since the last crash, the latest first. -/
structure Register where
  value : Option ByteArray
  earlier : List (Option ByteArray) := []

namespace Register

variable (format : SettingsFormat S)

def shown (register : Register) : List (Option ByteArray) := register.value :: register.earlier

def apply (register : Register) : StoreEvent S → Register
  | .saved _ settings =>
      { value := (format.contents settings).toOption, earlier := register.shown }
  | .crashed back => { value := (register.shown[back]?).getD register.value }

def after (boot : Option ByteArray) (events : List (StoreEvent S)) : Register :=
  events.foldl (apply format) { value := boot }

variable {format} {boot : Option ByteArray} {events : List (StoreEvent S)}

theorem after_append (event : StoreEvent S) :
    after format boot (events ++ [event]) = (after format boot events).apply format event := by
  rw [after, List.foldl_append, List.foldl_cons, List.foldl_nil, ← after]

/-- Nothing is shown but what was there at first and what was saved. -/
theorem mem_shown_after {value : Option ByteArray}
    (h : value ∈ (after format boot events).shown) :
    value = boot ∨ ∃ index settings, .saved index settings ∈ events ∧
      value = (format.contents settings).toOption := by
  induction events using List.reverseRecOn generalizing value with
  | nil => exact .inl (List.mem_singleton.mp h)
  | append_singleton events event ih =>
      have hearlier : value ∈ (after format boot events).shown →
          value = boot ∨ ∃ index settings, .saved index settings ∈ events ++ [event] ∧
            value = (format.contents settings).toOption := by
        intro hmem
        refine (ih hmem).imp_right fun hsaved => ?_
        obtain ⟨index, settings, hsaved, hvalue⟩ := hsaved
        exact ⟨index, settings, List.mem_append_left _ hsaved, hvalue⟩
      rw [after_append] at h
      cases event with
      | saved index settings =>
          rcases List.mem_cons.mp h with hvalue | hmem
          · exact .inr ⟨index, settings, List.mem_append_right _ List.mem_cons_self, hvalue⟩
          · exact hearlier hmem
      | crashed back =>
          have hvalue : value = ((after format boot events).shown[back]?).getD
              (after format boot events).value := List.mem_singleton.mp h
          apply hearlier
          rw [hvalue]
          cases hback : (after format boot events).shown[back]? with
          | none => exact List.mem_cons_self
          | some value => exact List.mem_of_getElem? hback

end Register

/-! ### One step -/

/-- How far the file of a save is. -/
def Save.Sound (format : SettingsFormat S) (store : SettingsStore S) (save : Save S) : Prop :=
  match save.phase with
  | .writing file =>
      store.disk.current (store.temporary save) = some file ∧
        ∃ content, store.disk.files[file]? = some { content := content, flushed := false }
  | .flushing file =>
      store.disk.current (store.temporary save) = some file ∧
        ∃ contents, format.contents save.settings = .ok contents ∧
          store.disk.files[file]? = some { content := contents, flushed := false }
  | .replacing => ∃ file contents, store.disk.current (store.temporary save) = some file ∧
      format.contents save.settings = .ok contents ∧ store.disk.Holds file contents
  | .returned (.ok _) => ∃ contents, format.contents save.settings = .ok contents
  | _ => True

namespace SettingsStore

variable {format : SettingsFormat S} {store next : SettingsStore S} {boot : Option ByteArray}

/-- The result of a load comes from settings that were saved, or from what was there at first. -/
def Explained (format : SettingsFormat S) (boot : Option ByteArray) (store : SettingsStore S)
    (result : Except String S) : Prop :=
  (∃ contents, boot = some contents ∧ result = format.loadContents store.path contents) ∨
    ∃ index settings, .saved index settings ∈ store.events ∧ result = format.readBack settings

structure Sound (format : SettingsFormat S) (boot : Option ByteArray) (store : SettingsStore S) :
    Prop where
  records : store.disk.Records store.fileName (Register.after format boot store.events).shown
  sound : ∀ (index : Nat) (save : Save S), store.saves[index]? = some save → save.Sound format store
  apart : ∀ (index other : Nat) (save another : Save S) (file : Nat),
    store.saves[index]? = some save →
    store.saves[other]? = some another → save.phase.file = some file →
      another.phase.file = some file → index = other
  drawn : ∀ (index other : Nat) (save another : Save S), store.saves[index]? = some save →
    store.saves[other]? = some another → save.uuid = another.uuid → index = other
  saved : ∀ (index : Nat) (settings : S), .saved index settings ∈ store.events ↔ ∃ save,
    store.saves[index]? = some save ∧ save.settings = settings ∧ save.phase = .returned (.ok ())
  loaded : ∀ result ∈ store.loaded, store.Explained format boot result

end SettingsStore

/-- What a save has on the disk stays, whatever is done with other names and other files. -/
theorem Save.Sound.frame {format : SettingsFormat S} {store : SettingsStore S} {save : Save S}
    (h : save.Sound format store) {disk : Disk String ByteArray}
    (hcurrent : disk.current (store.temporary save) = store.disk.current (store.temporary save))
    (hfiles : ∀ number file, store.disk.files[number]? = some file →
      (file.flushed = true ∨ save.phase.file = some number) → disk.files[number]? = some file) :
    save.Sound format { store with disk := disk } := by
  obtain ⟨settings, uuid, phase⟩ := save
  cases phase with
  | writing file =>
      obtain ⟨hbound, content, hfile⟩ := h
      exact ⟨hcurrent.trans hbound, content, hfiles _ _ hfile (.inr rfl)⟩
  | flushing file =>
      obtain ⟨hbound, contents, hcontents, hfile⟩ := h
      exact ⟨hcurrent.trans hbound, contents, hcontents, hfiles _ _ hfile (.inr rfl)⟩
  | replacing =>
      obtain ⟨file, contents, hbound, hcontents, hfile⟩ := h
      exact ⟨file, contents, hcurrent.trans hbound, hcontents, hfiles _ _ hfile (.inl rfl)⟩
  | returned result => cases result <;> exact h
  | preparing | creating | removing _ | lost => exact h

namespace SettingsStore

variable {format : SettingsFormat S} {store : SettingsStore S} {boot : Option ByteArray}
  {index : Nat} {save : Save S} {phase : SavePhase} {disk : Disk String ByteArray}

theorem Explained.of_events {next : SettingsStore S} {result : Except String S}
    (h : store.Explained format boot result) (hpath : next.path = store.path)
    (hevents : ∀ event ∈ store.events, event ∈ next.events) :
    next.Explained format boot result := by
  rcases h with ⟨contents, hboot, hresult⟩ | ⟨index, settings, hsaved, hresult⟩
  · exact .inl ⟨contents, hboot, hpath ▸ hresult⟩
  · exact .inr ⟨index, settings, hevents _ hsaved, hresult⟩

/-- A name that is not the file's own leaves what the file has held. -/
theorem temporary_ne (store : SettingsStore S) (save : Save S) :
    store.fileName ≠ store.temporary save := temporaryName_ne store.fileName save.uuid

theorem Sound.temporary_ne (h : store.Sound format boot) {other : Nat} {another : Save S}
    (hsave : store.saves[index]? = some save) (hother : store.saves[other]? = some another)
    (hne : other ≠ index) : store.temporary another ≠ store.temporary save :=
  fun heq => hne (h.drawn other index another save hother hsave (temporaryName_injective heq))

/-- One step of a save. -/
theorem Sound.settle (h : store.Sound format boot) (hsave : store.saves[index]? = some save)
    (hopen : save.phase ≠ .returned (.ok ()))
    {events : List (StoreEvent S)}
    (hrecords : disk.Records store.fileName (Register.after format boot events).shown)
    (hself : Save.Sound format { store with disk := disk } { save with phase := phase })
    (hothers : ∀ other another, other ≠ index → store.saves[other]? = some another →
      another.Sound format { store with disk := disk })
    (hfile : ∀ other another file, other ≠ index → store.saves[other]? = some another →
      another.phase.file = some file → phase.file ≠ some file)
    (hevents : phase = .returned (.ok ()) ∧ events = store.events ++ [.saved index save.settings] ∨
      phase ≠ .returned (.ok ()) ∧ events = store.events) :
    Sound format boot
      ({ store with disk := disk, events := events }.settle index phase) := by
  have hgrows : ∀ event ∈ store.events, event ∈ events := by
    rcases hevents with ⟨_, rfl⟩ | ⟨_, rfl⟩
    · exact fun event hmem => List.mem_append_left _ hmem
    · exact fun event hmem => hmem
  have hchanged : ({ store with disk := disk, events := events } : SettingsStore S).saves[index]? =
      some save := hsave
  have hevent : ∀ other settings, other ≠ index → (.saved other settings ∈ events ↔
      .saved other settings ∈ store.events) := by
    intro other settings hne
    rcases hevents with ⟨_, rfl⟩ | ⟨_, rfl⟩
    · rw [List.mem_append, List.mem_singleton, or_iff_left]
      exact fun heq => hne (StoreEvent.saved.inj heq).1
    · exact Iff.rfl
  have hbefore : ∀ settings, .saved index settings ∉ store.events := by
    intro settings hmem
    obtain ⟨found, hfound, -, hreturned⟩ := (h.saved index settings).mp hmem
    rw [hsave] at hfound
    exact hopen (Option.some.inj hfound ▸ hreturned)
  refine ⟨hrecords, fun other another hother => ?_, fun one other save₁ save₂ file h₁ h₂ => ?_,
    fun one other save₁ save₂ h₁ h₂ huuid => ?_, fun other settings => ?_, fun result hmem => ?_⟩
  · rcases Slices.modify_eq_some hchanged hother with ⟨_, rfl⟩ | ⟨hne, hother⟩
    · exact hself
    · exact hothers other another hne hother
  · rcases Slices.modify_eq_some hchanged h₁ with ⟨rfl, rfl⟩ | ⟨hne₁, hsave₁⟩ <;>
      rcases Slices.modify_eq_some hchanged h₂ with ⟨rfl, rfl⟩ | ⟨hne₂, hsave₂⟩
    · exact fun _ _ => rfl
    · exact fun hphase hother => (hfile other save₂ file hne₂ hsave₂ hother hphase).elim
    · exact fun hother hphase => (hfile one save₁ file hne₁ hsave₁ hother hphase).elim
    · exact h.apart one other save₁ save₂ file hsave₁ hsave₂
  · rcases Slices.modify_eq_some hchanged h₁ with ⟨rfl, rfl⟩ | ⟨hne₁, hsave₁⟩ <;>
      rcases Slices.modify_eq_some hchanged h₂ with ⟨rfl, rfl⟩ | ⟨hne₂, hsave₂⟩
    · rfl
    · exact h.drawn one other save save₂ hsave hsave₂ huuid
    · exact h.drawn one other save₁ save hsave₁ hsave huuid
    · exact h.drawn one other save₁ save₂ hsave₁ hsave₂ huuid
  · change .saved other settings ∈ events ↔ _
    by_cases heq : other = index
    · subst heq
      rw [SettingsStore.settle, Slices.modify_self hchanged]
      rcases hevents with ⟨rfl, rfl⟩ | ⟨hphase, rfl⟩
      · rw [List.mem_append, List.mem_singleton, or_iff_right (hbefore settings)]
        constructor
        · intro heq
          exact ⟨_, rfl, (StoreEvent.saved.inj heq).2.symm, rfl⟩
        · rintro ⟨_, hfound, rfl, _⟩
          rw [← Option.some.inj hfound]
      · refine iff_of_false (hbefore settings) ?_
        rintro ⟨_, hfound, _, hreturned⟩
        rw [← Option.some.inj hfound] at hreturned
        exact hphase hreturned
    · rw [SettingsStore.settle, List.getElem?_modify_ne _ _ (Ne.symm heq),
        hevent other settings heq]
      exact h.saved other settings
  · exact (h.loaded result hmem).of_events rfl hgrows

/-- A step that does nothing to the disk. -/
theorem Sound.settle_idle (h : store.Sound format boot) (hsave : store.saves[index]? = some save)
    (hopen : save.phase ≠ .returned (.ok ())) (hfile : phase.file = none)
    (hself : Save.Sound format store { save with phase := phase })
    (hphase : phase ≠ .returned (.ok ())) : (store.settle index phase).Sound format boot := by
  refine h.settle hsave hopen h.records hself (fun other another _ => h.sound other another) ?_
    (.inr ⟨hphase, rfl⟩)
  intro other another file _ _ _
  rw [hfile]
  exact (Option.some_ne_none file).symm

/-- A step that only does something to the name that a save has for its file. -/
theorem Sound.others_named (h : store.Sound format boot) (hsave : store.saves[index]? = some save)
    (hfiles : ∀ (number : Nat) (file : File ByteArray), store.disk.files[number]? = some file →
      disk.files[number]? = some file)
    (hnames : ∀ name, name ≠ store.temporary save → name ≠ store.fileName →
      disk.current name = store.disk.current name)
    (other : Nat) (another : Save S) (hne : other ≠ index)
    (hother : store.saves[other]? = some another) :
    another.Sound format { store with disk := disk } := by
  refine (h.sound other another hother).frame ?_ fun number file hfile _ => hfiles number file hfile
  exact hnames _ (h.temporary_ne hsave hother hne) (store.temporary_ne another).symm

/-- A step that only does something to the file that a save fills. -/
theorem Sound.others_filled (h : store.Sound format boot) (hsave : store.saves[index]? = some save)
    {file : Nat} (hphase : save.phase.file = some file) {content : ByteArray}
    (hfile : store.disk.files[file]? = some { content := content, flushed := false })
    (change : File ByteArray → File ByteArray) (other : Nat) (another : Save S)
    (hne : other ≠ index)
    (hother : store.saves[other]? = some another) :
    another.Sound format
      { store with disk :=
        { store.disk with files := store.disk.files.modify file change } } := by
  refine (h.sound other another hother).frame rfl fun number found hfound hkept => ?_
  have hapart : file ≠ number := by
    rintro rfl
    rcases hkept with hflushed | hanother
    · rw [hfile] at hfound
      rw [← Option.some.inj hfound] at hflushed
      exact Bool.noConfusion hflushed
    · exact hne (h.apart other index another save file hother hsave hanother hphase)
  exact (List.getElem?_modify_ne _ _ hapart).trans hfound

/-- Filling it is left to the save that made the file. -/
theorem Sound.file_ne (h : store.Sound format boot) (hsave : store.saves[index]? = some save)
    {file : Nat} (hphase : save.phase.file = some file) (other : Nat) (another : Save S)
    (number : Nat) (hne : other ≠ index) (hother : store.saves[other]? = some another)
    (hanother : another.phase.file = some number) : some file ≠ some number := by
  intro heq
  rw [← heq] at hanother
  exact hne (h.apart other index another save file hother hsave hanother hphase)

/-- The file that a save fills is there. -/
theorem Save.Sound.file_lt (h : save.Sound format store) {file : Nat}
    (hphase : save.phase.file = some file) : file < store.disk.files.length := by
  obtain ⟨settings, uuid, phase⟩ := save
  cases phase with
  | writing number =>
      cases hphase
      obtain ⟨_, _, hfile⟩ := h
      exact (List.getElem?_eq_some_iff.mp hfile).1
  | flushing number =>
      cases hphase
      obtain ⟨_, _, _, hfile⟩ := h
      exact (List.getElem?_eq_some_iff.mp hfile).1
  | preparing | creating | replacing | removing _ | returned _ | lost => cases hphase

theorem Sound.create (h : store.Sound format boot) (hsave : store.saves[index]? = some save)
    (hopen : save.phase ≠ .returned (.ok ())) :
    Sound format boot
      ({ store with disk := store.disk.create (store.temporary save) ByteArray.empty }.settle index
        (.writing store.disk.files.length)) := by
  refine h.settle hsave hopen (h.records.create (store.temporary_ne save) _)
    ⟨Durable.bind_current_self _, ByteArray.empty, ?_⟩
    (h.others_named hsave (fun number file hfile => ?_)
      fun name hne _ => Durable.bind_current_of_ne hne _)
    (fun other another file _ hother hphase heq => ?_) (.inr ⟨by simp, rfl⟩)
  · exact List.getElem?_concat_length
  · exact (List.getElem?_append_left (List.getElem?_eq_some_iff.mp hfile).1).trans hfile
  · cases heq
    exact absurd (Save.Sound.file_lt (h.sound other another hother) hphase) (Nat.lt_irrefl _)

/-- A file that is full takes the place of the settings file. -/
theorem Sound.replace {settings : S} {uuid : String} (h : store.Sound format boot)
    (hsave : store.saves[index]? = some ⟨settings, uuid, .replacing⟩) {file : Nat}
    {contents : ByteArray}
    (hbound : store.disk.current (temporaryName store.fileName uuid) = some file)
    (hcontents : format.contents settings = .ok contents) (hfile : store.disk.Holds file contents) :
    Sound format boot
      ({ store with
        disk := store.disk.rename (temporaryName store.fileName uuid) store.fileName
        events := store.events ++ [StoreEvent.saved index settings] }.settle index
          (.returned (.ok ()))) := by
  have hne : temporaryName store.fileName uuid ≠ store.fileName :=
    (temporaryName_ne store.fileName uuid).symm
  refine h.settle hsave (by simp) ?_ ⟨contents, hcontents⟩
    (h.others_named hsave ?_ fun name hname hfileName => ?_)
    (fun _ _ _ _ _ _ => (Option.some_ne_none _).symm) (.inl ⟨rfl, rfl⟩)
  · rw [Register.after_append, Register.apply, hcontents]
    exact h.records.rename hne hbound hfile
  · intro number found hfound
    rw [Disk.rename, if_neg hne]
    exact hfound
  · rw [Disk.rename, if_neg hne]
    exact (Durable.bind_current_of_ne hname _).trans (Durable.bind_current_of_ne hfileName _)

/-- What the steps of a save keep. -/
theorem Sound.advance (h : store.Sound format boot) (hsave : store.saves[index]? = some save)
    (fault : Option (String × ByteArray)) :
    (store.advance format index save fault).Sound format boot := by
  have hsound : save.Sound format store := h.sound index save hsave
  obtain ⟨settings, uuid, phase⟩ := save
  cases phase with
  | preparing =>
      cases fault with
      | none => exact h.settle_idle hsave (by simp) rfl trivial (by simp)
      | some fault => exact h.settle_idle hsave (by simp) rfl trivial (by simp)
  | creating =>
      simp only [SettingsStore.advance]
      split
      · exact h.settle_idle hsave (by simp) rfl trivial (by simp)
      · exact h.create hsave (by simp)
  | writing file =>
      obtain ⟨hbound, content, hfile⟩ := hsound
      simp only [SettingsStore.advance]
      cases hcontents : format.contents settings with
      | error error => exact h.settle_idle hsave (by simp) rfl trivial (by simp)
      | ok contents =>
          cases fault with
          | some fault =>
              refine h.settle hsave (by simp) (h.records.write hfile rfl fault.2) trivial
                (h.others_filled hsave rfl hfile _) (fun _ _ _ _ _ _ => ?_) (.inr ⟨by simp, rfl⟩)
              exact (Option.some_ne_none _).symm
          | none =>
              refine h.settle hsave (by simp) (h.records.write hfile rfl contents)
                ⟨hbound, contents, hcontents, ?_⟩ (h.others_filled hsave rfl hfile _)
                (h.file_ne hsave rfl) (.inr ⟨by simp, rfl⟩)
              exact (List.getElem?_modify_eq ..).trans (by rw [hfile]; rfl)
  | flushing file =>
      obtain ⟨hbound, contents, hcontents, hfile⟩ := hsound
      cases fault with
      | some fault => exact h.settle_idle hsave (by simp) rfl trivial (by simp)
      | none =>
          refine h.settle hsave (by simp) (h.records.flush file)
            ⟨file, contents, hbound, hcontents, ?_⟩ (h.others_filled hsave rfl hfile _)
            (fun _ _ _ _ _ _ => (Option.some_ne_none _).symm) (.inr ⟨by simp, rfl⟩)
          exact (List.getElem?_modify_eq ..).trans (by rw [hfile]; rfl)
  | replacing =>
      obtain ⟨file, contents, hbound, hcontents, hfile⟩ := hsound
      simp only [SettingsStore.advance, hbound]
      cases fault with
      | some fault => exact h.settle_idle hsave (by simp) rfl trivial (by simp)
      | none => exact h.replace hsave hbound hcontents hfile
  | removing cause =>
      simp only [SettingsStore.advance]
      split
      · exact h.settle_idle hsave (by simp) rfl trivial (by simp)
      · refine h.settle hsave (by simp) (h.records.remove (store.temporary_ne _)) trivial
          (h.others_named hsave (fun _ _ => id) fun name hne _ => Durable.bind_current_of_ne hne _)
          (fun _ _ _ _ _ _ => (Option.some_ne_none _).symm) (.inr ⟨by simp, rfl⟩)
  | returned _ | lost => exact h

theorem Sound.add (h : store.Sound format boot) {uuid : String}
    (huuid : ∀ save ∈ store.saves, save.uuid ≠ uuid) (settings : S) :
    Sound format boot { store with saves := store.saves ++ [⟨settings, uuid, .preparing⟩] } := by
  refine ⟨h.records, fun other another hother => ?_, fun one other save₁ save₂ file h₁ h₂ => ?_,
    fun one other save₁ save₂ h₁ h₂ => ?_, fun other found => ?_, h.loaded⟩
  · rcases Slices.concat_eq_some hother with hother | ⟨_, rfl⟩
    · exact h.sound other another hother
    · trivial
  · rcases Slices.concat_eq_some h₁ with hsave₁ | ⟨_, rfl⟩ <;>
      rcases Slices.concat_eq_some h₂ with hsave₂ | ⟨_, rfl⟩
    · exact h.apart one other save₁ save₂ file hsave₁ hsave₂
    · exact fun _ hphase => (by cases hphase)
    · exact fun hphase _ => (by cases hphase)
    · exact fun hphase _ => (by cases hphase)
  · rcases Slices.concat_eq_some h₁ with hsave₁ | ⟨hone, rfl⟩ <;>
      rcases Slices.concat_eq_some h₂ with hsave₂ | ⟨hother, rfl⟩
    · exact h.drawn one other save₁ save₂ hsave₁ hsave₂
    · exact fun heq => (huuid save₁ (List.mem_of_getElem? hsave₁) heq).elim
    · exact fun heq => (huuid save₂ (List.mem_of_getElem? hsave₂) heq.symm).elim
    · exact fun _ => hone.trans hother.symm
  · rw [h.saved other found]
    constructor
    · rintro ⟨another, hother, hfound⟩
      exact ⟨another, Slices.concat_of_some hother _, hfound⟩
    · rintro ⟨another, hother, hsettings, hreturned⟩
      rcases Slices.concat_eq_some hother with hother | ⟨_, rfl⟩
      · exact ⟨another, hother, hsettings, hreturned⟩
      · cases hreturned

theorem crash_eq_returned {phase : SavePhase} :
    phase.crash = .returned (.ok ()) ↔ phase = .returned (.ok ()) := by
  cases phase <;> simp [SavePhase.crash]

theorem file_crash (phase : SavePhase) : phase.crash.file = none := by
  cases phase <;> rfl

/-- Over a crash every save is given up that has not returned, and the file falls back. -/
theorem Sound.crash (h : store.Sound format boot) (names : String → Nat)
    (contents : Nat → ByteArray) :
    (store.step format (.crash names contents)).Sound format boot := by
  have hcases : ∀ (other : Nat) (another : Save S),
      (store.step format (.crash names contents)).saves[other]? = some another →
        ∃ save, store.saves[other]? = some save ∧
          another = { save with phase := save.phase.crash } := by
    intro other another hother
    rw [step, List.getElem?_map, Option.map_eq_some_iff] at hother
    obtain ⟨save, hsave, heq⟩ := hother
    exact ⟨save, hsave, heq.symm⟩
  have hevents : ∀ event ∈ store.events,
      event ∈ (store.step format (.crash names contents)).events :=
    fun event hmem => List.mem_append_left _ hmem
  refine ⟨?_, fun other another hother => ?_, fun one other save₁ save₂ file h₁ _ => ?_,
    fun one other save₁ save₂ h₁ h₂ => ?_, fun other found => ?_, fun result hmem => ?_⟩
  · change Disk.Records _ _ (Register.after format boot (store.events ++ [_])).shown
    rw [Register.after_append]
    exact h.records.crash names contents
  · obtain ⟨⟨settings, uuid, phase⟩, hsave, rfl⟩ := hcases other another hother
    have hsound := h.sound other _ hsave
    cases phase with
    | returned result => cases result <;> exact hsound
    | preparing | creating | writing _ | flushing _ | replacing | removing _ | lost => trivial
  · obtain ⟨save, _, rfl⟩ := hcases one save₁ h₁
    intro hphase
    rw [file_crash] at hphase
    cases hphase
  · obtain ⟨first, hfirst, rfl⟩ := hcases one save₁ h₁
    obtain ⟨second, hsecond, rfl⟩ := hcases other save₂ h₂
    exact h.drawn one other first second hfirst hsecond
  · have hmem : StoreEvent.saved other found ∈ (store.step format (.crash names contents)).events ↔
        StoreEvent.saved other found ∈ store.events := by
      rw [step, List.mem_append, List.mem_singleton, or_iff_left (by simp)]
    rw [hmem, h.saved other found]
    constructor
    · rintro ⟨save, hsave, hsettings, hreturned⟩
      refine ⟨{ save with phase := save.phase.crash }, ?_, hsettings,
        crash_eq_returned.mpr hreturned⟩
      rw [step, List.getElem?_map, hsave]
      rfl
    · rintro ⟨another, hother, hsettings, hreturned⟩
      obtain ⟨save, hsave, rfl⟩ := hcases other another hother
      exact ⟨save, hsave, hsettings, crash_eq_returned.mp hreturned⟩
  · exact (h.loaded result hmem).of_events rfl hevents

/-- What is loaded is what the register holds. -/
theorem Sound.explained (h : store.Sound format boot) (hformat : format.RoundTrips)
    {contents : ByteArray} (hread : store.disk.read store.fileName = some contents) :
    store.Explained format boot (format.loadContents store.path contents) := by
  have hvalue : store.disk.read store.fileName = (Register.after format boot store.events).value :=
    h.records.read
  have hmem : some contents ∈ (Register.after format boot store.events).shown := by
    rw [← hread, hvalue]
    exact List.mem_cons_self
  rcases Register.mem_shown_after hmem with hboot | ⟨index, settings, hsaved, hcontents⟩
  · exact .inl ⟨contents, hboot.symm, rfl⟩
  · obtain ⟨save, hsave, rfl, hreturned⟩ := (h.saved index settings).mp hsaved
    have hsound := h.sound index save hsave
    rw [Save.Sound, hreturned] at hsound
    obtain ⟨written, hwritten⟩ := hsound
    rw [hwritten] at hcontents
    cases hcontents
    exact .inr ⟨index, save.settings, hsaved, hformat.loadContents hwritten store.path⟩

/-- `Uuid::new_v4` draws no id a second time. -/
def Fresh (store : SettingsStore S) : StoreMove S → Prop
  | .save _ uuid | .load _ uuid => ∀ save ∈ store.saves, save.uuid ≠ uuid
  | .advance _ _ | .crash _ _ => True

theorem Sound.step (hformat : format.RoundTrips) (store : SettingsStore S) (move : StoreMove S)
    (h : store.Sound format boot) (hfresh : store.Fresh move) :
    (store.step format move).Sound format boot := by
  cases move with
  | save settings uuid => exact h.add hfresh settings
  | load default uuid =>
      rw [SettingsStore.step, SettingsStore.load]
      split
      · rename_i contents hread
        refine { h with loaded := fun result hmem => ?_ }
        rcases List.mem_append.mp hmem with hmem | hmem
        · exact h.loaded result hmem
        · rw [List.mem_singleton.mp hmem]
          exact h.explained hformat hread
      · exact h.add hfresh default
  | advance index fault =>
      rw [SettingsStore.step]
      split
      · rename_i save hsave
        exact h.advance hsave fault
      · exact h
  | crash names contents => exact h.crash names contents

end SettingsStore

/-! ### Every run -/

open SettingsStore in
/-- In every run of saves, loads, failures and crashes the settings file is the register that its
saves set, those that return without an error and no other; and every load that finds a file gives
the settings of such a save, or what was there at first. -/
theorem run_settings {format : SettingsFormat S} (hformat : format.RoundTrips)
    (parent fileName : String) {disk : Disk String ByteArray} {boot : Option ByteArray}
    (hboot : disk.Records fileName [boot]) {moves : List (StoreMove S)}
    (hfresh : Runs.Keeps (step format) Fresh
      { parent := parent, fileName := fileName, disk := disk } moves) :
    let store := Runs.run (step format)
      { parent := parent, fileName := fileName, disk := disk } moves
    store.disk.read store.fileName = (Register.after format boot store.events).value ∧
      (∀ index save, store.saves[index]? = some save →
        (save.phase = .returned (.ok ()) ↔ .saved index save.settings ∈ store.events)) ∧
      ∀ result ∈ store.loaded, store.Explained format boot result := by
  intro store
  have hsound : store.Sound format boot := by
    refine Runs.invariant_run (SettingsStore.Sound format boot) (Sound.step hformat) ?_ hfresh
    refine ⟨hboot, fun _ _ hsave => ?_, fun _ _ _ _ _ hsave => ?_, fun _ _ _ _ hsave => ?_,
      fun _ _ => ?_, fun _ hmem => (List.not_mem_nil hmem).elim⟩
    · cases hsave
    · cases hsave
    · cases hsave
    · refine iff_of_false List.not_mem_nil ?_
      rintro ⟨_, hsave, _⟩
      cases hsave
  refine ⟨hsound.records.read, fun index save hsave => ?_, hsound.loaded⟩
  rw [hsound.saved index save.settings]
  constructor
  · exact fun hreturned => ⟨save, hsave, rfl, hreturned⟩
  · rintro ⟨found, hfound, -, hreturned⟩
    rw [hsave] at hfound
    rw [Option.some.inj hfound]
    exact hreturned

section Witness

/-- Settings that are no more than whether debug logging is enabled. -/
def debugLoggingFormat : SettingsFormat Bool where
  schemaVersion _ := 1
  toVecPretty enabled := .ok (toString enabled).toUTF8
  fromStr text := .ok <| .object
    [("debug_logging_enabled", .bool (text = "true\n")), ("schema_version", .number (.int 1))]
  fromValue value := match value with
    | .object ((_, .bool enabled) :: _) => .ok enabled
    | _ => .error "no settings"

theorem debugLoggingFormat_roundTrips : debugLoggingFormat.RoundTrips := by
  intro enabled contents hcontents
  cases enabled with
  | false =>
      cases hcontents
      exact ⟨"false\n", _, rfl, rfl, rfl, rfl⟩
  | true =>
      cases hcontents
      exact ⟨"true\n", _, rfl, rfl, rfl, rfl⟩

def emptyDirectory : Disk String ByteArray where
  files := []
  current _ := none
  earlier _ := []

/-- Two saves at once, of which the second fails; after a crash the first is loaded. -/
theorem run_settings_fullDisk :
    let moves : List (StoreMove Bool) := [.save true "a", .save false "b", .advance 0 none,
      .advance 1 none, .advance 0 none, .advance 1 none, .advance 0 none,
      .advance 1 (some ("No space left on device (os error 28)", "fa".toUTF8)), .advance 0 none,
      .advance 1 none, .advance 0 none, .crash (fun _ => 0) (fun _ => ByteArray.empty),
      .load false "c"]
    let store := Runs.run (SettingsStore.step debugLoggingFormat)
      { parent := "log73", fileName := "log73-radio-client.json", disk := emptyDirectory } moves
    store.disk.read store.fileName = some "true\n".toUTF8 ∧ store.loaded = [.ok true] := by
  intro moves store
  have hdrawn : ∀ {saves : List (Save Bool)} (uuids : List String) {uuid : String},
      saves.map Save.uuid = uuids → uuid ∉ uuids → ∀ save ∈ saves, save.uuid ≠ uuid := by
    rintro saves _ uuid rfl huuid save hsave rfl
    exact huuid (List.mem_map_of_mem hsave)
  have hfresh : Runs.Keeps (SettingsStore.step debugLoggingFormat) SettingsStore.Fresh
      { parent := "log73", fileName := "log73-radio-client.json", disk := emptyDirectory } moves :=
    ⟨hdrawn [] rfl (by decide), hdrawn ["a"] rfl (by decide), trivial,
      trivial, trivial, trivial, trivial, trivial, trivial, trivial, trivial, trivial,
      hdrawn ["a", "b"] rfl (by decide), trivial⟩
  have hrun := @run_settings Bool debugLoggingFormat debugLoggingFormat_roundTrips "log73"
    "log73-radio-client.json" emptyDirectory none (.cons trivial .nil) moves hfresh
  exact ⟨hrun.1.trans rfl, rfl⟩

end Witness

end Log73.ClientSettings
