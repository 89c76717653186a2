import Mathlib.Data.List.Forall2
import Mathlib.Logic.Function.Basic

/-!
A directory of files that may crash. A name stands for a file or for none, and a file that was
flushed keeps its content over a crash; any other may hold anything afterwards. No directory is
ever flushed, so that a crash may bring back whatever a name stood for since the crash before.
-/

namespace Log73.Durable

structure File (α : Type) where
  content : α
  flushed : Bool

/-- `earlier` is what a name stood for since the last crash, the latest first. -/
structure Disk (ν α : Type) where
  files : List (File α)
  current : ν → Option Nat
  earlier : ν → List (Option Nat)

namespace Disk

variable {ν α : Type} (disk : Disk ν α)

def read (name : ν) : Option α :=
  (disk.current name).bind fun number => (disk.files[number]?).map File.content

def write (number : Nat) (content : α) : Disk ν α :=
  { disk with files := disk.files.modify number fun _ => { content := content, flushed := false } }

def flush (number : Nat) : Disk ν α :=
  { disk with files := disk.files.modify number fun file => { file with flushed := true } }

/-- `names` says how far back each name falls, `contents` what becomes of a file that was not
flushed. -/
def crash (names : ν → Nat) (contents : Nat → α) : Disk ν α where
  files := disk.files.mapIdx fun number file =>
    if file.flushed then file else { content := contents number, flushed := true }
  current name := ((disk.current name :: disk.earlier name)[names name]?).getD (disk.current name)
  earlier _ := []

variable [DecidableEq ν]

def bind (name : ν) (binding : Option Nat) : Disk ν α :=
  { disk with
    current := Function.update disk.current name binding
    earlier := Function.update disk.earlier name (disk.current name :: disk.earlier name) }

/-- A new file under a name; its number is that of the files before it. -/
def create (name : ν) (content : α) : Disk ν α :=
  let file : File α := { content := content, flushed := false }
  ({ disk with files := disk.files ++ [file] } : Disk ν α).bind name (some disk.files.length)

def rename (source target : ν) : Disk ν α :=
  if source = target then disk
  else (disk.bind target (disk.current source)).bind source none

def remove (name : ν) : Disk ν α := disk.bind name none

end Disk

/-! ### What a name has stood for -/

section Records

variable {ν α : Type} {disk : Disk ν α} {name other : ν} {number : Nat}
  {content : α} {shown : List (Option α)}

/-- A file has a content for good. -/
def Disk.Holds (disk : Disk ν α) (number : Nat) (content : α) : Prop :=
  disk.files[number]? = some { content := content, flushed := true }

/-- A binding stands for nothing, or for a file that has a content for good. -/
def Disk.Stands (disk : Disk ν α) : Option Nat → Option α → Prop
  | none, none => True
  | some number, some content => disk.Holds number content
  | _, _ => False

/-- What a name has stood for since the last crash, the latest first: whatever it falls back to is
one of these contents. -/
def Disk.Records (disk : Disk ν α) (name : ν) (shown : List (Option α)) : Prop :=
  List.Forall₂ disk.Stands (disk.current name :: disk.earlier name) shown

theorem Disk.Stands.of_holds {next : Disk ν α} {binding : Option Nat} {value : Option α}
    (h : disk.Stands binding value)
    (hkept : ∀ number content, disk.Holds number content → next.Holds number content) :
    next.Stands binding value := by
  match binding, value, h with
  | none, none, _ => trivial
  | some number, some content, h => exact hkept number content h

theorem Disk.Records.of_holds {next : Disk ν α} (h : disk.Records name shown)
    (hkept : ∀ number content, disk.Holds number content → next.Holds number content)
    (hcurrent : next.current name = disk.current name)
    (hearlier : next.earlier name = disk.earlier name) : next.Records name shown := by
  rw [Records, hcurrent, hearlier]
  exact h.imp fun _ _ hstands => hstands.of_holds hkept

theorem Disk.Records.read {value : Option α} (h : disk.Records name (value :: shown)) :
    disk.read name = value := by
  have hstands : disk.Stands (disk.current name) value := (List.forall₂_cons.mp h).1
  rw [Disk.read]
  generalize disk.current name = binding at hstands ⊢
  match binding, value, hstands with
  | none, none, _ => rfl
  | some number, some content, hfile =>
      have hfile : disk.files[number]? = some { content := content, flushed := true } := hfile
      rw [Option.bind_some, hfile, Option.map_some]

theorem getD_of_forall₂ {β γ : Type} {R : β → γ → Prop} {b : β} {c : γ} (hdefault : R b c)
    {bs : List β} {cs : List γ} (h : List.Forall₂ R bs cs) (index : Nat) :
    R (bs[index]?.getD b) (cs[index]?.getD c) := by
  induction h generalizing index with
  | nil => exact hdefault
  | cons hhead _ ih =>
      cases index with
      | zero => exact hhead
      | succ index => exact ih index

theorem Disk.Records.write {file : File α} (h : disk.Records name shown)
    (hfile : disk.files[number]? = some file) (hflushed : file.flushed = false) (content : α) :
    (disk.write number content).Records name shown := by
  refine h.of_holds (fun other kept hother => ?_) rfl rfl
  have hne : number ≠ other := by
    rintro rfl
    rw [hother] at hfile
    cases hfile
    exact Bool.noConfusion hflushed
  exact (List.getElem?_modify_ne _ _ hne).trans hother

theorem Disk.Records.flush (h : disk.Records name shown) (number : Nat) :
    (disk.flush number).Records name shown := by
  refine h.of_holds (fun other kept hother => ?_) rfl rfl
  rw [Disk.Holds, Disk.flush, List.getElem?_modify, hother]
  split <;> rfl

/-- After a crash a name stands for what it fell back to. -/
theorem Disk.Records.crash {value : Option α} (h : disk.Records name (value :: shown))
    (names : ν → Nat) (contents : Nat → α) :
    (disk.crash names contents).Records name
      [((value :: shown)[names name]?).getD value] := by
  refine .cons ?_ .nil
  have hkept : ∀ number content, disk.Holds number content →
      (disk.crash names contents).Holds number content := by
    intro number content hfile
    rw [Holds, Disk.crash, List.getElem?_mapIdx, hfile]
    rfl
  exact (getD_of_forall₂ (List.forall₂_cons.mp h).1 h (names name)).of_holds hkept

section Names

variable [DecidableEq ν]

@[simp] theorem bind_current_self (binding : Option Nat) :
    (disk.bind name binding).current name = binding := Function.update_self ..

@[simp] theorem bind_current_of_ne (hne : other ≠ name) (binding : Option Nat) :
    (disk.bind name binding).current other = disk.current other := Function.update_of_ne hne ..

@[simp] theorem bind_earlier_of_ne (hne : other ≠ name) (binding : Option Nat) :
    (disk.bind name binding).earlier other = disk.earlier other := Function.update_of_ne hne ..

@[simp] theorem bind_earlier_self (binding : Option Nat) :
    (disk.bind name binding).earlier name = disk.current name :: disk.earlier name :=
  Function.update_self ..

/-- What another name is bound to does not count. -/
theorem Disk.Records.bind (h : disk.Records name shown) (hne : name ≠ other)
    (binding : Option Nat) : (disk.bind other binding).Records name shown :=
  h.of_holds (fun _ _ => id) (bind_current_of_ne hne binding) (bind_earlier_of_ne hne binding)

theorem Disk.Records.bind_self (h : disk.Records name shown) {binding : Option Nat}
    {value : Option α} (hstands : disk.Stands binding value) :
    (disk.bind name binding).Records name (value :: shown) := by
  rw [Records, bind_current_self, bind_earlier_self]
  exact .cons hstands h

theorem Disk.Records.create (h : disk.Records name shown) (hne : name ≠ other) (content : α) :
    (disk.create other content).Records name shown := by
  refine h.of_holds (fun number kept hfile => ?_) (bind_current_of_ne hne _)
    (bind_earlier_of_ne hne _)
  exact (List.getElem?_append_left (List.getElem?_eq_some_iff.mp hfile).1).trans hfile

/-- A flushed file that takes a name over is what the name stands for from then on. -/
theorem Disk.Records.rename (h : disk.Records name shown) (hne : other ≠ name)
    (hcurrent : disk.current other = some number)
    (hfile : disk.Holds number content) :
    (disk.rename other name).Records name (some content :: shown) := by
  rw [Disk.rename, if_neg hne, hcurrent]
  have hstands : disk.Stands (some number) (some content) := hfile
  exact (h.bind_self hstands).bind hne.symm none

theorem Disk.Records.remove (h : disk.Records name shown) (hne : name ≠ other) :
    (disk.remove other).Records name shown := h.bind hne none

end Names

end Records

end Log73.Durable
