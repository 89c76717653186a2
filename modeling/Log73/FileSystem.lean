import Log73.Library.FileTree
import Log73.Paths

/-!
The file system as `std::fs` sees it: the tree of files, the directory that relative paths start
from, and the questions that are asked about a path.
-/

namespace Log73

/-- A name in a directory: a text, or bytes that are none. -/
inductive OsName where
  | text (name : String)
  | bytes (name : List UInt8)
  deriving DecidableEq

abbrev FileNode := FileTree OsName (List UInt8)

/-- Behaviour of the system that the model does not compute: what `to_string_lossy` makes of a name
that is no text, and the text of the error that resolving a path ends with. -/
class OsTexts where
  lossy : List UInt8 → String
  failure : String → String

def OsName.lossy [OsTexts] : OsName → String
  | .text name => name
  | .bytes name => OsTexts.lossy name

structure FileSystem where
  tree : FileNode
  workingDirectory : List OsName
  working : ∃ entries, tree.lookup workingDirectory = some (.directory entries)

/-- The links that one resolution follows at most. -/
def maxLinks : Nat := 40

def pathStep (part : String) : PathStep OsName :=
  if part = "" ∨ part = "." then .current
  else if part = ".." then .parent
  else .name (.text part)

/-- The steps of a path. A separator that nothing follows asks for a directory before it. -/
def pathSteps (path : String) : List (PathStep OsName) :=
  (if isAbsolute path then [.root] else []) ++ (pathParts path).map pathStep

namespace FileSystem

variable (fs : FileSystem)

def resolveSteps (steps : List (PathStep OsName)) : Option (List OsName) :=
  (fs.tree.resolve maxLinks fs.workingDirectory steps).map Prod.snd

/-- `Path::canonicalize`. -/
def canonicalize (path : String) : Option (List OsName) :=
  if path = "" then none else fs.resolveSteps (pathSteps path)

/-- `Path::canonicalize` of the path to a place. -/
def canonicalizePlace (place : List OsName) : Option (List OsName) :=
  fs.resolveSteps (.root :: place.map .name)

def read (place : List OsName) : Option (List UInt8) :=
  match fs.tree.lookup place with
  | some (.file content) => some content
  | _ => none

def readDir (place : List OsName) : Option (List (OsName × FileNode)) :=
  match fs.tree.lookup place with
  | some (.directory entries) => some entries
  | _ => none

/-- `Path::is_file`. -/
def isFile (path : String) : Bool := ((fs.canonicalize path).bind fs.read).isSome

theorem read_eq_some {place : List OsName} {content : List UInt8} :
    fs.read place = some content ↔ fs.tree.lookup place = some (.file content) := by
  rw [read]
  cases fs.tree.lookup place with
  | none => simp
  | some node => cases node <;> simp

theorem resolve_root (links : Nat) (steps : List (PathStep OsName)) :
    fs.tree.resolve links fs.workingDirectory (.root :: steps) =
      fs.tree.resolve links [] steps := by
  obtain ⟨entries, hworking⟩ := fs.working
  obtain ⟨follow, hfollow⟩ := FileTree.exists_resolve_eq fs.tree links
  rw [hfollow, FileTree.resolveWith, hworking]

/-- The place of a file is its canonical path. -/
theorem canonicalizePlace_eq {place : List OsName} {content : List UInt8}
    (h : fs.tree.lookup place = some (.file content)) :
    fs.canonicalizePlace place = some place := by
  have hfile : ∀ target, (.file content : FileNode) ≠ .link target := fun target heq => by cases heq
  have hresolve : fs.tree.resolve maxLinks [] (place.map .name) = some (maxLinks, [] ++ place) :=
    FileTree.resolve_names h hfile
  rw [canonicalizePlace, resolveSteps, resolve_root, hresolve]
  rfl

end FileSystem

/-! ### Paths that are joined -/

theorem splitOnChar_join (sep : Char) (front back : List Char) :
    splitOnChar sep (front ++ sep :: back) = splitOnChar sep front ++ splitOnChar sep back := by
  induction front with
  | nil => exact splitOnChar_append List.not_mem_nil back
  | cons c front ih =>
      rw [List.cons_append, splitOnChar, splitOnChar, ih]
      cases hfront : splitOnChar sep front with
      | nil => exact absurd hfront (splitOnChar_ne_nil sep front)
      | cons part parts =>
          dsimp only [List.cons_append]
          split <;> rfl

theorem intercalate_splitOnChar (sep : Char) (cs : List Char) :
    [sep].intercalate (splitOnChar sep cs) = cs := by
  induction cs with
  | nil => rfl
  | cons c cs ih =>
      rw [splitOnChar]
      cases hparts : splitOnChar sep cs with
      | nil => exact absurd hparts (splitOnChar_ne_nil sep cs)
      | cons part parts =>
          rw [hparts] at ih
          dsimp only
          split
          · next hsep =>
              rw [List.intercalate_cons_cons, ih, hsep]
              rfl
          · cases parts with
            | nil =>
                rw [List.intercalate_singleton] at ih ⊢
                rw [ih]
            | cons next parts =>
                rw [List.intercalate_cons_cons] at ih ⊢
                rw [← ih]
                rfl

/-- A path is the text of its parts. -/
theorem joinWith_pathParts (path : String) : joinWith "/" (pathParts path) = path := by
  apply String.toList_injective
  rw [joinWith, String.toList_intercalate, pathParts, List.map_map]
  have hparts : String.toList ∘ String.ofList = id := funext fun _ => String.toList_ofList
  rw [hparts, List.map_id]
  exact intercalate_splitOnChar '/' path.toList

theorem pathParts_join (directory path : String) :
    pathParts (directory ++ "/" ++ path) = pathParts directory ++ pathParts path := by
  have htext : (directory ++ "/" ++ path).toList = directory.toList ++ '/' :: path.toList := by
    simp
  rw [pathParts, htext, splitOnChar_join, List.map_append]
  rfl

theorem isAbsolute_append {directory : String} (h : directory ≠ "") (path : String) :
    isAbsolute (directory ++ path) = isAbsolute directory := by
  rw [isAbsolute, isAbsolute, startsWith, startsWith, String.toList_append]
  cases hchars : directory.toList with
  | nil => exact absurd (String.toList_eq_nil_iff.mp hchars) h
  | cons c cs => rfl

section Join

variable {tree : FileNode} {links : Nat} {place : List OsName}

theorem resolve_current {state : Nat × List OsName}
    (h : tree.resolve links place [.current] = some state) : state = (links, place) := by
  obtain ⟨follow, hfollow⟩ := FileTree.exists_resolve_eq tree links
  rw [hfollow, FileTree.resolveWith] at h
  split at h
  · exact (Option.some.inj h).symm
  · cases h

/-- A relative path that is joined to a directory is resolved from where that leads. -/
theorem resolve_join {directory path : String} (hdirectory : directory ≠ "")
    (hrelative : isAbsolute path = false) {start root : List OsName} {left : Nat}
    (h : tree.resolve links start (pathSteps directory) = some (left, root)) :
    tree.resolve links start (pathSteps (joinPath directory path)) =
      tree.resolve left root ((pathParts path).map pathStep) := by
  rw [joinPath, hrelative, if_neg Bool.false_ne_true]
  by_cases hend : endsWith directory "/" = true
  · obtain ⟨front, hfront⟩ := List.isSuffixOf_iff_suffix.mp hend
    have htext : directory = String.ofList front ++ "/" ++ "" := by
      apply String.toList_injective
      simp [← hfront]
    have hparts : pathParts directory = pathParts (String.ofList front) ++ [""] := by
      conv_lhs => rw [htext]
      exact pathParts_join _ _
    have hjoined : pathParts (directory ++ path) =
        pathParts (String.ofList front) ++ pathParts path := by
      have : directory ++ path = String.ofList front ++ "/" ++ path := by
        rw [htext]
        simp
      rw [this, pathParts_join]
    have hsteps : pathSteps directory = ((if isAbsolute directory then [.root] else []) ++
        (pathParts (String.ofList front)).map pathStep) ++ [.current] := by
      rw [pathSteps, hparts, List.map_append, List.append_assoc]
      rfl
    rw [hsteps, FileTree.resolve_append, Option.bind_eq_some_iff] at h
    obtain ⟨state, hfront', hcurrent⟩ := h
    obtain ⟨rfl, rfl⟩ := Prod.mk.inj (resolve_current hcurrent)
    rw [if_pos (Or.inr hend), pathSteps, isAbsolute_append hdirectory, hjoined, List.map_append,
      ← List.append_assoc, FileTree.resolve_append, hfront', Option.bind_some]
  · have hsteps : pathSteps (directory ++ "/" ++ path) =
        pathSteps directory ++ (pathParts path).map pathStep := by
      rw [pathSteps, pathSteps, pathParts_join, String.append_assoc,
        isAbsolute_append hdirectory, List.map_append, List.append_assoc]
    rw [if_neg (not_or.mpr ⟨hdirectory, hend⟩), hsteps, FileTree.resolve_append, h,
      Option.bind_some]

end Join

end Log73
