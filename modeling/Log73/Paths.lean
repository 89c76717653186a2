import Log73.Text

/-!
Paths of a Unix file system as `std::path` reads them: one separator, empty parts and interior
dots left out.
-/

namespace Log73

inductive PathComponent where
  | rootDir
  | curDir
  | parentDir
  | normal (name : String)
  deriving DecidableEq

/-- A part between separators; a dot counts only in front, where it is taken care of. -/
def pathPart (part : String) : Option PathComponent :=
  if part = "" ∨ part = "." then none
  else if part = ".." then some .parentDir
  else some (.normal part)

def pathParts (path : String) : List String := (splitOnChar '/' path.toList).map String.ofList

def isAbsolute (path : String) : Bool := startsWith path "/"

/-- `Path::components`. -/
def pathComponents (path : String) : List PathComponent :=
  (if isAbsolute path then [.rootDir]
    else if (pathParts path).head? = some "." then [.curDir]
    else []) ++ (pathParts path).filterMap pathPart

/-- `Path::join`. -/
def joinPath (directory path : String) : String :=
  if isAbsolute path then path
  else if directory = "" ∨ endsWith directory "/" then directory ++ path
  else directory ++ "/" ++ path

end Log73
