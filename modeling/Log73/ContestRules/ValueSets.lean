import Log73.ContestRules.Compose
import Log73.Paths
import Log73.RadioIo.Messages

/-!
The resolution of the value sets of the catalog and of a contest, with the memo and the stack the
source threads through it. The recursion of the source is bounded here by an explicit depth.
-/

namespace Log73

open RadioIo (lines)

structure RawValueSet where
  use : Option String := none
  values : Option (List String) := none
  valuesFromFile : Option String := none
  exclude : List String := []
  deriving DecidableEq

/-- What `fs::metadata` answers. -/
inductive FileMetadata where
  | regular
  | other
  | notFound
  | failed (error : String)

/-- The directories that the rules were loaded from, and the files there. -/
structure RuleFiles where
  searchPaths : List String
  metadata : String → FileMetadata
  readToString : String → Except String String

abbrev ResolvedSets := KeyMap (List String)

def formatPaths (paths : List String) : String :=
  if paths.isEmpty then "<none>" else joinWith ", " paths

section Files

variable (files : RuleFiles)

/-- The loop over the directories, the last one first. -/
def findValueSetFile (fileName : String) : List String → Except String String
  | [] => .error ("value-set file " ++ fileName ++ " not found in contest rules directories: " ++
      formatPaths files.searchPaths)
  | directory :: directories =>
      let candidate := joinPath directory fileName
      match files.metadata candidate with
      | .regular => .ok candidate
      | .other => .error ("value-set file is not a regular file: " ++ candidate)
      | .notFound => findValueSetFile fileName directories
      | .failed error => .error ("unable to inspect value-set file " ++ candidate ++ ": " ++ error)

def isNormal : PathComponent → Bool
  | .normal _ => true
  | _ => false

def valueSetFilePath (fileName : String) : Except String String :=
  if isAbsolute fileName ∨ (pathComponents fileName).length ≠ 1 ∨
      ¬(pathComponents fileName).head?.any isNormal then
    .error ("value-set file must be a file name within contest-rules directories: " ++ fileName)
  else findValueSetFile files fileName files.searchPaths.reverse

/-- The lines of a file that are neither blank nor comments. -/
def valueSetFileValues (fileName : String) : Except String (List String) := do
  let path ← valueSetFilePath files fileName
  match files.readToString path with
  | .error error => .error ("unable to read value-set file " ++ path ++ ": " ++ error)
  | .ok text => .ok (((lines text).map trim).filter fun value => value ≠ "" ∧ ¬startsWith value "#")

def rawSetValues (raw : RawValueSet) (base : List String) (name : String) :
    Except String (List String) :=
  match raw.values, raw.valuesFromFile with
  | some _, some _ => .error ("value set " ++ name ++ " defines both values and values_from_file")
  | some values, none => .ok values
  | none, some fileName => valueSetFileValues files fileName
  | none, none =>
      if raw.use.isSome then .ok base
      else .error ("value set " ++ name ++ " must define use, values, or values_from_file")

def resolveValueSetBody (raw : RawValueSet) (base : List String) (name : String) :
    Except String (List String) := do
  let values ← rawSetValues files raw base name
  let excluded := raw.exclude.map trim
  return (values.map trim).filter fun value => value ≠ "" ∧ value ∉ excluded

end Files

section Resolution

variable (files : RuleFiles)

def resolveNamedValueSet (raw : KeyMap RawValueSet) : Nat → String → ResolvedSets × List String →
    Except Stop (List String × ResolvedSets × List String)
  | 0, _, _ => .error .depth
  | depth + 1, name, (resolved, stack) =>
      match resolved[name]? with
      | some values => .ok (values, resolved, stack)
      | none => do
          let stack ← pushResolution ("value-set:" ++ name) stack
          let valueSet ← found ("unknown value set: " ++ name) raw[name]?
          let (base, resolved, stack) ← match valueSet.use with
            | some parent => resolveNamedValueSet raw depth parent (resolved, stack)
            | none => .ok ([], resolved, stack)
          let values ← report (resolveValueSetBody files valueSet base name)
          return (values, resolved.insert name values, stack.dropLast)

def resolveContestValueSet (raw : KeyMap RawValueSet) (global : ResolvedSets) : Nat → String →
    ResolvedSets × List String → Except Stop (List String × ResolvedSets × List String)
  | 0, _, _ => .error .depth
  | depth + 1, name, (resolved, stack) =>
      match resolved[name]? with
      | some values => .ok (values, resolved, stack)
      | none => do
          let stack ← pushResolution ("contest-value-set:" ++ name) stack
          let valueSet ← found ("unknown contest value set: " ++ name) raw[name]?
          let (base, resolved, stack) ← match valueSet.use with
            | some parent =>
                if parent = name then
                  (found ("unknown global value set " ++ parent ++
                    " extended by contest value set " ++ name) global[parent]?).map fun base =>
                      (base, resolved, stack)
                else if raw.contains parent then
                  resolveContestValueSet raw global depth parent (resolved, stack)
                else
                  (found ("unknown value set " ++ parent ++ " referenced by " ++ name)
                    global[parent]?).map fun base => (base, resolved, stack)
            | none => .ok ([], resolved, stack)
          let values ← report (resolveValueSetBody files valueSet base name)
          return (values, resolved.insert name values, stack.dropLast)

/-- The loop over the names, each with a stack of its own. -/
def resolveSets (resolve : String → ResolvedSets × List String →
    Except Stop (List String × ResolvedSets × List String)) :
    List String → ResolvedSets → Except Stop ResolvedSets
  | [], resolved => .ok resolved
  | name :: names, resolved => do
      let (_, resolved, _) ← resolve name (resolved, [])
      resolveSets resolve names resolved

/-- The sets of the catalog as `serde_yaml` reads them. -/
def parseValueSets (fromValue : YamlValue → Except String RawValueSet) :
    List (String × YamlValue) → Except String (KeyMap RawValueSet)
  | [] => .ok ∅
  | (name, value) :: entries =>
      match fromValue value with
      | .error error => .error ("invalid value set " ++ name ++ ": " ++ error)
      | .ok valueSet => do
          let parsed ← parseValueSets fromValue entries
          return parsed.insert name valueSet

def resolveGlobalValueSets (fromValue : YamlValue → Except String RawValueSet) (depth : Nat)
    (raw : KeyMap YamlValue) : Except Stop ResolvedSets := do
  let parsed ← report (parseValueSets fromValue raw.toList)
  resolveSets (resolveNamedValueSet files parsed depth) parsed.keys ∅

def resolveContestValueSets (depth : Nat) (raw : KeyMap RawValueSet) (global : ResolvedSets) :
    Except Stop ResolvedSets := do
  let resolved ← resolveSets (resolveContestValueSet files raw global depth) raw.keys ∅
  return global ∪ resolved

end Resolution

end Log73
