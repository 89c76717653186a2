import Log73.ContestRules.Merge
import Log73.Json

/-!
The composition of a contest from the profiles and the contest it builds on, with
the memo and the resolution stack the source threads through it. The recursion of the
source is bounded here by an explicit depth.
-/

namespace Log73

open YamlMapping

structure Catalog where
  presets : KeyMap YamlValue
  profiles : KeyMap YamlValue
  contests : KeyMap YamlValue

/-- Why a resolution stops without a result: the depth was used up, which the source
does not do, or an error is reported. -/
inductive Stop where
  | depth
  | error (message : String)
  deriving DecidableEq

abbrev Memo := KeyMap YamlValue

def report {α : Type} : Except String α → Except Stop α
  | .ok value => .ok value
  | .error message => .error (.error message)

def found {α : Type} (message : String) : Option α → Except Stop α
  | some value => .ok value
  | none => .error (.error message)

@[simp] theorem report_ok {α : Type} (value : α) : report (.ok value) = .ok value := rfl

@[simp] theorem report_error {α : Type} (message : String) :
    report (.error message : Except String α) = .error (.error message) := rfl

@[simp] theorem found_some {α : Type} (message : String) (value : α) :
    found message (some value) = .ok value := rfl

theorem ok_bind {ε α β : Type} (value : α) (k : α → Except ε β) :
    (Except.ok value >>= k) = k value := rfl

theorem error_bind {ε α β : Type} (e : ε) (k : α → Except ε β) :
    (Except.error e >>= k) = .error e := rfl

/-- `push_resolution`. -/
def pushResolution (token : String) (stack : List String) : Except Stop (List String) :=
  match stack.findIdx? fun entry => entry == token with
  | some position => .error (.error ("contest-rules reference cycle: " ++
      joinWith " -> " (stack.drop position) ++ " -> " ++ token))
  | none => .ok (stack ++ [token])

/-- The loop that resolves references one after the other and lays each over what the
ones before it gave. -/
def mergeReferences {ι σ : Type} (resolve : ι → σ → Except Stop (YamlValue × σ))
    (context : String) : List ι → YamlValue → σ → Except Stop (YamlValue × σ)
  | [], value, state => .ok (value, state)
  | reference :: references, value, state => do
      let (resolved, state) ← resolve reference state
      let value ← report (mergeYaml value resolved context)
      mergeReferences resolve context references value state

def composeProfile (catalog : Catalog) : Nat → String → Memo × List String →
    Except Stop (YamlValue × Memo × List String)
  | 0, _, _ => .error .depth
  | depth + 1, id, (cache, stack) =>
      match cache[id]? with
      | some value => .ok (value, cache, stack)
      | none => do
          let stack ← pushResolution ("profile:" ++ id) stack
          let body ← found ("unknown profile: " ++ id) catalog.profiles[id]?
          let mapping ← found ("profile " ++ id ++ " must be a mapping") body.asMapping
          let profiles ← report (stringList (get mapping (.string "profiles")) "profiles")
          let (value, cache, stack) ← mergeReferences (composeProfile catalog depth)
            ("profile " ++ id) profiles (.mapping []) (cache, stack)
          let own := remove mapping (.string "profiles")
          let value ← report (mergeYaml value (.mapping own) ("profile " ++ id))
          return (value, cache.insert id value, stack.dropLast)

/-- A profile named by a contest is composed with a memo of its own. -/
def composeProfileOfContest (catalog : Catalog) (depth : Nat) (id : String) :
    Memo × List String → Except Stop (YamlValue × Memo × List String)
  | (cache, stack) => do
      let (resolved, _, stack) ← composeProfile catalog depth id (∅, stack)
      return (resolved, cache, stack)

def composeContest (catalog : Catalog) : Nat → String → Memo × List String →
    Except Stop (YamlValue × Memo × List String)
  | 0, _, _ => .error .depth
  | depth + 1, id, (cache, stack) =>
      match cache[id]? with
      | some value => .ok (value, cache, stack)
      | none => do
          let stack ← pushResolution ("contest:" ++ id) stack
          let body ← found ("unknown contest: " ++ id) catalog.contests[id]?
          let mapping ← found ("contest " ++ id ++ " must be a mapping") body.asMapping
          let profiles ← report (stringList (get mapping (.string "profiles")) "profiles")
          let (value, cache, stack) ← mergeReferences (composeProfileOfContest catalog depth)
            ("contest " ++ id) profiles (.mapping []) (cache, stack)
          let parent ← report (optionalString (get mapping (.string "extends")) "extends")
          let (value, cache, stack) ← mergeReferences (composeContest catalog depth)
            ("contest " ++ id) parent.toList value (cache, stack)
          let own := remove (remove mapping (.string "profiles")) (.string "extends")
          let value ← report (mergeYaml value (.mapping own) ("contest " ++ id))
          return (value, cache.insert id value, stack.dropLast)

/-- The loop of `load_dirs` over the contests, each composed with a stack of its own. -/
def composeAll (catalog : Catalog) (depth : Nat) : List String → Memo → Except Stop Memo
  | [], composed => .ok composed
  | id :: ids, composed => do
      let (value, composed, _) ← composeContest catalog depth id (composed, [])
      composeAll catalog depth ids (composed.insert id value)

end Log73
