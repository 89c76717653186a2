import Log73.ContestRules.Yaml

/-!
How one part of a contest definition is laid over another: mappings key by key,
lists of identified items item by item, anything else replaced.
-/

namespace Log73

open YamlValue YamlMapping

def optionalString (value : Option YamlValue) (name : String) : Except String (Option String) :=
  match value with
  | none => .ok none
  | some value =>
      match value.asStr with
      | some text => .ok (some text)
      | none => .error (name ++ " must be a string")

def stringList (value : Option YamlValue) (name : String) : Except String (List String) :=
  match value with
  | none => .ok []
  | some value =>
      match value.asSequence with
      | none => .error (name ++ " must be a list")
      | some values => values.mapM fun value =>
          match value.asStr with
          | some text => .ok text
          | none => .error (name ++ " entries must be strings")

def itemId (value : YamlValue) : Option String :=
  value.asMapping.bind fun entries => (get entries (.string "id")).bind asStr

def isKeyedCollection (values : List YamlValue) : Bool :=
  !values.isEmpty && values.all fun value => (itemId value).isSome

/-- `validate_unique_ids`: the ids seen so far are collected from left to right. -/
def validateUniqueIds (values : List YamlValue) (context : String) : Except String Unit := do
  let _ ← values.foldlM (fun ids value =>
    match itemId value with
    | none => return ids
    | some id =>
        if id ∈ ids then throw ("duplicate id " ++ id ++ " in " ++ context)
        else return id :: ids) ([] : List String)

/-- The mapping of an overlay item, which is known to be one. -/
def itemMapping (item : YamlValue) : YamlMapping := item.asMapping.getD []

/-- The item without what says how it is merged. -/
def cleanItem (item : YamlValue) : YamlMapping :=
  remove (remove (remove (itemMapping item) (.string "remove")) (.string "before"))
    (.string "after")

def positionOf (base : List YamlValue) (id : String) : Option Nat :=
  base.findIdx? fun candidate => itemId candidate == some id

/-- Where a merged item goes: before or after a named one, where it was, or last. -/
def targetPosition (base : List YamlValue) (id : String) (before after : Option String)
    (position : Option Nat) (context : String) : Except String Nat :=
  match before with
  | some target =>
      match positionOf base target with
      | some position => .ok position
      | none => .error
          ("unknown before target " ++ target ++ " for " ++ id ++ " in " ++ context)
  | none =>
      match after with
      | some target =>
          match positionOf base target with
          | some position => .ok (position + 1)
          | none => .error
              ("unknown after target " ++ target ++ " for " ++ id ++ " in " ++ context)
      | none =>
          match position with
          | some position => .ok (min position base.length)
          | none => .ok base.length

theorem size_itemMapping (item : YamlValue) : size (mapping (itemMapping item)) ≤ size item := by
  rw [itemMapping]
  cases h : item.asMapping with
  | none => exact size_pos item
  | some entries => exact size_asMapping h

theorem size_cleanItem (item : YamlValue) : size (mapping (cleanItem item)) ≤ size item :=
  (size_remove _ _).trans
    ((size_remove _ _).trans ((size_remove _ _).trans (size_itemMapping item)))

mutual

def mergeYaml (base overlay : YamlValue) (context : String) : Except String YamlValue :=
  match base, overlay with
  | .mapping base, .mapping overlay => do
      return .mapping (← mergeEntries base overlay context)
  | .sequence base, .sequence overlay =>
      if isKeyedCollection base || isKeyedCollection overlay then do
        return .sequence (← mergeKeyedCollection base overlay context)
      else
        return .sequence overlay
  | _, overlay => return overlay
termination_by (size overlay, 0)
decreasing_by
  · exact Prod.Lex.left _ _ (Nat.lt_succ_self _)
  · exact Prod.Lex.left _ _ (Nat.lt_succ_self _)

/-- The loop over the entries of an overlaid mapping. -/
def mergeEntries (base overlay : YamlMapping) (context : String) : Except String YamlMapping :=
  match overlay with
  | [] => return base
  | (key, value) :: overlay => do
      let merged ← match get base key with
        | some existing => mergeYaml existing value context
        | none => pure value
      mergeEntries (insertNew (remove base key) key merged) overlay context
termination_by (sizeEntries overlay, 1)
decreasing_by
  all_goals
    have := size_pos key
    refine Prod.Lex.left _ _ ?_
    rw [sizeEntries]
    omega

def mergeKeyedCollection (base overlay : List YamlValue) (context : String) :
    Except String (List YamlValue) := do
  if (base ++ overlay).any fun value => (itemId value).isNone then
    throw ("mixed keyed and unkeyed collection in " ++ context)
  validateUniqueIds base context
  validateUniqueIds overlay context
  if overlay.isEmpty then
    return []
  let merged ← mergeItems base overlay context
  validateUniqueIds merged context
  return merged
termination_by (sizeValues overlay, 2)
decreasing_by exact Prod.Lex.right _ (by omega)

/-- The loop over the items of an overlaid list. -/
def mergeItems (base overlay : List YamlValue) (context : String) :
    Except String (List YamlValue) :=
  match overlay with
  | [] => return base
  | item :: overlay =>
      match itemId item with
      | none => throw ("mixed keyed and unkeyed collection in " ++ context)
      | some id =>
          let position := positionOf base id
          if ((get (itemMapping item) (.string "remove")).bind asBool).getD false then
            match position with
            | none => throw ("cannot remove unknown id " ++ id ++ " in " ++ context)
            | some position => mergeItems (base.eraseIdx position) overlay context
          else do
            let before ← optionalString (get (itemMapping item) (.string "before")) "before"
            let after ← optionalString (get (itemMapping item) (.string "after")) "after"
            if before.isSome && after.isSome then
              throw ("id " ++ id ++ " sets both before and after in " ++ context)
            let clean : YamlValue := .mapping (cleanItem item)
            let merged ← match position.bind fun position => base[position]? with
              | some existing => mergeYaml existing clean context
              | none => pure clean
            let base := position.elim base base.eraseIdx
            let target ← targetPosition base id before after position context
            mergeItems (base.insertIdx target merged) overlay context
termination_by (sizeValues overlay, 1)
decreasing_by
  · refine Prod.Lex.left _ _ ?_
    have := size_pos item
    rw [sizeValues]
    omega
  · refine Prod.Lex.left _ _ ?_
    have := size_pos item
    rw [sizeValues]
    omega
  · have hclean := size_cleanItem item
    refine (Nat.lt_or_eq_of_le (hclean.trans (Nat.le_add_right _ _))).elim
      (fun hlt => Prod.Lex.left _ _ hlt) fun heq => ?_
    rw [heq]
    exact Prod.Lex.right _ Nat.one_pos

end

end Log73
