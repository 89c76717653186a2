import Log73.ContestRules.ValueSets
import Log73.Library.Checks
import Log73.Library.Lineage

/-!
What the value sets of a scope come to, stated without memo, stack or order: the catalog has a
scope of its own, and that of a contest lies within it.
-/

namespace Log73

open RadioIo (lines)
open Relation

/-! ### The values of one set -/

/-- What a set has of its own list, of its own file, or else of the set that it uses. -/
inductive Listed (files : RuleFiles) (set : RawValueSet) (used : List String) :
    List String → Prop
  | values {values : List String} (hvalues : set.values = some values)
      (hfile : set.valuesFromFile = none) : Listed files set used values
  | file {fileName path text : String} (hvalues : set.values = none)
      (hfile : set.valuesFromFile = some fileName)
      (hpath : valueSetFilePath files fileName = .ok path)
      (hread : files.readToString path = .ok text) :
      Listed files set used ((lines text).filter fun line => ¬startsWith (trim line) "#")
  | use {parent : String} (hvalues : set.values = none) (hfile : set.valuesFromFile = none)
      (huse : set.use = some parent) : Listed files set used used

/-- Trimmed, without what is blank or excluded. -/
def keptValues (set : RawValueSet) (listed : List String) : List String :=
  (listed.map trim).filter fun value => value ≠ "" ∧ value ∉ set.exclude.map trim

section Body

variable {files : RuleFiles} {set : RawValueSet} {used : List String}

theorem trim_trim (s : String) : trim (trim s) = trim s := by
  rw [trim, trim, String.toList_ofList, trimChars_trimChars]

theorem keptValues_lines (set : RawValueSet) (listed : List String) :
    keptValues set ((listed.map trim).filter fun value => value ≠ "" ∧ ¬startsWith value "#") =
      keptValues set (listed.filter fun line => ¬startsWith (trim line) "#") := by
  induction listed with
  | nil => rw [List.map_nil, List.filter_nil, List.filter_nil]
  | cons line listed ih =>
      rw [List.map_cons, List.filter_cons, List.filter_cons]
      by_cases hcomment : startsWith (trim line) "#" = true
      · rw [if_neg (by simp [hcomment]), if_neg (by simp [hcomment])]
        exact ih
      · rw [keptValues, keptValues] at ih ⊢
        by_cases hblank : trim line = ""
        · -- a blank line goes sooner or later
          rw [if_neg (by simp [hblank]), if_pos (by simp [hcomment]), List.map_cons,
            List.filter_cons_of_neg (by simp [hblank])]
          exact ih
        · rw [if_pos (by simp [hblank, hcomment]), if_pos (by simp [hcomment]), List.map_cons,
            List.map_cons, List.filter_cons, List.filter_cons, trim_trim, ih]

theorem Listed.unique {listed listed' : List String} (h : Listed files set used listed)
    (h' : Listed files set used listed') : listed = listed' := by
  cases h with
  | values hvalues hfile =>
      cases h' with
      | values hvalues' _ => exact Option.some.inj (hvalues.symm.trans hvalues')
      | file hvalues' _ _ _ | use hvalues' _ _ => cases hvalues.symm.trans hvalues'
  | file hvalues hfile hpath hread =>
      cases h' with
      | values hvalues' _ => cases hvalues.symm.trans hvalues'
      | file _ hfile' hpath' hread' =>
          cases hfile.symm.trans hfile'
          cases hpath.symm.trans hpath'
          cases hread.symm.trans hread'
          rfl
      | use _ hfile' _ => cases hfile.symm.trans hfile'
  | use hvalues hfile _ =>
      cases h' with
      | values hvalues' _ => cases hvalues.symm.trans hvalues'
      | file _ hfile' _ _ => cases hfile.symm.trans hfile'
      | use _ _ _ => rfl

theorem valueSetFileValues_eq_ok_iff {fileName : String} {values : List String} :
    valueSetFileValues files fileName = .ok values ↔
      ∃ path text, valueSetFilePath files fileName = .ok path ∧
        files.readToString path = .ok text ∧
        ((lines text).map trim).filter (fun value => value ≠ "" ∧ ¬startsWith value "#") =
          values := by
  rw [valueSetFileValues]
  refine Checks.bind_eq_ok.trans ⟨?_, ?_⟩
  · rintro ⟨path, hpath, hvalues⟩
    cases hread : files.readToString path with
    | error e =>
        rw [hread] at hvalues
        cases hvalues
    | ok text =>
        rw [hread] at hvalues
        exact ⟨path, text, hpath, hread, Except.ok.inj hvalues⟩
  · rintro ⟨path, text, hpath, hread, hvalues⟩
    refine ⟨path, hpath, ?_⟩
    rw [hread]
    exact congrArg Except.ok hvalues

theorem rawSetValues_eq_ok_iff (name : String) {kept : List String} :
    (∃ values, rawSetValues files set used name = .ok values ∧ keptValues set values = kept) ↔
      ∃ listed, Listed files set used listed ∧ kept = keptValues set listed := by
  rw [rawSetValues]
  cases hvalues : set.values with
  | some values =>
      cases hfile : set.valuesFromFile with
      | some fileName =>
          constructor
          · rintro ⟨values, h, -⟩
            cases h
          · rintro ⟨listed, h, -⟩
            cases h with
            | values _ hfile' => cases hfile.symm.trans hfile'
            | file hvalues' _ _ _ | use hvalues' _ _ => cases hvalues.symm.trans hvalues'
      | none =>
          constructor
          · rintro ⟨values, h, rfl⟩
            cases h
            exact ⟨values, .values hvalues hfile, rfl⟩
          · rintro ⟨listed, h, rfl⟩
            exact ⟨values, rfl, by rw [h.unique (.values hvalues hfile)]⟩
  | none =>
      cases hfile : set.valuesFromFile with
      | some fileName =>
          constructor
          · rintro ⟨values, h, rfl⟩
            obtain ⟨path, text, hpath, hread, rfl⟩ := valueSetFileValues_eq_ok_iff.mp h
            exact ⟨_, .file hvalues hfile hpath hread, keptValues_lines set _⟩
          · rintro ⟨listed, h, rfl⟩
            cases h with
            | values hvalues' _ => cases hvalues.symm.trans hvalues'
            | file _ hfile' hpath hread =>
                cases hfile.symm.trans hfile'
                exact ⟨_, valueSetFileValues_eq_ok_iff.mpr ⟨_, _, hpath, hread, rfl⟩,
                  keptValues_lines set _⟩
            | use _ hfile' _ => cases hfile.symm.trans hfile'
      | none =>
          cases huse : set.use with
          | some parent =>
              constructor
              · rintro ⟨values, h, rfl⟩
                cases h
                exact ⟨used, .use hvalues hfile huse, rfl⟩
              · rintro ⟨listed, h, rfl⟩
                exact ⟨used, rfl, by rw [h.unique (.use hvalues hfile huse)]⟩
          | none =>
              constructor
              · rintro ⟨values, h, -⟩
                cases h
              · rintro ⟨listed, h, -⟩
                cases h with
                | values hvalues' _ => cases hvalues.symm.trans hvalues'
                | file _ hfile' _ _ => cases hfile.symm.trans hfile'
                | use _ _ huse' => cases huse.symm.trans huse'

theorem resolveValueSetBody_eq_ok_iff (name : String) {kept : List String} :
    resolveValueSetBody files set used name = .ok kept ↔
      ∃ listed, Listed files set used listed ∧ kept = keptValues set listed := by
  rw [← rawSetValues_eq_ok_iff name, resolveValueSetBody]
  refine Checks.bind_eq_ok.trans (exists_congr fun values => and_congr_right fun _ => ?_)
  exact ⟨fun h => Except.ok.inj h, fun h => congrArg Except.ok h⟩

end Body

theorem pushResolution_map {token : String → String} (htoken : Function.Injective token)
    (name : String) (path : List String) :
    pushResolution (token name) (path.map token) =
      if name ∈ path then
        .error (.error ("contest-rules reference cycle: " ++
          joinWith " -> " ((path.map token).drop
            (((path.map token).findIdx? fun entry => entry == token name).getD 0)) ++ " -> " ++
              token name))
      else .ok ((path ++ [name]).map token) := by
  rw [pushResolution]
  cases hfind : (path.map token).findIdx? fun entry => entry == token name with
  | none =>
      have hnew : name ∉ path := by
        intro hmem
        have hne := List.findIdx?_eq_none_iff.mp hfind _ (List.mem_map_of_mem hmem)
        rw [beq_self_eq_true] at hne
        cases hne
      rw [if_neg hnew, List.map_append]
      rfl
  | some position =>
      obtain ⟨hlt, hget, -⟩ := List.findIdx?_eq_some_iff_getElem.mp hfind
      rw [List.getElem_map, beq_iff_eq] at hget
      have hmem : name ∈ path := by
        rw [← htoken hget]
        exact List.getElem_mem _
      rw [if_pos hmem, Option.getD_some]

/-! ### Scopes -/

/-- The value sets that may name one another, and what the sets of a contest may extend. -/
structure ValueSetScope where
  sets : KeyMap RawValueSet
  enclosing : Option ResolvedSets

/-- The sets of the catalog. -/
def globalScope (raw : KeyMap RawValueSet) : ValueSetScope := ⟨raw, none⟩

/-- The sets of a contest, with the resolved sets of the catalog around them. -/
def contestScope (raw : KeyMap RawValueSet) (global : ResolvedSets) : ValueSetScope :=
  ⟨raw, some global⟩

namespace ValueSetScope

variable (files : RuleFiles) (scope : ValueSetScope)

/-- A set of a contest finds a set of its own scope first, except under its own name. -/
def Within (name parent : String) : Prop :=
  scope.enclosing = none ∨ parent ≠ name ∧ parent ∈ scope.sets

/-- A set uses another one of its scope. -/
def Uses (name parent : String) : Prop :=
  ∃ set, scope.sets[name]? = some set ∧ set.use = some parent ∧ scope.Within name parent

inductive Resolved : String → List String → Prop
  | own {name : String} {set : RawValueSet} {listed : List String}
      (hset : scope.sets[name]? = some set) (huse : set.use = none)
      (hlisted : Listed files set [] listed) : Resolved name (keptValues set listed)
  | extending {name parent : String} {set : RawValueSet} {global : ResolvedSets}
      {used listed : List String} (hset : scope.sets[name]? = some set)
      (huse : set.use = some parent) (hglobal : scope.enclosing = some global)
      (houter : ¬scope.Within name parent) (hused : global[parent]? = some used)
      (hlisted : Listed files set used listed) : Resolved name (keptValues set listed)
  | sibling {name parent : String} {set : RawValueSet} {used listed : List String}
      (hset : scope.sets[name]? = some set) (huse : set.use = some parent)
      (hwithin : scope.Within name parent) (hused : Resolved parent used)
      (hlisted : Listed files set used listed) : Resolved name (keptValues set listed)

/-- There is no such set, or none such around the scope. -/
inductive Missing (name : String) : Prop
  | set (h : name ∉ scope.sets)
  | global {parent : String} {set : RawValueSet} {global : ResolvedSets}
      (hset : scope.sets[name]? = some set) (huse : set.use = some parent)
      (hglobal : scope.enclosing = some global) (houter : ¬scope.Within name parent)
      (h : parent ∉ global)

/-- Missing, on a cycle, or without values: with two lists, with none, or with a file that cannot
be read. -/
inductive Faulty (name : String) : Prop
  | missing (h : scope.Missing name)
  | cycle (h : TransGen scope.Uses name name)
  | unlisted {set : RawValueSet} (hset : scope.sets[name]? = some set)
      (h : ∀ used listed, ¬Listed files set used listed)

/-! ### The source resolves along the uses -/

def token (name : String) : String :=
  (if scope.enclosing.isNone then "value-set:" else "contest-value-set:") ++ name

def unknown (name : String) : String :=
  (if scope.enclosing.isNone then "unknown value set: " else "unknown contest value set: ") ++ name

/-- Where the values of a set come from that has none of its own. -/
def start (name : String) (set : RawValueSet) : Except Stop (List String ⊕ String) :=
  match set.use with
  | none => .ok (.inl [])
  | some parent =>
      match scope.enclosing with
      | none => .ok (.inr parent)
      | some global =>
          if parent = name then
            (found ("unknown global value set " ++ parent ++ " extended by contest value set " ++
              name) global[parent]?).map .inl
          else if scope.sets.contains parent then .ok (.inr parent)
          else (found ("unknown value set " ++ parent ++ " referenced by " ++ name)
            global[parent]?).map .inl

def cycleMessage (name : String) (path : List String) : String :=
  let stack := path.map scope.token
  let position := (stack.findIdx? fun entry => entry == scope.token name).getD 0
  "contest-rules reference cycle: " ++ joinWith " -> " (stack.drop position) ++ " -> " ++
    scope.token name

def rules : Lineage.Rules String (List String) Stop where
  enter name := (found (scope.unknown name) scope.sets[name]?).bind (scope.start name)
  leave name base := (found (scope.unknown name) scope.sets[name]?).bind fun set =>
    report (resolveValueSetBody files set base name)
  cycle name path := .error (scope.cycleMessage name path)
  exhausted := .depth

variable {files scope}

theorem token_injective : Function.Injective scope.token := by
  intro name name' h
  rw [token, token] at h
  exact (String.append_right_inj _).mp h

theorem pushResolution_token (name : String) (path : List String) :
    pushResolution (scope.token name) (path.map scope.token) =
      if name ∈ path then .error (.error (scope.cycleMessage name path))
      else .ok ((path ++ [name]).map scope.token) :=
  pushResolution_map token_injective name path

theorem enter_eq (files : RuleFiles) (name : String) : (scope.rules files).enter name =
    (found (scope.unknown name) scope.sets[name]?).bind (scope.start name) :=
  rfl

theorem leave_eq {name : String} {set : RawValueSet} (hset : scope.sets[name]? = some set)
    (base : List String) :
    (scope.rules files).leave name base = report (resolveValueSetBody files set base name) := by
  rw [rules]
  dsimp only
  rw [hset]
  rfl

/-- What is found in progress, with the stack that the source keeps. -/
def stacked (scope : ValueSetScope) (result : List String × Lineage.Progress String (List String)) :
    List String × ResolvedSets × List String :=
  (result.1, result.2.1, result.2.2.map scope.token)

/-- The end of a resolution, from what the set is left with on. -/
theorem body_eq_settle {name : String} {set : RawValueSet} (hset : scope.sets[name]? = some set)
    {source : Except Stop (List String × ResolvedSets × List String)}
    {result : Except Stop (List String × Lineage.Progress String (List String))}
    (h : source = result.map scope.stacked) :
    (do
      let found ← source
      let values ← report (resolveValueSetBody files set found.1 name)
      return (values, found.2.1.insert name values, found.2.2.dropLast)) =
      (result.bind (Lineage.settle (scope.rules files) name)).map scope.stacked := by
  subst h
  cases result with
  | error stop => rfl
  | ok result =>
      rw [Except.map, ok_bind, Except.bind, Lineage.settle, leave_eq hset]
      dsimp only [stacked]
      cases resolveValueSetBody files set result.1 name with
      | error message => rfl
      | ok values =>
          rw [report_ok, ok_bind, Except.map, Except.map, stacked, List.map_dropLast]
          rfl

theorem base_eq_settle {name : String} {set : RawValueSet} (hset : scope.sets[name]? = some set)
    (base : List String) (resolved : ResolvedSets) (path : List String) :
    (do
      let found ← Except.ok (base, resolved, path.map scope.token)
      let values ← report (resolveValueSetBody files set found.1 name)
      return (values, found.2.1.insert name values, found.2.2.dropLast)) =
      ((Except.ok (base, resolved, path)).bind
        (Lineage.settle (scope.rules files) name)).map scope.stacked :=
  body_eq_settle hset rfl

/-- A set that extends one around the scope. -/
theorem extending_eq_settle {name : String} {set : RawValueSet}
    (hset : scope.sets[name]? = some set) (message : String) (outer : Option (List String))
    (resolved : ResolvedSets) (path : List String)
    (resolve : String → Except Stop (List String × Lineage.Progress String (List String))) :
    (do
      let found ← (found message outer).map fun base => (base, resolved, path.map scope.token)
      let values ← report (resolveValueSetBody files set found.1 name)
      return (values, found.2.1.insert name values, found.2.2.dropLast)) =
      (((found message outer).map Sum.inl).bind fun start =>
        (start.elim (fun base => .ok (base, resolved, path)) resolve).bind
          (Lineage.settle (scope.rules files) name)).map scope.stacked := by
  cases outer with
  | none => rfl
  | some base => exact base_eq_settle hset base resolved path

theorem resolveNamedValueSet_eq (raw : KeyMap RawValueSet) (depth : Nat) (name : String)
    (resolved : ResolvedSets) (path : List String) :
    resolveNamedValueSet files raw depth name (resolved, path.map (globalScope raw).token) =
      (Lineage.resolve ((globalScope raw).rules files) depth name (resolved, path)).map
        (globalScope raw).stacked := by
  induction depth generalizing name resolved path with
  | zero => rfl
  | succ depth ih =>
      rw [resolveNamedValueSet, Lineage.resolve]
      cases hget : resolved[name]? with
      | some values => rfl
      | none =>
          have htoken : "value-set:" ++ name = (globalScope raw).token name :=
            congrArg (· ++ name) (if_pos rfl).symm
          dsimp only
          rw [htoken, pushResolution_token]
          split
          · rfl
          · have hlookup : (globalScope raw).sets[name]? = raw[name]? := rfl
            rw [ok_bind, enter_eq, hlookup]
            cases hset : raw[name]? with
            | none => rfl
            | some set =>
                rw [found_some, found_some, ok_bind]
                cases huse : set.use with
                | none =>
                    have hstart : (globalScope raw).start name set = .ok (.inl []) := by
                      rw [start, huse]
                    rw [Except.bind, hstart]
                    exact base_eq_settle (hlookup.trans hset) [] resolved (path ++ [name])
                | some parent =>
                    have hstart : (globalScope raw).start name set = .ok (.inr parent) := by
                      rw [start, huse]
                      rfl
                    rw [Except.bind, hstart]
                    exact body_eq_settle hset (ih parent resolved (path ++ [name]))

theorem start_contestScope {raw : KeyMap RawValueSet} {global : ResolvedSets} {name parent : String}
    {set : RawValueSet} (huse : set.use = some parent) :
    (contestScope raw global).start name set =
      if parent = name then
        (found ("unknown global value set " ++ parent ++ " extended by contest value set " ++ name)
          global[parent]?).map .inl
      else if raw.contains parent then .ok (.inr parent)
      else (found ("unknown value set " ++ parent ++ " referenced by " ++ name)
        global[parent]?).map .inl := by
  rw [start, huse]
  rfl

theorem resolveContestValueSet_eq (raw : KeyMap RawValueSet) (global : ResolvedSets) (depth : Nat)
    (name : String) (resolved : ResolvedSets) (path : List String) :
    resolveContestValueSet files raw global depth name
        (resolved, path.map (contestScope raw global).token) =
      (Lineage.resolve ((contestScope raw global).rules files) depth name (resolved, path)).map
        (contestScope raw global).stacked := by
  induction depth generalizing name resolved path with
  | zero => rfl
  | succ depth ih =>
      rw [resolveContestValueSet, Lineage.resolve]
      cases hget : resolved[name]? with
      | some values => rfl
      | none =>
          have htoken : "contest-value-set:" ++ name = (contestScope raw global).token name :=
            congrArg (· ++ name) (if_neg Bool.false_ne_true).symm
          dsimp only
          rw [htoken, pushResolution_token]
          split
          · rfl
          · have hlookup : (contestScope raw global).sets[name]? = raw[name]? := rfl
            rw [ok_bind, enter_eq, hlookup]
            cases hset : raw[name]? with
            | none => rfl
            | some set =>
                rw [found_some, found_some, ok_bind, Except.bind]
                cases huse : set.use with
                | none =>
                    have hstart : (contestScope raw global).start name set = .ok (.inl []) := by
                      rw [start, huse]
                    rw [hstart]
                    exact base_eq_settle (hlookup.trans hset) [] resolved (path ++ [name])
                | some parent =>
                    rw [start_contestScope huse]
                    dsimp only
                    by_cases hself : parent = name
                    · rw [if_pos hself, if_pos hself]
                      exact extending_eq_settle (hlookup.trans hset) _ _ _ _ _
                    · rw [if_neg hself, if_neg hself]
                      by_cases hcontains : raw.contains parent = true
                      · rw [if_pos hcontains, if_pos hcontains]
                        exact body_eq_settle (hlookup.trans hset)
                          (ih parent resolved (path ++ [name]))
                      · rw [if_neg hcontains, if_neg hcontains]
                        exact extending_eq_settle (hlookup.trans hset) _ _ _ _ _

end ValueSetScope

end Log73
