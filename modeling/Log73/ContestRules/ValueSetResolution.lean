import Log73.ContestRules.ValueSetScopes
import Log73.Library.Checks

/-!
The resolution of the source reaches what the value sets of a scope come to, reports every fault
that can be reached, and does not depend on the order it goes in.
-/

namespace Log73

open Relation

namespace ValueSetScope

variable {files : RuleFiles} {scope : ValueSetScope} {name parent : String} {set : RawValueSet}
  {base : List String} {start : List String ⊕ String}

theorem found_map_inl_iff {message : String} {outer : Option (List String)} :
    (found message outer).map Sum.inl = .ok start ↔
      ∃ base, outer = some base ∧ start = .inl base := by
  cases outer with
  | none =>
      refine iff_of_false (fun h => ?_) fun ⟨base, h, _⟩ => ?_
      · cases h
      · cases h
  | some base =>
      constructor
      · intro h
        cases h
        exact ⟨base, rfl, rfl⟩
      · rintro ⟨base', heq, rfl⟩
        cases heq
        rfl

/-- A set that uses another one starts from that one, in its scope or around it. -/
theorem start_eq_ok_iff (huse : set.use = some parent) : scope.start name set = .ok start ↔
    scope.Within name parent ∧ start = .inr parent ∨
      ¬scope.Within name parent ∧ ∃ global, scope.enclosing = some global ∧
        ∃ base, global[parent]? = some base ∧ start = .inl base := by
  rw [ValueSetScope.start, huse, Within]
  cases scope.enclosing with
  | none => simp [eq_comm]
  | some global =>
      have hcontains : scope.sets.contains parent = true ↔ parent ∈ scope.sets :=
        Std.ExtTreeMap.contains_iff_mem
      dsimp only
      by_cases hself : parent = name
      · rw [if_pos hself, found_map_inl_iff]
        simp [hself]
      · rw [if_neg hself]
        by_cases hmem : parent ∈ scope.sets
        · rw [if_pos (hcontains.mpr hmem)]
          simp [hself, hmem, eq_comm]
        · rw [if_neg (mt hcontains.mp hmem), found_map_inl_iff]
          simp [hmem]

theorem enter_eq_ok_iff : (scope.rules files).enter name = .ok start ↔
    ∃ set, scope.sets[name]? = some set ∧ scope.start name set = .ok start := by
  rw [enter_eq]
  cases scope.sets[name]? with
  | none =>
      refine iff_of_false (fun h => ?_) fun ⟨set, h, _⟩ => ?_
      · cases h
      · cases h
  | some set =>
      constructor
      · exact fun h => ⟨set, rfl, h⟩
      · rintro ⟨set', heq, h⟩
        cases heq
        exact h

theorem builds_iff_uses : Lineage.Builds (scope.rules files) name parent ↔
    scope.Uses name parent := by
  rw [Lineage.Builds, enter_eq_ok_iff, Uses]
  refine exists_congr fun set => and_congr_right fun _ => ?_
  cases huse : set.use with
  | none =>
      rw [ValueSetScope.start, huse]
      refine iff_of_false (fun h => ?_) fun h => ?_
      · cases h
      · cases h.1
  | some parent' =>
      rw [start_eq_ok_iff huse]
      constructor
      · rintro (⟨hwithin, heq⟩ | ⟨-, global, -, base, -, heq⟩)
        · cases heq
          exact ⟨rfl, hwithin⟩
        · cases heq
      · rintro ⟨heq, hwithin⟩
        cases heq
        exact .inl ⟨hwithin, rfl⟩

theorem leave_eq_ok_iff (hset : scope.sets[name]? = some set) {values : List String} :
    (scope.rules files).leave name base = .ok values ↔
      ∃ listed, Listed files set base listed ∧ values = keptValues set listed := by
  rw [leave_eq hset, ← resolveValueSetBody_eq_ok_iff name]
  cases resolveValueSetBody files set base name with
  | error message =>
      rw [report_error]
      exact iff_of_false (fun h => by cases h) fun h => by cases h
  | ok values' => rw [report_ok, Except.ok.injEq, Except.ok.injEq]

/-- The value along the uses is what the set comes to. -/
theorem value_iff_resolved {values : List String} :
    Lineage.Value (scope.rules files) name values ↔ scope.Resolved files name values := by
  constructor
  · intro h
    induction h with
    | root henter hleave =>
        obtain ⟨set, hset, hstart⟩ := enter_eq_ok_iff.mp henter
        obtain ⟨listed, hlisted, rfl⟩ := (leave_eq_ok_iff hset).mp hleave
        cases huse : set.use with
        | none =>
            rw [ValueSetScope.start, huse] at hstart
            cases hstart
            exact .own hset huse hlisted
        | some parent =>
            rcases (start_eq_ok_iff huse).mp hstart with ⟨-, heq⟩ |
              ⟨houter, global, hglobal, base, hbase, heq⟩
            · cases heq
            · cases heq
              exact .extending hset huse hglobal houter hbase hlisted
    | child henter _ hleave ih =>
        obtain ⟨set, hset, huse, hwithin⟩ := builds_iff_uses.mp henter
        obtain ⟨listed, hlisted, rfl⟩ := (leave_eq_ok_iff hset).mp hleave
        exact .sibling hset huse hwithin ih hlisted
  · intro h
    induction h with
    | own hset huse hlisted =>
        refine .root (enter_eq_ok_iff.mpr ⟨_, hset, ?_⟩) ((leave_eq_ok_iff hset).mpr
          ⟨_, hlisted, rfl⟩)
        rw [ValueSetScope.start, huse]
    | extending hset huse hglobal houter hused hlisted =>
        refine .root (enter_eq_ok_iff.mpr ⟨_, hset, ?_⟩) ((leave_eq_ok_iff hset).mpr
          ⟨_, hlisted, rfl⟩)
        exact (start_eq_ok_iff huse).mpr (.inr ⟨houter, _, hglobal, _, hused, rfl⟩)
    | sibling hset huse hwithin _ hlisted ih =>
        exact .child (builds_iff_uses.mpr ⟨_, hset, huse, hwithin⟩) ih
          ((leave_eq_ok_iff hset).mpr ⟨_, hlisted, rfl⟩)

theorem Resolved.mem_sets {values : List String} (h : scope.Resolved files name values) :
    name ∈ scope.sets := by
  rw [Std.ExtTreeMap.mem_iff_isSome_getElem?]
  cases h with
  | own hset _ _ | extending hset _ _ _ _ _ | sibling hset _ _ _ _ =>
      exact Option.isSome_of_eq_some hset

/-! ### Faults -/

theorem exists_listed {used used' listed : List String} (h : Listed files set used listed) :
    ∃ listed', Listed files set used' listed' := by
  cases h with
  | values hvalues hfile => exact ⟨_, .values hvalues hfile⟩
  | file hvalues hfile hpath hread => exact ⟨_, .file hvalues hfile hpath hread⟩
  | use hvalues hfile huse => exact ⟨_, .use hvalues hfile huse⟩

theorem missing_iff : scope.Missing name ↔ ∀ start, (scope.rules files).enter name ≠ .ok start := by
  constructor
  · intro h start henter
    obtain ⟨set, hset, hstart⟩ := enter_eq_ok_iff.mp henter
    cases h with
    | set h => exact h (Std.ExtTreeMap.mem_iff_isSome_getElem?.mpr (Option.isSome_of_eq_some hset))
    | global hset' huse hglobal houter h =>
        cases hset.symm.trans hset'
        rcases (start_eq_ok_iff huse).mp hstart with ⟨hwithin, -⟩ |
          ⟨-, global, hglobal', base, hbase, -⟩
        · exact houter hwithin
        · cases hglobal.symm.trans hglobal'
          exact h (Std.ExtTreeMap.mem_iff_isSome_getElem?.mpr (Option.isSome_of_eq_some hbase))
  · intro h
    cases hset : scope.sets[name]? with
    | none =>
        refine .set fun hmem => ?_
        rw [Std.ExtTreeMap.mem_iff_isSome_getElem?, hset] at hmem
        cases hmem
    | some set =>
        cases huse : set.use with
        | none =>
            have hstart : scope.start name set = .ok (.inl []) := by
              rw [ValueSetScope.start, huse]
            exact absurd (enter_eq_ok_iff.mpr ⟨set, hset, hstart⟩) (h _)
        | some parent =>
            by_cases hwithin : scope.Within name parent
            · have hstart := (start_eq_ok_iff huse).mpr (.inl ⟨hwithin, rfl⟩)
              exact absurd (enter_eq_ok_iff.mpr ⟨set, hset, hstart⟩) (h _)
            · obtain ⟨global, hglobal⟩ := Option.ne_none_iff_exists'.mp fun hnone =>
                hwithin (.inl hnone)
              refine .global hset huse hglobal hwithin fun hmem => ?_
              obtain ⟨base, hbase⟩ := Option.isSome_iff_exists.mp
                (Std.ExtTreeMap.mem_iff_isSome_getElem?.mp hmem)
              have hstart := (start_eq_ok_iff huse).mpr
                (.inr ⟨hwithin, global, hglobal, base, hbase, rfl⟩)
              exact absurd (enter_eq_ok_iff.mpr ⟨set, hset, hstart⟩) (h _)

theorem builds_eq_uses : Lineage.Builds (scope.rules files) = scope.Uses := by
  funext name parent
  exact propext builds_iff_uses

theorem faulty_of_fault (h : Lineage.Fault (scope.rules files) name) : scope.Faulty files name := by
  cases h with
  | enter h => exact .missing (missing_iff.mpr h)
  | cycle h => exact .cycle (builds_eq_uses ▸ h)
  | leave hbase h =>
      have hentered : ∃ start, (scope.rules files).enter name = .ok start := by
        rcases hbase with henter | ⟨parent, henter, -⟩
        · exact ⟨_, henter⟩
        · exact ⟨_, henter⟩
      obtain ⟨start, henter⟩ := hentered
      obtain ⟨set, hset, -⟩ := enter_eq_ok_iff.mp henter
      refine .unlisted hset fun used listed hlisted => ?_
      obtain ⟨listed', hlisted'⟩ := exists_listed hlisted
      exact h _ ((leave_eq_ok_iff hset).mpr ⟨listed', hlisted', rfl⟩)

theorem Faulty.not_value {values : List String} (h : scope.Faulty files name) :
    ¬Lineage.Value (scope.rules files) name values := by
  intro hvalue
  cases h with
  | missing h =>
      obtain ⟨start, henter⟩ := hvalue.entered
      exact missing_iff.mp h start henter
  | cycle h => exact hvalue.acyclic (builds_eq_uses ▸ h)
  | unlisted hset h =>
      cases value_iff_resolved.mp hvalue with
      | own hset' _ hlisted | extending hset' _ _ _ _ hlisted | sibling hset' _ _ _ hlisted =>
          cases hset.symm.trans hset'
          exact h _ _ hlisted

/-! ### The source -/

/-- A way to resolve the sets of a scope ends, with what they come to or with an error over a fault,
whatever the order. -/
structure Settles (files : RuleFiles) (scope : ValueSetScope)
    (resolve : Nat → String → ResolvedSets × List String →
      Except Stop (List String × ResolvedSets × List String)) (depth : Nat) : Prop where
  terminates : ∀ name, resolve depth name (∅, []) ≠ .error .depth
  stable : ∀ name depth', depth ≤ depth' →
    resolve depth' name (∅, []) = resolve depth name (∅, [])
  reports : ∀ name reached, ReflTransGen scope.Uses name reached → scope.Faulty files reached →
    ∃ message, resolve depth name (∅, []) = .error (.error message)
  yields : ∀ name, (∀ reached, ReflTransGen scope.Uses name reached →
      ¬scope.Faulty files reached) →
    ∃ values resolved, resolve depth name (∅, []) = .ok (values, resolved, []) ∧
      scope.Resolved files name values
  ordered : ∀ (names : List String) (table : ResolvedSets), names.Perm scope.sets.keys →
    (resolveSets (resolve depth) names ∅ = .ok table ↔
      (∀ name ∈ scope.sets, ∃ values, scope.Resolved files name values) ∧
        ∀ (name : String) (values : List String),
          table[name]? = some values ↔ scope.Resolved files name values)

theorem found_map_ne_depth {α β : Type} (message : String) (value : Option α) (f : α → β) :
    (found message value).map f ≠ .error .depth := by
  intro h
  cases value with
  | none => cases h
  | some value => cases h

theorem start_ne_depth (name : String) (set : RawValueSet) :
    scope.start name set ≠ .error .depth := by
  rw [ValueSetScope.start]
  cases set.use with
  | none => exact fun h => by cases h
  | some parent =>
      cases scope.enclosing with
      | none => exact fun h => by cases h
      | some global =>
          dsimp only
          split
          · exact found_map_ne_depth _ _ _
          · split
            · exact fun h => by cases h
            · exact found_map_ne_depth _ _ _

theorem reports_rules : Lineage.Reports (scope.rules files) where
  enter name := by
    rw [enter_eq]
    cases scope.sets[name]? with
    | none => exact fun h => by cases h
    | some set => exact start_ne_depth name set
  leave name base := by
    rw [rules]
    dsimp only
    cases scope.sets[name]? with
    | none => exact fun h => by cases h
    | some set =>
        rw [found_some, Except.bind]
        cases resolveValueSetBody files set base name with
        | error message => exact fun h => by cases h
        | ok values => exact fun h => by cases h
  cycle name path := by
    intro h
    cases h

theorem entered_mem (name : String) (start : List String ⊕ String)
    (h : (scope.rules files).enter name = .ok start) : name ∈ scope.sets.keys := by
  obtain ⟨set, hset, -⟩ := enter_eq_ok_iff.mp h
  exact Std.ExtTreeMap.mem_keys.mpr (Std.ExtTreeMap.mem_iff_isSome_getElem?.mpr
    (Option.isSome_of_eq_some hset))

section Settling

variable {resolve : Nat → String → ResolvedSets × List String →
    Except Stop (List String × ResolvedSets × List String)}
  (hresolve : ∀ (depth : Nat) (name : String) (resolved : ResolvedSets) (path : List String),
    resolve depth name (resolved, path.map scope.token) =
      (Lineage.resolve (scope.rules files) depth name (resolved, path)).map scope.stacked)
include hresolve

theorem resolveSets_eq (depth : Nat) (names : List String) (resolved : ResolvedSets) :
    resolveSets (resolve depth) names resolved =
      Lineage.resolveAll (scope.rules files) depth names resolved := by
  induction names generalizing resolved with
  | nil => rfl
  | cons name names ih =>
      rw [resolveSets, Lineage.resolveAll]
      have hname := hresolve depth name resolved []
      rw [List.map_nil] at hname
      rw [hname]
      cases Lineage.resolve (scope.rules files) depth name (resolved, []) with
      | error stop => rfl
      | ok result => exact ih result.2.1

theorem settles (depth : Nat) (hdepth : scope.sets.keys.length < depth) :
    scope.Settles files resolve depth := by
  have htop (name : String) : resolve depth name (∅, []) =
      (Lineage.resolve (scope.rules files) depth name (∅, [])).map scope.stacked :=
    hresolve depth name ∅ []
  have houtcome (name : String) : Lineage.Outcome (scope.rules files) name ∅ []
      (Lineage.resolve (scope.rules files) depth name (∅, [])) :=
    Lineage.resolve_outcome reports_rules entered_mem depth (Lineage.leads_nil name)
      (by rw [List.length_nil]; exact hdepth) Lineage.known_empty
  have hexhausted (name : String) :
      Lineage.resolve (scope.rules files) depth name (∅, []) ≠ .error .depth := by
    intro heq
    have hfault := houtcome name
    rw [heq] at hfault
    exact hfault.2 rfl
  refine ⟨fun name h => ?_, fun name depth' hle => ?_, fun name reached hreach hfaulty => ?_,
    fun name hsound => ?_, fun names table hperm => ?_⟩
  · rw [htop] at h
    cases hresult : Lineage.resolve (scope.rules files) depth name (∅, []) with
    | error stop =>
        rw [hresult] at h
        cases h
        exact hexhausted name hresult
    | ok result =>
        rw [hresult] at h
        cases h
  · have hstable := Lineage.resolve_of_le (hexhausted name) hle
    have htop' := hresolve depth' name ∅ []
    rw [List.map_nil, hstable] at htop'
    rw [htop, htop']
  · rw [htop]
    have hname := houtcome name
    cases hresult : Lineage.resolve (scope.rules files) depth name (∅, []) with
    | error stop =>
        cases stop with
        | depth => exact absurd hresult (hexhausted name)
        | error message => exact ⟨message, rfl⟩
    | ok result =>
        rw [hresult] at hname
        obtain ⟨values, hvalues⟩ := hname.1.of_reflTransGen (builds_eq_uses ▸ hreach)
        exact absurd hvalues hfaulty.not_value
  · rw [htop]
    have hname := houtcome name
    cases hresult : Lineage.resolve (scope.rules files) depth name (∅, []) with
    | error stop =>
        rw [hresult] at hname
        obtain ⟨reached, hreach, hfault⟩ := hname.1
        exact absurd (faulty_of_fault hfault) (hsound reached (builds_eq_uses ▸ hreach))
    | ok result =>
        obtain ⟨values, resolved, path⟩ := result
        rw [hresult] at hname
        obtain ⟨hvalue, -, -, -, rfl⟩ := hname
        exact ⟨values, resolved, rfl, value_iff_resolved.mp hvalue⟩
  · have hlength : names.length < depth := hperm.length_eq ▸ hdepth
    rw [resolveSets_eq hresolve, Lineage.resolveAll_eq_ok_iff reports_rules
      (fun name start h => hperm.mem_iff.mpr (entered_mem name start h)) hlength]
    simp only [hperm.mem_iff, Std.ExtTreeMap.mem_keys, value_iff_resolved]

end Settling

end ValueSetScope

section Tables

variable {files : RuleFiles} {depth : Nat}

theorem resolveGlobalValueSets_eq_ok_iff {fromValue : YamlValue → Except String RawValueSet}
    {sets : KeyMap YamlValue} {raw : KeyMap RawValueSet} {table : ResolvedSets}
    (hparsed : parseValueSets fromValue sets.toList = .ok raw) :
    resolveGlobalValueSets files fromValue depth sets = .ok table ↔
      resolveSets (resolveNamedValueSet files raw depth) raw.keys ∅ = .ok table := by
  rw [resolveGlobalValueSets, hparsed, report_ok, ok_bind]

theorem resolveContestValueSets_eq_ok_iff {raw : KeyMap RawValueSet}
    {global available : ResolvedSets} :
    resolveContestValueSets files depth raw global = .ok available ↔
      ∃ resolved, resolveSets (resolveContestValueSet files raw global depth) raw.keys ∅ =
        .ok resolved ∧ global ∪ resolved = available := by
  rw [resolveContestValueSets]
  refine Checks.bind_eq_ok.trans (exists_congr fun resolved => and_congr_right fun _ => ?_)
  exact ⟨fun h => Except.ok.inj h, fun h => congrArg Except.ok h⟩

end Tables

/-- The sets of the catalog and those of a contest resolve to what they come to, in any order, and a
set of the contest stands in front of one of the catalog. -/
theorem value_sets_settled (files : RuleFiles) (global contest : KeyMap RawValueSet) (depth : Nat)
    (hglobal : global.keys.length < depth) (hcontest : contest.keys.length < depth) :
    (globalScope global).Settles files (resolveNamedValueSet files global) depth ∧
    (∀ fromValue sets table, parseValueSets fromValue sets.toList = .ok global →
      (resolveGlobalValueSets files fromValue depth sets = .ok table ↔
        (∀ name ∈ global, ∃ values, (globalScope global).Resolved files name values) ∧
        ∀ (name : String) (values : List String),
          table[name]? = some values ↔ (globalScope global).Resolved files name values)) ∧
    ∀ resolved : ResolvedSets,
      (contestScope contest resolved).Settles files
        (resolveContestValueSet files contest resolved) depth ∧
      ∀ available : ResolvedSets,
        resolveContestValueSets files depth contest resolved = .ok available ↔
          (∀ name ∈ contest, ∃ values, (contestScope contest resolved).Resolved files name values) ∧
          ∀ (name : String) (values : List String), available[name]? = some values ↔
            if name ∈ contest then (contestScope contest resolved).Resolved files name values
            else resolved[name]? = some values := by
  have hcatalog : (globalScope global).Settles files (resolveNamedValueSet files global) depth :=
    ValueSetScope.settles (ValueSetScope.resolveNamedValueSet_eq global) depth hglobal
  refine ⟨hcatalog, fun fromValue sets table hparsed => ?_, fun resolved => ?_⟩
  · rw [resolveGlobalValueSets_eq_ok_iff hparsed]
    exact hcatalog.ordered global.keys table (.refl _)
  · have hlocal : (contestScope contest resolved).Settles files
        (resolveContestValueSet files contest resolved) depth :=
      ValueSetScope.settles (ValueSetScope.resolveContestValueSet_eq contest resolved) depth
        hcontest
    refine ⟨hlocal, fun available => ?_⟩
    rw [resolveContestValueSets_eq_ok_iff]
    constructor
    · rintro ⟨table, htable, rfl⟩
      obtain ⟨hall, hget⟩ := (hlocal.ordered contest.keys table (.refl _)).mp htable
      refine ⟨hall, fun name values => ?_⟩
      rw [Std.ExtTreeMap.getElem?_union]
      split
      · next hmem =>
          obtain ⟨values', hvalues'⟩ := hall name hmem
          rw [(hget name values').mpr hvalues', Option.some_or, ← hget,
            (hget name values').mpr hvalues']
      · next hmem =>
          have hnone : table[name]? = none := Option.eq_none_iff_forall_ne_some.mpr fun values' h =>
            hmem ((hget name values').mp h).mem_sets
          rw [hnone, Option.none_or]
    · rintro ⟨hall, hget⟩
      refine ⟨available.filter fun name _ => name ∈ contest,
        (hlocal.ordered contest.keys _ (.refl _)).mpr ⟨hall, fun name values => ?_⟩, ?_⟩
      · rw [Std.ExtTreeMap.getElem?_filter', Option.filter_eq_some_iff, hget, decide_eq_true_iff]
        constructor
        · rintro ⟨hvalues, hmem⟩
          rwa [if_pos hmem] at hvalues
        · intro hvalues
          have hmem : name ∈ contest := hvalues.mem_sets
          exact ⟨(if_pos hmem).mpr hvalues, hmem⟩
      · refine Std.ExtTreeMap.ext_getElem? fun name => ?_
        rw [Std.ExtTreeMap.getElem?_union, Std.ExtTreeMap.getElem?_filter']
        by_cases hmem : name ∈ contest
        · obtain ⟨values, hvalues⟩ := hall name hmem
          have havailable := (hget name values).mpr ((if_pos hmem).mpr hvalues)
          have hkept : (some values).filter (fun _ => decide (name ∈ contest)) = some values := by
            simp [hmem]
          rw [havailable, hkept, Option.some_or]
        · have hnone : (available[name]?).filter (fun _ => decide (name ∈ contest)) = none := by
            rw [Option.filter_eq_none_iff]
            exact fun _ _ h => hmem (of_decide_eq_true h)
          rw [hnone, Option.none_or]
          refine Option.ext fun values => ?_
          rw [hget, if_neg hmem]

/-- Two sets that use each other. -/
def cyclicSets : KeyMap RawValueSet :=
  ((∅ : KeyMap RawValueSet).insert "east" { use := some "west" }).insert "west"
    { use := some "east", exclude := ["K"] }

theorem value_sets_settled_cycle :
    cyclicSets.keys.length < 3 ∧
    ∃ message, resolveNamedValueSet ⟨[], fun _ => .notFound, fun _ => .error ""⟩ cyclicSets 3 "east"
      (∅, []) = .error (.error message) := by
  have heast : (globalScope cyclicSets).Uses "east" "west" :=
    ⟨{ use := some "west" }, by decide +kernel, rfl, .inl rfl⟩
  have hwest : (globalScope cyclicSets).Uses "west" "east" :=
    ⟨{ use := some "east", exclude := ["K"] }, by decide +kernel, rfl, .inl rfl⟩
  have hdepth : cyclicSets.keys.length < 3 := by decide +kernel
  refine ⟨hdepth, ?_⟩
  exact (value_sets_settled ⟨[], fun _ => .notFound, fun _ => .error ""⟩ cyclicSets ∅ 3 hdepth
    (by decide)).1.reports "east" "east" .refl (.cycle (.tail (.single heast) hwest))

end Log73
