import Log73.ContestRules.Resolution

/-!
The composition of a whole catalog: every contest starts with an empty stack and the
memo of those before it, and what it composes to does not depend on them.
-/

namespace Log73

open Relation

variable {catalog : Catalog} {depth : Nat}

/-- The values a composition gives, or nothing where it reports an error. -/
def composedValue (result : Except Stop (YamlValue × Memo × List String)) : Option YamlValue :=
  result.toOption.map Prod.fst

/-- The memo at a point where no composition is under way. -/
def MemoComposed (catalog : Catalog) (memo : Memo) : Prop :=
  ∀ id value, memo[id]? = some value → Composed catalog (.contest id) value

theorem memoComposed_empty : MemoComposed catalog ∅ := by
  intro id value hget
  rw [Std.ExtTreeMap.getElem?_empty] at hget
  cases hget

theorem MemoComposed.insert {memo : Memo} (h : MemoComposed catalog memo) {id : String}
    {value : YamlValue} (hvalue : Composed catalog (.contest id) value) :
    MemoComposed catalog (memo.insert id value) := by
  intro other result hget
  rw [TreeMap.getElem?_insert_key] at hget
  split at hget
  · next heq =>
      subst heq
      exact Option.some.inj hget ▸ hvalue
  · exact h other result hget

/-- A composition that starts with an empty stack, keeping what the memo has. -/
theorem composeContest_top (hdepth : catalog.entries.length < depth) (id : String) {memo : Memo}
    (hmemo : MemoComposed catalog memo) :
    Resolves catalog (InStep catalog .contest (fun id => (memo[id]?).isSome) []) (.contest id)
      (composeContest catalog depth id (memo, [])) :=
  composeContest_resolves depth id [] (memo, [])
    ⟨List.nodup_nil, fun _ h => absurd h List.not_mem_nil, fun _ h => absurd h List.not_mem_nil⟩
    hdepth ⟨hmemo, fun _ h => h, rfl⟩

/-- With a good memo the result is the composed value of the entry and nothing else. -/
theorem composedValue_eq_some (hdepth : catalog.entries.length < depth) (id : String)
    {memo : Memo} (hmemo : MemoComposed catalog memo) (value : YamlValue) :
    composedValue (composeContest catalog depth id (memo, [])) = some value ↔
      Composed catalog (.contest id) value := by
  have hspec := composeContest_top hdepth id hmemo
  match hresult : composeContest catalog depth id (memo, []) with
  | .ok (result, state) =>
      rw [hresult] at hspec
      constructor
      · intro h
        exact Option.some.inj h ▸ hspec.1
      · intro h
        exact congrArg some (hspec.1.unique h)
  | .error .depth =>
      rw [hresult] at hspec
      exact hspec.elim
  | .error (.error message) =>
      rw [hresult] at hspec
      constructor
      · intro h
        cases h
      · intro h
        exact absurd hspec h.not_faultyBelow

/-- A run over the contests: the memo stays good, loses nothing and has every one of them. -/
def Runs (catalog : Catalog) (ids : List String) (memo : Memo) : Except Stop Memo → Prop
  | .ok composed => MemoComposed catalog composed ∧
      ∀ id, id ∈ ids ∨ (memo[id]?).isSome → (composed[id]?).isSome
  | .error .depth => False
  | .error (.error _) => ∃ id ∈ ids, FaultyBelow catalog (.contest id)

theorem composeAll_runs (hdepth : catalog.entries.length < depth) (ids : List String)
    {memo : Memo} (hmemo : MemoComposed catalog memo) :
    Runs catalog ids memo (composeAll catalog depth ids memo) := by
  induction ids generalizing memo with
  | nil => exact ⟨hmemo, fun id h => h.resolve_left List.not_mem_nil⟩
  | cons id ids ih =>
      rw [composeAll]
      have hspec := composeContest_top hdepth id hmemo
      match hresult : composeContest catalog depth id (memo, []) with
      | .error .depth =>
          rw [hresult] at hspec
          exact hspec
      | .error (.error message) =>
          rw [hresult] at hspec
          exact ⟨id, List.mem_cons_self, hspec⟩
      | .ok (value, composed, stack) =>
          rw [hresult] at hspec
          obtain ⟨hvalue, hstep⟩ := hspec
          have hrest := ih (MemoComposed.insert hstep.composed hvalue)
          simp only [ok_bind]
          match hrun : composeAll catalog depth ids (composed.insert id value) with
          | .error .depth =>
              rw [hrun] at hrest
              exact hrest
          | .error (.error message) =>
              rw [hrun] at hrest
              obtain ⟨other, hmem, hfault⟩ := hrest
              exact ⟨other, List.mem_cons_of_mem _ hmem, hfault⟩
          | .ok final =>
              rw [hrun] at hrest
              refine ⟨hrest.1, fun other hother => hrest.2 other ?_⟩
              rw [TreeMap.getElem?_insert_key]
              split
              · exact .inr rfl
              · next hne =>
                  cases hother with
                  | inl hmem =>
                      exact .inl ((List.mem_cons.mp hmem).resolve_left fun heq => hne heq.symm)
                  | inr hkept => exact .inr (hstep.keeps other hkept)

/-- The memo after a run over all contests holds what each of them composes to. -/
theorem getElem?_composeAll (hdepth : catalog.entries.length < depth) {ids : List String}
    (hids : ids.Perm catalog.contests.keys) {memo : Memo}
    (h : composeAll catalog depth ids ∅ = .ok memo) (id : String) (value : YamlValue) :
    memo[id]? = some value ↔ Composed catalog (.contest id) value := by
  have hruns := composeAll_runs hdepth ids memoComposed_empty
  rw [h] at hruns
  obtain ⟨hmemo, hall⟩ := hruns
  constructor
  · exact hmemo id value
  · intro hcomposed
    have hmem : id ∈ ids := by
      cases hcomposed with
      | intro hbody =>
          refine hids.mem_iff.mpr (Std.ExtTreeMap.mem_keys.mpr
            (Std.ExtTreeMap.mem_iff_isSome_getElem?.mpr ?_))
          exact Option.isSome_iff_exists.mpr ⟨_, hbody⟩
    obtain ⟨other, hother⟩ := Option.isSome_iff_exists.mp (hall id (.inl hmem))
    rw [hother, (hmemo id other hother).unique hcomposed]

/-- A run over all contests that ends in an error has an order that makes no difference. -/
theorem composeAll_eq_none (hdepth : catalog.entries.length < depth) {ids others : List String}
    (hperm : ids.Perm others) (h : (composeAll catalog depth ids ∅).toOption = none) :
    (composeAll catalog depth others ∅).toOption = none := by
  have hruns := composeAll_runs hdepth ids memoComposed_empty
  have hothers := composeAll_runs hdepth others memoComposed_empty
  match hrun : composeAll catalog depth ids ∅ with
  | .ok memo =>
      rw [hrun] at h
      cases h
  | .error .depth =>
      rw [hrun] at hruns
      exact hruns.elim
  | .error (.error message) =>
      rw [hrun] at hruns
      obtain ⟨id, hmem, hfault⟩ := hruns
      match hrun' : composeAll catalog depth others ∅ with
      | .error _ => rfl
      | .ok memo =>
          rw [hrun'] at hothers
          obtain ⟨value, hvalue⟩ := Option.isSome_iff_exists.mp
            (hothers.2 id (.inl (hperm.mem_iff.mp hmem)))
          exact absurd hfault (hothers.1 id value hvalue).not_faultyBelow

theorem composeAll_perm (hdepth : catalog.entries.length < depth) {ids others : List String}
    (hids : ids.Perm catalog.contests.keys) (hothers : others.Perm catalog.contests.keys) :
    (composeAll catalog depth ids ∅).toOption = (composeAll catalog depth others ∅).toOption := by
  cases hrun : composeAll catalog depth ids ∅ with
  | error stop =>
      refine (composeAll_eq_none hdepth (hids.trans hothers.symm) ?_).symm
      rw [hrun]
      rfl
  | ok memo =>
      cases hrun' : composeAll catalog depth others ∅ with
      | error stop =>
          have hnone := composeAll_eq_none hdepth (hothers.trans hids.symm) (by rw [hrun']; rfl)
          rw [hrun] at hnone
          cases hnone
      | ok memo' =>
          refine congrArg some (Std.ExtTreeMap.ext_getElem? fun id => Option.ext fun value => ?_)
          rw [getElem?_composeAll hdepth hids hrun, getElem?_composeAll hdepth hothers hrun']

/-- Composing a contest ends within as many levels as the catalog has entries; it reports
an error over every missing, ill-typed or cyclic reference that can be reached, gives the
composed value where there is none and all merges succeed, and gives the same after any
other contests and in any order of them. -/
theorem composition_settled (catalog : Catalog) (depth : Nat)
    (hdepth : catalog.entries.length < depth) :
    (∀ id, composeContest catalog depth id (∅, []) ≠ .error .depth) ∧
    (∀ id reached, ReflTransGen (Refers catalog) (.contest id) reached → Broken catalog reached →
      ∃ message, composeContest catalog depth id (∅, []) = .error (.error message)) ∧
    (∀ id, (∀ reached, ReflTransGen (Refers catalog) (.contest id) reached →
        ¬ Broken catalog reached ∧ ¬ MergeFails catalog reached) →
      ∃ value memo, composeContest catalog depth id (∅, []) = .ok (value, memo, []) ∧
        Composed catalog (.contest id) value) ∧
    (∀ before memo id, composeAll catalog depth before ∅ = .ok memo →
      composedValue (composeContest catalog depth id (memo, [])) =
        composedValue (composeContest catalog depth id (∅, []))) ∧
    (∀ ids others, ids.Perm catalog.contests.keys → others.Perm catalog.contests.keys →
      (composeAll catalog depth ids ∅).toOption =
        (composeAll catalog depth others ∅).toOption) := by
  have hempty : MemoComposed catalog ∅ := memoComposed_empty
  have hspec := fun id => composeContest_top hdepth id hempty
  refine ⟨fun id heq => ?_, fun id reached hreach hbroken => ?_, fun id hgood => ?_,
    fun before memo id hrun => ?_, fun ids others => composeAll_perm hdepth⟩
  · have h := hspec id
    rw [heq] at h
    exact h
  · have h := hspec id
    match hresult : composeContest catalog depth id (∅, []) with
    | .error .depth =>
        rw [hresult] at h
        exact h.elim
    | .error (.error message) => exact ⟨message, rfl⟩
    | .ok (value, state) =>
        rw [hresult] at h
        exact absurd ⟨reached, hreach, .inl hbroken⟩ h.1.not_faultyBelow
  · have h := hspec id
    match hresult : composeContest catalog depth id (∅, []) with
    | .error .depth =>
        rw [hresult] at h
        exact h.elim
    | .error (.error message) =>
        rw [hresult] at h
        obtain ⟨reached, hreach, hfault⟩ := h
        exact (hfault.elim (hgood reached hreach).1 (hgood reached hreach).2).elim
    | .ok (value, memo, stack) =>
        rw [hresult] at h
        obtain rfl : stack = [] := h.2.stack_eq
        exact ⟨value, memo, rfl, h.1⟩
  · have hruns := composeAll_runs hdepth before hempty
    rw [hrun] at hruns
    refine Option.ext fun value => ?_
    rw [composedValue_eq_some hdepth id hruns.1, composedValue_eq_some hdepth id memoComposed_empty]

/-- A body that only names a profile. -/
def namingProfile (id : String) : YamlValue :=
  .mapping [(.string "profiles", .sequence [.string id])]

/-- Two profiles that name each other, and a contest that names the first. -/
def cycleCatalog : Catalog where
  presets := ∅
  profiles := ((∅ : KeyMap YamlValue).insert "one" (namingProfile "two")).insert "two"
    (namingProfile "one")
  contests := (∅ : KeyMap YamlValue).insert "TEST" (namingProfile "one")

theorem cycleCatalog_refers (entry : Entry) (id : String)
    (h : entry.body cycleCatalog = some (namingProfile id)) :
    Refers cycleCatalog entry (.profile id) := by
  refine ⟨_, _, h, rfl, .profile rfl List.mem_cons_self⟩

theorem composition_settled_cycle :
    cycleCatalog.entries.length < 4 ∧
    ∃ message, composeContest cycleCatalog 4 "TEST" (∅, []) = .error (.error message) := by
  have hdepth : cycleCatalog.entries.length < 4 := by decide
  have hstart := cycleCatalog_refers (.contest "TEST") "one" (by
    simp only [Entry.body, cycleCatalog, TreeMap.getElem?_insert_key]
    rfl)
  have hone := cycleCatalog_refers (.profile "one") "two" (by
    simp only [Entry.body, cycleCatalog, TreeMap.getElem?_insert_key]
    rfl)
  have htwo := cycleCatalog_refers (.profile "two") "one" (by
    simp only [Entry.body, cycleCatalog, TreeMap.getElem?_insert_key]
    rfl)
  refine ⟨hdepth, (composition_settled cycleCatalog 4 hdepth).2.1 "TEST" (.profile "one")
    (.single hstart) (.inr (.inr ?_))⟩
  exact .tail (.single hone) htwo

end Log73
