import Log73.Library.TreeMap
import Mathlib.Data.List.Nodup
import Mathlib.Data.List.Perm.Subperm
import Mathlib.Logic.Relation

/-!
Nodes that each build on at most one other node: what a node amounts to, and a recursion along
the references with a memo of what is known and the path of the nodes that are in progress. The
recursion is bounded by an explicit depth.
-/

namespace Lineage

open Std Relation

/-- A node is entered, which gives what it starts from or the node it builds on, and left with
what it makes of that. -/
structure Rules (κ ν ε : Type) where
  enter : κ → Except ε (ν ⊕ κ)
  leave : κ → ν → Except ε ν
  cycle : κ → List κ → ε
  exhausted : ε

variable {κ ν ε : Type}

/-- What a node amounts to. -/
inductive Value (rules : Rules κ ν ε) : κ → ν → Prop
  | root {key : κ} {base value : ν} (henter : rules.enter key = .ok (.inl base))
      (hleave : rules.leave key base = .ok value) : Value rules key value
  | child {key parent : κ} {base value : ν} (henter : rules.enter key = .ok (.inr parent))
      (hbase : Value rules parent base) (hleave : rules.leave key base = .ok value) :
      Value rules key value

/-- A node builds on another one. -/
def Builds (rules : Rules κ ν ε) (key parent : κ) : Prop := rules.enter key = .ok (.inr parent)

/-- What a node is left with. -/
def StartsFrom (rules : Rules κ ν ε) (key : κ) (base : ν) : Prop :=
  rules.enter key = .ok (.inl base) ∨
    ∃ parent, rules.enter key = .ok (.inr parent) ∧ Value rules parent base

/-- Why a node amounts to nothing. -/
inductive Fault (rules : Rules κ ν ε) (key : κ) : Prop
  | enter (h : ∀ start, rules.enter key ≠ .ok start)
  | cycle (h : TransGen (Builds rules) key key)
  | leave {base : ν} (hbase : StartsFrom rules key base)
      (h : ∀ value, rules.leave key base ≠ .ok value)

def FaultyBelow (rules : Rules κ ν ε) (key : κ) : Prop :=
  ∃ reached, ReflTransGen (Builds rules) key reached ∧ Fault rules reached

section Values

variable {rules : Rules κ ν ε} {key parent : κ} {value : ν}

theorem Value.unique (h : Value rules key value) {value' : ν} (h' : Value rules key value') :
    value = value' := by
  induction h generalizing value' with
  | root henter hleave =>
      cases h' with
      | root henter' hleave' =>
          cases henter.symm.trans henter'
          exact Except.ok.inj (hleave.symm.trans hleave')
      | child henter' _ _ => cases henter.symm.trans henter'
  | child henter _ hleave ih =>
      cases h' with
      | root henter' _ => cases henter.symm.trans henter'
      | child henter' hbase' hleave' =>
          cases henter.symm.trans henter'
          cases ih hbase'
          exact Except.ok.inj (hleave.symm.trans hleave')

theorem Value.entered (h : Value rules key value) : ∃ start, rules.enter key = .ok start := by
  cases h with
  | root henter _ => exact ⟨_, henter⟩
  | child henter _ _ => exact ⟨_, henter⟩

theorem StartsFrom.value_iff {base : ν} (h : StartsFrom rules key base) :
    Value rules key value ↔ rules.leave key base = .ok value := by
  constructor
  · intro hvalue
    rcases h with henter | ⟨parent, henter, hbase⟩
    · cases hvalue with
      | root henter' hleave =>
          cases henter.symm.trans henter'
          exact hleave
      | child henter' _ _ => cases henter.symm.trans henter'
    · cases hvalue with
      | root henter' _ => cases henter.symm.trans henter'
      | child henter' hbase' hleave =>
          cases henter.symm.trans henter'
          exact hbase.unique hbase' ▸ hleave
  · intro hleave
    rcases h with henter | ⟨parent, henter, hbase⟩
    · exact .root henter hleave
    · exact .child henter hbase hleave

theorem Value.of_builds (h : Value rules key value) (hbuilds : Builds rules key parent) :
    ∃ base, Value rules parent base := by
  cases h with
  | root henter _ => cases henter.symm.trans hbuilds
  | child henter hbase _ =>
      cases henter.symm.trans hbuilds
      exact ⟨_, hbase⟩

theorem Value.of_reflTransGen (h : Value rules key value)
    (hreach : ReflTransGen (Builds rules) key parent) : ∃ base, Value rules parent base := by
  induction hreach with
  | refl => exact ⟨value, h⟩
  | tail _ hbuilds ih =>
      obtain ⟨base, hbase⟩ := ih
      exact hbase.of_builds hbuilds

/-- A node on a cycle amounts to nothing. -/
theorem Value.acyclic (h : Value rules key value) : ¬TransGen (Builds rules) key key := by
  induction h with
  | root henter _ =>
      intro hcycle
      obtain ⟨parent, hbuilds, -⟩ := TransGen.head'_iff.mp hcycle
      cases henter.symm.trans hbuilds
  | child henter _ _ ih =>
      intro hcycle
      obtain ⟨parent, hbuilds, hreach⟩ := TransGen.head'_iff.mp hcycle
      cases henter.symm.trans hbuilds
      exact ih (.tail' hreach henter)

theorem Fault.not_value (h : Fault rules key) : ¬Value rules key value := by
  intro hvalue
  cases h with
  | enter h =>
      obtain ⟨start, henter⟩ := hvalue.entered
      exact h start henter
  | cycle h => exact hvalue.acyclic h
  | leave hbase h => exact h value (hbase.value_iff.mp hvalue)

theorem FaultyBelow.not_value (h : FaultyBelow rules key) : ¬Value rules key value := by
  obtain ⟨reached, hreach, hfault⟩ := h
  intro hvalue
  obtain ⟨base, hbase⟩ := hvalue.of_reflTransGen hreach
  exact hfault.not_value hbase

theorem FaultyBelow.of_builds (hbuilds : Builds rules key parent) (h : FaultyBelow rules parent) :
    FaultyBelow rules key := by
  obtain ⟨reached, hreach, hfault⟩ := h
  exact ⟨reached, .head hbuilds hreach, hfault⟩

end Values

variable [Ord κ] [TransOrd κ] [LawfulEqOrd κ] [DecidableEq κ] (rules : Rules κ ν ε)

/-- What is in progress: the values known so far and the path that led here. -/
abbrev Progress (κ ν : Type) [Ord κ] := ExtTreeMap κ ν × List κ

def settle (key : κ) (result : ν × Progress κ ν) : Except ε (ν × Progress κ ν) :=
  (rules.leave key result.1).map fun value =>
    (value, result.2.1.insert key value, result.2.2.dropLast)

def resolve : Nat → κ → Progress κ ν → Except ε (ν × Progress κ ν)
  | 0, _, _ => .error rules.exhausted
  | depth + 1, key, (memo, path) =>
      match memo[key]? with
      | some value => .ok (value, memo, path)
      | none =>
          if key ∈ path then .error (rules.cycle key path)
          else
            (rules.enter key).bind fun start =>
              (start.elim (fun base => .ok (base, memo, path ++ [key]))
                fun parent => resolve depth parent (memo, path ++ [key])).bind (settle rules key)

/-- Nodes are resolved one after another, each with a path of its own. -/
def resolveAll (depth : Nat) : List κ → ExtTreeMap κ ν → Except ε (ExtTreeMap κ ν)
  | [], memo => .ok memo
  | key :: keys, memo =>
      (resolve rules depth key (memo, [])).bind fun result => resolveAll depth keys result.2.1

/-- Only the bound on the depth is reported as such. -/
structure Reports : Prop where
  enter : ∀ key, rules.enter key ≠ .error rules.exhausted
  leave : ∀ key base, rules.leave key base ≠ .error rules.exhausted
  cycle : ∀ key path, rules.cycle key path ≠ rules.exhausted

/-- What is known is right. -/
def Known (memo : ExtTreeMap κ ν) : Prop :=
  ∀ key value, memo[key]? = some value → Value rules key value

/-- The path that led to a node, through nodes that there are. -/
structure Leads (keys path : List κ) (key : κ) : Prop where
  nodup : path.Nodup
  above : ∀ before ∈ path, TransGen (Builds rules) before key
  present : ∀ before ∈ path, before ∈ keys

/-- Either the value of a node, and no less is known than before, or a fault below it. -/
def Outcome (key : κ) (memo : ExtTreeMap κ ν) (path : List κ) :
    Except ε (ν × Progress κ ν) → Prop
  | .ok (value, memo', path') =>
      Value rules key value ∧ Known rules memo' ∧ memo'[key]? = some value ∧
        (∀ (other : κ) (known : ν), memo[other]? = some known → memo'[other]? = some known) ∧
        path' = path
  | .error e => FaultyBelow rules key ∧ e ≠ rules.exhausted

/-- What resolving nodes one after another comes to. -/
def OutcomeAll (names : List κ) (memo : ExtTreeMap κ ν) : Except ε (ExtTreeMap κ ν) → Prop
  | .ok table => Known rules table ∧ (∀ key ∈ names, ∃ value : ν, table[key]? = some value) ∧
      ∀ (other : κ) (known : ν), memo[other]? = some known → table[other]? = some known
  | .error e => (∃ key ∈ names, FaultyBelow rules key) ∧ e ≠ rules.exhausted

section Resolution

variable {rules} {keys path : List κ} {key parent : κ} {memo : ExtTreeMap κ ν}

omit [LawfulEqOrd κ] [DecidableEq κ] in
theorem known_empty : Known rules ∅ := by
  intro key value hget
  rw [ExtTreeMap.getElem?_empty] at hget
  cases hget

theorem Known.insert (h : Known rules memo) {value : ν} (hvalue : Value rules key value) :
    Known rules (memo.insert key value) := by
  intro other known hget
  rw [TreeMap.getElem?_insert_key] at hget
  split at hget
  · next heq => exact heq ▸ Option.some.inj hget ▸ hvalue
  · exact h other known hget

omit [Ord κ] [TransOrd κ] [LawfulEqOrd κ] [DecidableEq κ] in
theorem leads_nil (key : κ) : Leads rules keys [] key :=
  ⟨List.nodup_nil, fun _ h => absurd h List.not_mem_nil, fun _ h => absurd h List.not_mem_nil⟩

omit [Ord κ] [TransOrd κ] [LawfulEqOrd κ] [DecidableEq κ] in
theorem Leads.push (h : Leads rules keys path key) (hnew : key ∉ path) (hkey : key ∈ keys)
    (hbuilds : Builds rules key parent) : Leads rules keys (path ++ [key]) parent where
  nodup := by
    rw [List.nodup_append_comm]
    exact List.nodup_cons.mpr ⟨hnew, h.nodup⟩
  above before hmem := by
    rcases List.mem_append.mp hmem with hmem | hmem
    · exact (h.above before hmem).tail hbuilds
    · exact List.mem_singleton.mp hmem ▸ .single hbuilds
  present before hmem := by
    rcases List.mem_append.mp hmem with hmem | hmem
    · exact h.present before hmem
    · exact List.mem_singleton.mp hmem ▸ hkey

omit [Ord κ] [TransOrd κ] [LawfulEqOrd κ] [DecidableEq κ] in
theorem Leads.length_le (h : Leads rules keys path key) : path.length ≤ keys.length :=
  (List.subperm_of_subset h.nodup h.present).length_le

/-- A node is left as it should be when what it builds on is. -/
theorem settle_outcome (hreports : Reports rules) {result : ν × Progress κ ν} {path' : List κ}
    (hknown : Known rules result.2.1)
    (hkept : ∀ (other : κ) (known : ν), memo[other]? = some known →
      result.2.1[other]? = some known)
    (hunknown : memo[key]? = none) (hpath : result.2.2 = path' ++ [key])
    (hbase : StartsFrom rules key result.1) :
    Outcome rules key memo path' (settle rules key result) := by
  rw [settle]
  cases hleave : rules.leave key result.1 with
  | error e =>
      refine ⟨⟨key, .refl, .leave hbase fun value h => ?_⟩, fun heq =>
        hreports.leave key result.1 (heq ▸ hleave)⟩
      cases hleave.symm.trans h
  | ok value =>
      have hresult := hbase.value_iff.mpr hleave
      refine ⟨hresult, hknown.insert hresult, ?_, fun other known hget => ?_, ?_⟩
      · rw [TreeMap.getElem?_insert_key, if_pos rfl]
      · rw [TreeMap.getElem?_insert_key]
        split
        · next heq =>
            rw [← heq, hunknown] at hget
            cases hget
        · exact hkept other known hget
      · rw [hpath, List.dropLast_concat]

theorem resolve_outcome (hreports : Reports rules)
    (hkeys : ∀ key start, rules.enter key = .ok start → key ∈ keys) (depth : Nat)
    (hleads : Leads rules keys path key) (hdepth : keys.length < depth + path.length)
    (hknown : Known rules memo) :
    Outcome rules key memo path (resolve rules depth key (memo, path)) := by
  induction depth generalizing key path memo with
  | zero =>
      have := hleads.length_le
      omega
  | succ depth ih =>
      rw [resolve]
      cases hget : memo[key]? with
      | some value => exact ⟨hknown key value hget, hknown, hget, fun _ _ h => h, rfl⟩
      | none =>
          dsimp only
          split
          · next hmem =>
              exact ⟨⟨key, .refl, .cycle (hleads.above key hmem)⟩, hreports.cycle key path⟩
          · next hnew =>
              cases henter : rules.enter key with
              | error e =>
                  refine ⟨⟨key, .refl, .enter fun start h => ?_⟩, fun heq =>
                    hreports.enter key (heq ▸ henter)⟩
                  cases henter.symm.trans h
              | ok start =>
                  cases start with
                  | inl base =>
                      exact settle_outcome hreports hknown (fun _ _ h => h) hget rfl (.inl henter)
                  | inr parent =>
                      have hroom : keys.length < depth + (path ++ [key]).length := by
                        rw [List.length_append, List.length_singleton]
                        omega
                      have hparent := ih (hleads.push hnew (hkeys key _ henter) henter) hroom hknown
                      dsimp only [Except.bind, Sum.elim]
                      cases hresult : resolve rules depth parent (memo, path ++ [key]) with
                      | error e =>
                          rw [hresult] at hparent
                          exact ⟨hparent.1.of_builds henter, hparent.2⟩
                      | ok result =>
                          rw [hresult] at hparent
                          obtain ⟨hbase, hknown', -, hkept, hpath⟩ := hparent
                          exact settle_outcome hreports hknown' hkept hget hpath
                            (.inr ⟨parent, henter, hbase⟩)

omit [LawfulEqOrd κ] in
/-- A depth that is enough stays enough. -/
theorem resolve_succ {depth : Nat} {progress : Progress κ ν}
    (h : resolve rules depth key progress ≠ .error rules.exhausted) :
    resolve rules (depth + 1) key progress = resolve rules depth key progress := by
  induction depth generalizing key progress with
  | zero => exact absurd rfl h
  | succ depth ih =>
      obtain ⟨memo, path⟩ := progress
      rw [resolve] at h
      rw [resolve, resolve]
      cases hget : memo[key]? with
      | some value => rfl
      | none =>
          rw [hget] at h
          dsimp only at h ⊢
          split
          · rfl
          · next hnew =>
              rw [if_neg hnew] at h
              cases henter : rules.enter key with
              | error e => rfl
              | ok start =>
                  cases start with
                  | inl base => rfl
                  | inr parent =>
                      rw [henter] at h
                      dsimp only [Except.bind, Sum.elim] at h ⊢
                      rw [ih]
                      intro hparent
                      rw [hparent] at h
                      exact h rfl

omit [LawfulEqOrd κ] in
theorem resolve_of_le {depth depth' : Nat} {progress : Progress κ ν}
    (h : resolve rules depth key progress ≠ .error rules.exhausted) (hle : depth ≤ depth') :
    resolve rules depth' key progress = resolve rules depth key progress := by
  induction hle with
  | refl => rfl
  | step _ ih =>
      rw [← ih] at h
      exact (resolve_succ h).trans ih

theorem resolveAll_outcome (hreports : Reports rules)
    (hkeys : ∀ key start, rules.enter key = .ok start → key ∈ keys) {depth : Nat}
    (hdepth : keys.length < depth) (names : List κ) (hknown : Known rules memo) :
    OutcomeAll rules names memo (resolveAll rules depth names memo) := by
  induction names generalizing memo with
  | nil => exact ⟨hknown, fun _ h => absurd h List.not_mem_nil, fun _ _ h => h⟩
  | cons key names ih =>
      have hfirst := resolve_outcome hreports hkeys depth (leads_nil key)
        (by rw [List.length_nil]; exact hdepth) hknown
      rw [resolveAll]
      cases hresult : resolve rules depth key (memo, []) with
      | error e =>
          rw [hresult] at hfirst
          exact ⟨⟨key, List.mem_cons_self, hfirst.1⟩, hfirst.2⟩
      | ok result =>
          rw [hresult] at hfirst
          obtain ⟨hvalue, hknown', hget, hkept, -⟩ := hfirst
          have hrest := ih hknown'
          dsimp only [Except.bind]
          cases hall : resolveAll rules depth names result.2.1 with
          | error e =>
              rw [hall] at hrest
              obtain ⟨⟨other, hmem, hfault⟩, hreported⟩ := hrest
              exact ⟨⟨other, List.mem_cons_of_mem key hmem, hfault⟩, hreported⟩
          | ok table =>
              rw [hall] at hrest
              obtain ⟨htable, hnames, hlater⟩ := hrest
              refine ⟨htable, fun other hmem => ?_, fun other known h => hlater other known
                (hkept other known h)⟩
              rcases List.mem_cons.mp hmem with rfl | hmem
              · exact ⟨_, hlater _ _ hget⟩
              · exact hnames other hmem

/-- All nodes are resolved exactly when each has a value, and then to the table of all values. -/
theorem resolveAll_eq_ok_iff (hreports : Reports rules) {names : List κ} {depth : Nat}
    (hkeys : ∀ key start, rules.enter key = .ok start → key ∈ names)
    (hdepth : names.length < depth) {table : ExtTreeMap κ ν} :
    resolveAll rules depth names ∅ = .ok table ↔
      (∀ key ∈ names, ∃ value, Value rules key value) ∧
        ∀ (key : κ) (value : ν), table[key]? = some value ↔ Value rules key value := by
  have houtcome := resolveAll_outcome hreports hkeys hdepth names known_empty
  constructor
  · intro hresult
    rw [hresult] at houtcome
    obtain ⟨hknown, hnames, -⟩ := houtcome
    refine ⟨fun key hmem => ?_, fun key value => ⟨hknown key value, fun hvalue => ?_⟩⟩
    · obtain ⟨value, hget⟩ := hnames key hmem
      exact ⟨value, hknown key value hget⟩
    · obtain ⟨start, henter⟩ := hvalue.entered
      obtain ⟨value', hget⟩ := hnames key (hkeys key start henter)
      exact (hknown key value' hget).unique hvalue ▸ hget
  · rintro ⟨hvalues, htable⟩
    cases hresult : resolveAll rules depth names ∅ with
    | error e =>
        rw [hresult] at houtcome
        obtain ⟨⟨key, hmem, hfault⟩, -⟩ := houtcome
        obtain ⟨value, hvalue⟩ := hvalues key hmem
        exact absurd hvalue hfault.not_value
    | ok table' =>
        rw [hresult] at houtcome
        obtain ⟨hknown, hnames, -⟩ := houtcome
        congr 1
        refine ExtTreeMap.ext_getElem? fun key => Option.ext fun value => ?_
        rw [htable]
        refine ⟨hknown key value, fun hvalue => ?_⟩
        obtain ⟨start, henter⟩ := hvalue.entered
        obtain ⟨value', hget⟩ := hnames key (hkeys key start henter)
        exact (hknown key value' hget).unique hvalue ▸ hget

end Resolution

end Lineage
