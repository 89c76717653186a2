import Log73.ContestRules.Composed
import Log73.Library.TreeMap

/-!
The composition of the source reaches what the catalog says an entry composes to, and
reports an error only over a fault among the entries that can be reached. A composition
in progress is known by its path: the entries whose tokens the stack holds.
-/

namespace Log73

open YamlMapping Relation

variable {catalog : Catalog} {σ : Type} {kept : String → Prop}

/-- The references that led to an entry, all of them entries of the catalog. -/
structure Leads (catalog : Catalog) (path : List Entry) (entry : Entry) : Prop where
  nodup : path.Nodup
  above : ∀ before ∈ path, TransGen (Refers catalog) before entry
  present : ∀ before ∈ path, before ∈ catalog.entries

/-- The memo holds composed values, what it is to keep among them, and the stack is
the path. -/
structure InStep (catalog : Catalog) (kind : String → Entry) (kept : String → Prop)
    (path : List Entry) (state : Memo × List String) : Prop where
  composed : ∀ id value, state.1[id]? = some value → Composed catalog (kind id) value
  keeps : ∀ id, kept id → (state.1[id]?).isSome
  stack_eq : state.2 = path.map Entry.token

/-- A resolution gives the composed value and a good state, or reports a fault. -/
def Resolves (catalog : Catalog) (valid : σ → Prop) (entry : Entry) :
    Except Stop (YamlValue × σ) → Prop
  | .ok (value, state) => Composed catalog entry value ∧ valid state
  | .error .depth => False
  | .error (.error _) => FaultyBelow catalog entry

/-- A run of references laid over a value, as `Resolves` is for one. -/
def Overlays (catalog : Catalog) (valid : σ → Prop) (entry : Entry) (references : List Entry)
    (start : YamlValue) : Except Stop (YamlValue × σ) → Prop
  | .ok (value, state) => valid state ∧ ∃ values,
      List.Forall₂ (Composed catalog) references values ∧ entry.overlay values start = .ok value
  | .error .depth => False
  | .error (.error _) => (∃ reference ∈ references, FaultyBelow catalog reference) ∨
      ∃ values message, List.Forall₂ (Composed catalog) references values ∧
        entry.overlay values start = .error message

/-- Every reference composes or has a fault below it. -/
def Settled (catalog : Catalog) (references : List Entry) : Prop :=
  (∃ reference ∈ references, FaultyBelow catalog reference) ∨
    ∃ values, List.Forall₂ (Composed catalog) references values

theorem Entry.body_present {entry : Entry} {body : YamlValue}
    (h : entry.body catalog = some body) : entry ∈ catalog.entries := by
  rw [Catalog.entries, List.mem_append, List.mem_map, List.mem_map]
  cases entry with
  | contest id =>
      refine .inl ⟨id, ?_, rfl⟩
      exact Std.ExtTreeMap.mem_keys.mpr (Std.ExtTreeMap.mem_iff_isSome_getElem?.mpr
        (Option.isSome_iff_exists.mpr ⟨body, h⟩))
  | profile id =>
      refine .inr ⟨id, ?_, rfl⟩
      exact Std.ExtTreeMap.mem_keys.mpr (Std.ExtTreeMap.mem_iff_isSome_getElem?.mpr
        (Option.isSome_iff_exists.mpr ⟨body, h⟩))

theorem Leads.length_le {path : List Entry} {entry : Entry} (h : Leads catalog path entry) :
    path.length ≤ catalog.entries.length :=
  (List.subperm_of_subset h.nodup h.present).length_le

theorem Leads.push {path : List Entry} {entry reference : Entry} (h : Leads catalog path entry)
    (hnew : entry ∉ path) (hpresent : entry ∈ catalog.entries)
    (hrefers : Refers catalog entry reference) : Leads catalog (path ++ [entry]) reference where
  nodup := List.nodup_append.mpr ⟨h.nodup, List.nodup_singleton _, by
    intro a ha b hb heq
    rw [List.mem_singleton] at hb
    exact hnew (hb ▸ heq ▸ ha)⟩
  above before hmem := by
    cases List.mem_append.mp hmem with
    | inl hmem => exact (h.above before hmem).tail hrefers
    | inr hmem => exact List.mem_singleton.mp hmem ▸ .single hrefers
  present before hmem := by
    cases List.mem_append.mp hmem with
    | inl hmem => exact h.present before hmem
    | inr hmem => exact List.mem_singleton.mp hmem ▸ hpresent

/-- One entry more on the path leaves room for one level less. -/
theorem room_push {path : List Entry} {depth : Nat}
    (h : catalog.entries.length < depth + 1 + path.length) (entry : Entry) :
    catalog.entries.length < depth + (path ++ [entry]).length := by
  rw [List.length_append, List.length_singleton]
  omega

theorem FaultyBelow.of_refers {entry reference : Entry} (h : Refers catalog entry reference)
    (hfault : FaultyBelow catalog reference) : FaultyBelow catalog entry := by
  obtain ⟨reached, hreach, hfaulty⟩ := hfault
  exact ⟨reached, .head h hreach, hfaulty⟩

/-- A token is pushed unless its entry is already on the path. -/
theorem pushResolution_eq (path : List Entry) (entry : Entry) :
    (entry ∈ path ∧ ∃ message, pushResolution entry.token (path.map Entry.token) =
      .error (.error message)) ∨
    entry ∉ path ∧ pushResolution entry.token (path.map Entry.token) =
      .ok ((path ++ [entry]).map Entry.token) := by
  rw [pushResolution]
  split
  · next position hfind =>
      obtain ⟨hlt, hget, _⟩ := List.findIdx?_eq_some_iff_getElem.mp hfind
      refine .inl ⟨?_, _, rfl⟩
      rw [List.getElem_map, beq_iff_eq] at hget
      exact Entry.token_injective hget ▸ List.getElem_mem _
  · next hfind =>
      refine .inr ⟨fun hmem => ?_, by rw [List.map_append]; rfl⟩
      have := List.findIdx?_eq_none_iff.mp hfind _ (List.mem_map_of_mem hmem)
      simp at this

/-- The start of a composition: the entry is pushed, found and read as a mapping. -/
theorem resolves_open {path : List Entry} {entry : Entry} {valid : σ → Prop}
    (hleads : Leads catalog path entry) (unknown shape : String)
    (k : List String → YamlMapping → Except Stop (YamlValue × σ))
    (hk : ∀ body mapping, entry.body catalog = some body → body.asMapping = some mapping →
      entry ∉ path → Resolves catalog valid entry (k ((path ++ [entry]).map Entry.token) mapping)) :
    Resolves catalog valid entry (do
      let stack ← pushResolution entry.token (path.map Entry.token)
      let body ← found unknown (entry.body catalog)
      let mapping ← found shape body.asMapping
      k stack mapping) := by
  cases pushResolution_eq path entry with
  | inl hcycle =>
      obtain ⟨hmem, message, hpush⟩ := hcycle
      rw [hpush]
      exact ⟨entry, .refl, .inl (.inr (.inr (hleads.above entry hmem)))⟩
  | inr hpushed =>
      obtain ⟨hnew, hpush⟩ := hpushed
      rw [hpush, ok_bind]
      cases hbody : entry.body catalog with
      | none => exact ⟨entry, .refl, .inl (.inl hbody)⟩
      | some body =>
          rw [found_some, ok_bind]
          cases hmapping : body.asMapping with
          | none =>
              refine ⟨entry, .refl, .inl (.inr (.inl ⟨body, hbody, fun mapping h => ?_⟩))⟩
              rw [hmapping] at h
              cases h
          | some mapping =>
              rw [found_some, ok_bind]
              exact hk body mapping hbody hmapping hnew

theorem Resolves.settled {valid : σ → Prop} {entry : Entry} {result : Except Stop (YamlValue × σ)}
    (h : Resolves catalog valid entry result) :
    FaultyBelow catalog entry ∨ ∃ value, Composed catalog entry value := by
  match result with
  | .ok (value, _) => exact .inr ⟨value, h.1⟩
  | .error (.error _) => exact .inl h

theorem Settled.cons {entry : Entry} {references : List Entry}
    (h : FaultyBelow catalog entry ∨ ∃ value, Composed catalog entry value)
    (hrest : Settled catalog references) : Settled catalog (entry :: references) := by
  cases h with
  | inl hfault => exact .inl ⟨entry, List.mem_cons_self, hfault⟩
  | inr hcomposed =>
      obtain ⟨value, hvalue⟩ := hcomposed
      cases hrest with
      | inl hfault =>
          obtain ⟨reference, hmem, hfault⟩ := hfault
          exact .inl ⟨reference, List.mem_cons_of_mem _ hmem, hfault⟩
      | inr hrest =>
          obtain ⟨values, hvalues⟩ := hrest
          exact .inr ⟨value :: values, .cons hvalue hvalues⟩

section Loop

variable {ι : Type} {valid : σ → Prop} {resolve : ι → σ → Except Stop (YamlValue × σ)}
  {kind : ι → Entry} {references : List ι} {state : σ}

theorem settled_of_resolves
    (h : ∀ reference ∈ references, ∀ state, valid state →
      Resolves catalog valid (kind reference) (resolve reference state)) (hstate : valid state) :
    Settled catalog (references.map kind) := by
  induction references with
  | nil => exact .inr ⟨[], .nil⟩
  | cons reference references ih =>
      exact (ih fun other hmem => h other (List.mem_cons_of_mem _ hmem)).cons
        (h reference List.mem_cons_self state hstate).settled

theorem mergeReferences_overlays
    (h : ∀ reference ∈ references, ∀ state, valid state →
      Resolves catalog valid (kind reference) (resolve reference state)) (hstate : valid state)
    (entry : Entry) (start : YamlValue) :
    Overlays catalog valid entry (references.map kind) start
      (mergeReferences resolve entry.context references start state) := by
  induction references generalizing start state with
  | nil => exact ⟨hstate, [], .nil, rfl⟩
  | cons reference references ih =>
      have hrest : ∀ other ∈ references, ∀ state, valid state →
          Resolves catalog valid (kind other) (resolve other state) :=
        fun other hmem => h other (List.mem_cons_of_mem _ hmem)
      have hfirst := h reference List.mem_cons_self state hstate
      rw [mergeReferences]
      cases hresult : resolve reference state with
      | error stop =>
          rw [hresult] at hfirst
          cases stop with
          | depth => exact hfirst
          | error message => exact .inl ⟨kind reference, List.mem_cons_self, hfirst⟩
      | ok resolved =>
          obtain ⟨resolved, state'⟩ := resolved
          rw [hresult] at hfirst
          obtain ⟨hcomposed, hstate'⟩ := hfirst
          rw [ok_bind]
          cases hmerge : mergeYaml start resolved entry.context with
          | error message =>
              simp only [hmerge, report_error, error_bind]
              cases settled_of_resolves hrest hstate' with
              | inl hfault =>
                  obtain ⟨other, hmem, hfault⟩ := hfault
                  exact .inl ⟨other, List.mem_cons_of_mem _ hmem, hfault⟩
              | inr hvalues =>
                  obtain ⟨values, hvalues⟩ := hvalues
                  refine .inr ⟨resolved :: values, message, .cons hcomposed hvalues, ?_⟩
                  rw [Entry.overlay, List.foldlM_cons, hmerge]
                  rfl
          | ok merged =>
              have hrun := ih hrest hstate' merged
              simp only [hmerge, report_ok, ok_bind]
              have hcons : ∀ values, entry.overlay (resolved :: values) start =
                  entry.overlay values merged := by
                intro values
                rw [Entry.overlay, List.foldlM_cons, hmerge]
                rfl
              match hloop : mergeReferences resolve entry.context references merged state' with
              | .ok (value, state'') =>
                  rw [hloop] at hrun
                  obtain ⟨hvalid, values, hvalues, hoverlay⟩ := hrun
                  exact ⟨hvalid, resolved :: values, .cons hcomposed hvalues,
                    (hcons values).trans hoverlay⟩
              | .error .depth =>
                  rw [hloop] at hrun
                  exact hrun
              | .error (.error message) =>
                  rw [hloop] at hrun
                  cases hrun with
                  | inl hfault =>
                      obtain ⟨other, hmem, hfault⟩ := hfault
                      exact .inl ⟨other, List.mem_cons_of_mem _ hmem, hfault⟩
                  | inr hfails =>
                      obtain ⟨values, message, hvalues, hoverlay⟩ := hfails
                      exact .inr ⟨resolved :: values, message, .cons hcomposed hvalues,
                        (hcons values).trans hoverlay⟩

end Loop

section Finish

variable {σ' : Type} {valid : σ → Prop} {entry : Entry} {start : YamlValue}
  {references : List Entry} {result : Except Stop (YamlValue × σ)} {body : YamlValue}
  {mapping : YamlMapping}

theorem Overlays.append {further : List Entry}
    (h : Overlays catalog valid entry references start result)
    (hfurther : Settled catalog further) (k : YamlValue × σ → Except Stop (YamlValue × σ))
    (hk : ∀ value state, valid state →
      Overlays catalog valid entry further value (k (value, state))) :
    Overlays catalog valid entry (references ++ further) start (result >>= k) := by
  match result with
  | .error .depth => exact h
  | .error (.error message) =>
      cases h with
      | inl hfault =>
          obtain ⟨reference, hmem, hfault⟩ := hfault
          exact .inl ⟨reference, List.mem_append_left _ hmem, hfault⟩
      | inr hfails =>
          obtain ⟨values, message, hvalues, hoverlay⟩ := hfails
          cases hfurther with
          | inl hfault =>
              obtain ⟨reference, hmem, hfault⟩ := hfault
              exact .inl ⟨reference, List.mem_append_right _ hmem, hfault⟩
          | inr hmore =>
              obtain ⟨more, hmore⟩ := hmore
              refine .inr ⟨values ++ more, message, List.rel_append hvalues hmore, ?_⟩
              rw [Entry.overlay, List.foldlM_append, ← Entry.overlay, hoverlay]
              rfl
  | .ok (value, state) =>
      obtain ⟨hvalid, values, hvalues, hoverlay⟩ := h
      have hrun := hk value state hvalid
      have happend : ∀ more, entry.overlay (values ++ more) start = entry.overlay more value := by
        intro more
        rw [Entry.overlay, List.foldlM_append, ← Entry.overlay, hoverlay]
        rfl
      rw [ok_bind]
      match hnext : k (value, state) with
      | .error .depth =>
          rw [hnext] at hrun
          exact hrun
      | .error (.error message) =>
          rw [hnext] at hrun
          cases hrun with
          | inl hfault =>
              obtain ⟨reference, hmem, hfault⟩ := hfault
              exact .inl ⟨reference, List.mem_append_right _ hmem, hfault⟩
          | inr hfails =>
              obtain ⟨more, message, hmore, hoverlay'⟩ := hfails
              exact .inr ⟨values ++ more, message, List.rel_append hvalues hmore,
                (happend more).trans hoverlay'⟩
      | .ok (value', state') =>
          rw [hnext] at hrun
          obtain ⟨hvalid', more, hmore, hoverlay'⟩ := hrun
          exact ⟨hvalid', values ++ more, List.rel_append hvalues hmore,
            (happend more).trans hoverlay'⟩

/-- References that overlay and an own body that merges make a composed entry. -/
theorem Overlays.finish (h : Overlays catalog valid entry references (.mapping []) result)
    (hbody : entry.body catalog = some body) (hmapping : body.asMapping = some mapping)
    (hreferences : entry.references mapping = .ok references)
    (hrefers : ∀ reference ∈ references, Refers catalog entry reference) {valid' : σ' → Prop}
    (leave : YamlValue → σ → σ')
    (hleave : ∀ value state, Composed catalog entry value → valid state →
      valid' (leave value state)) :
    Resolves catalog valid' entry (do
      let (value, state) ← result
      let value ← report (mergeYaml value (.mapping (entry.own mapping)) entry.context)
      return (value, leave value state)) := by
  match result with
  | .error .depth => exact h
  | .error (.error message) =>
      cases h with
      | inl hfault =>
          obtain ⟨reference, hmem, hfault⟩ := hfault
          exact .of_refers (hrefers reference hmem) hfault
      | inr hfails =>
          obtain ⟨values, message, hvalues, hoverlay⟩ := hfails
          refine ⟨entry, .refl, .inr ⟨body, mapping, references, values, message, hbody, hmapping,
            hreferences, hvalues, ?_⟩⟩
          rw [Entry.mergeAll, Entry.overlay, List.foldlM_append, ← Entry.overlay, hoverlay]
          rfl
  | .ok (value, state) =>
      obtain ⟨hvalid, values, hvalues, hoverlay⟩ := h
      have hall : entry.mergeAll mapping values =
          mergeYaml value (.mapping (entry.own mapping)) entry.context := by
        rw [Entry.mergeAll, Entry.overlay, List.foldlM_append, ← Entry.overlay, hoverlay, ok_bind,
          List.foldlM_cons]
        exact bind_pure _
      rw [ok_bind]
      cases hmerge : mergeYaml value (.mapping (entry.own mapping)) entry.context with
      | error message =>
          simp only [hmerge, report_error, error_bind]
          exact ⟨entry, .refl, .inr ⟨body, mapping, references, values, message, hbody, hmapping,
            hreferences, hvalues, hall.trans hmerge⟩⟩
      | ok merged =>
          simp only [hmerge, report_ok, ok_bind]
          have hcomposed : Composed catalog entry merged := by
            obtain ⟨hlength, hzip⟩ := Composed.all hvalues
            exact .intro hbody hmapping hreferences hlength hzip (hall.trans hmerge)
          exact ⟨hcomposed, hleave merged state hcomposed hvalid⟩

/-- A later step that reports an error is covered by a fault of the entry itself. -/
theorem Overlays.abort (h : Overlays catalog valid entry references start result)
    {valid' : σ' → Prop} (hfault : FaultyBelow catalog entry) (message : String)
    (k : YamlValue × σ → Except Stop (YamlValue × σ'))
    (hk : ∀ pair, k pair = .error (.error message)) :
    Resolves catalog valid' entry (result >>= k) := by
  match result with
  | .error .depth => exact h
  | .error (.error _) => exact hfault
  | .ok pair =>
      rw [ok_bind, hk]
      exact hfault

end Finish

/-- The resolution goes on below an entry with what it has. -/
theorem InStep.enter {kind : String → Entry} {path : List Entry} {cache : Memo}
    {stack : List String} (h : InStep catalog kind kept path (cache, stack)) (entry : Entry) :
    InStep catalog kind kept (path ++ [entry]) (cache, (path ++ [entry]).map Entry.token) :=
  ⟨h.composed, h.keeps, rfl⟩

theorem InStep.leave {kind : String → Entry} {path : List Entry} {id : String} {value : YamlValue}
    {state : Memo × List String} (h : InStep catalog kind kept (path ++ [kind id]) state)
    (hvalue : Composed catalog (kind id) value) :
    InStep catalog kind kept path (state.1.insert id value, state.2.dropLast) where
  composed other result hget := by
    rw [TreeMap.getElem?_insert_key] at hget
    split at hget
    · next heq =>
        subst heq
        exact Option.some.inj hget ▸ hvalue
    · exact h.composed other result hget
  keeps other hkept := by
    rw [TreeMap.getElem?_insert_key]
    split
    · rfl
    · exact h.keeps other hkept
  stack_eq := by rw [h.stack_eq, List.map_append, List.map_singleton, List.dropLast_concat]

theorem IllTyped.of_error {entry : Entry} {body : YamlValue} {mapping : YamlMapping}
    (message : String) (hbody : entry.body catalog = some body)
    (hmapping : body.asMapping = some mapping)
    (h : entry.references mapping = .error message) : FaultyBelow catalog entry := by
  refine ⟨entry, .refl, .inl (.inr (.inl ⟨body, hbody, fun mapping' hmapping' => ?_⟩))⟩
  obtain rfl := Option.some.inj (hmapping.symm.trans hmapping')
  exact ⟨message, h⟩

theorem composeProfile_resolves : ∀ (depth : Nat) (id : String) (path : List Entry)
    (state : Memo × List String), Leads catalog path (.profile id) →
    catalog.entries.length < depth + path.length → InStep catalog .profile kept path state →
    Resolves catalog (InStep catalog .profile kept path) (.profile id)
      (composeProfile catalog depth id state) := by
  intro depth
  induction depth with
  | zero =>
      intro id path state hleads hdepth
      have := hleads.length_le
      omega
  | succ depth ih =>
      intro id path state hleads hdepth hstate
      obtain ⟨cache, stack⟩ := state
      obtain rfl : stack = path.map Entry.token := hstate.stack_eq
      rw [composeProfile]
      cases hcached : cache[id]? with
      | some value => exact ⟨hstate.composed id value hcached, hstate⟩
      | none =>
          apply resolves_open hleads
          intro body mapping hbody hmapping hnew
          have hroom := room_push hdepth (.profile id)
          cases hprofiles : stringList (get mapping (.string "profiles")) "profiles" with
          | error message =>
              refine IllTyped.of_error message hbody hmapping ?_
              rw [Entry.references, hprofiles]
              rfl
          | ok profiles =>
              rw [report_ok, ok_bind]
              have hrefers : ∀ name ∈ profiles, Refers catalog (.profile id) (.profile name) :=
                fun name hmem => ⟨body, mapping, hbody, hmapping, .profile hprofiles hmem⟩
              have hloop : Overlays catalog (InStep catalog .profile kept (path ++ [.profile id]))
                  (.profile id) (profiles.map Entry.profile) (.mapping [])
                  (mergeReferences (composeProfile catalog depth) ("profile " ++ id) profiles
                    (.mapping []) (cache, (path ++ [Entry.profile id]).map Entry.token)) := by
                refine mergeReferences_overlays (fun name hmem state hstate => ?_)
                  (hstate.enter _) (.profile id) (.mapping [])
                exact ih name _ state
                  (hleads.push hnew (Entry.body_present hbody) (hrefers name hmem)) hroom hstate
              refine hloop.finish hbody hmapping (Entry.references_profile hprofiles) ?_
                (fun value state => (state.1.insert id value, state.2.dropLast))
                (fun value state hvalue hvalid => hvalid.leave hvalue)
              intro reference hmem
              obtain ⟨name, hname, rfl⟩ := List.mem_map.mp hmem
              exact hrefers name hname

theorem composeProfileOfContest_resolves (depth : Nat) (id : String) (path : List Entry)
    (state : Memo × List String) (hleads : Leads catalog path (.profile id))
    (hdepth : catalog.entries.length < depth + path.length)
    (hstate : InStep catalog .contest kept path state) :
    Resolves catalog (InStep catalog .contest kept path) (.profile id)
      (composeProfileOfContest catalog depth id state) := by
  obtain ⟨cache, stack⟩ := state
  have hempty : InStep catalog .profile (fun _ => False) path (∅, stack) := by
    refine ⟨fun id value hget => ?_, fun id hkept => hkept.elim, hstate.stack_eq⟩
    rw [Std.ExtTreeMap.getElem?_empty] at hget
    cases hget
  have hprofile := composeProfile_resolves depth id path (∅, stack) hleads hdepth hempty
  rw [composeProfileOfContest]
  match hresult : composeProfile catalog depth id (∅, stack) with
  | .error .depth =>
      rw [hresult] at hprofile
      exact hprofile
  | .error (.error message) =>
      rw [hresult] at hprofile
      exact hprofile
  | .ok (value, memo, stack') =>
      rw [hresult] at hprofile
      exact ⟨hprofile.1, hstate.composed, hstate.keeps, hprofile.2.stack_eq⟩

theorem composeContest_resolves : ∀ (depth : Nat) (id : String) (path : List Entry)
    (state : Memo × List String), Leads catalog path (.contest id) →
    catalog.entries.length < depth + path.length → InStep catalog .contest kept path state →
    Resolves catalog (InStep catalog .contest kept path) (.contest id)
      (composeContest catalog depth id state) := by
  intro depth
  induction depth with
  | zero =>
      intro id path state hleads hdepth
      have := hleads.length_le
      omega
  | succ depth ih =>
      intro id path state hleads hdepth hstate
      obtain ⟨cache, stack⟩ := state
      obtain rfl : stack = path.map Entry.token := hstate.stack_eq
      rw [composeContest]
      cases hcached : cache[id]? with
      | some value => exact ⟨hstate.composed id value hcached, hstate⟩
      | none =>
          apply resolves_open hleads
          intro body mapping hbody hmapping hnew
          have hroom := room_push hdepth (.contest id)
          cases hprofiles : stringList (get mapping (.string "profiles")) "profiles" with
          | error message =>
              refine IllTyped.of_error message hbody hmapping ?_
              rw [Entry.references, hprofiles]
              rfl
          | ok profiles =>
              rw [report_ok, ok_bind]
              have hrefers : ∀ name ∈ profiles, Refers catalog (.contest id) (.profile name) :=
                fun name hmem => ⟨body, mapping, hbody, hmapping, .profile hprofiles hmem⟩
              have hloop : Overlays catalog (InStep catalog .contest kept (path ++ [.contest id]))
                  (.contest id) (profiles.map Entry.profile) (.mapping [])
                  (mergeReferences (composeProfileOfContest catalog depth)
                    ("contest " ++ id) profiles
                    (.mapping []) (cache, (path ++ [Entry.contest id]).map Entry.token)) := by
                refine mergeReferences_overlays (fun name hmem state hstate => ?_)
                  (hstate.enter _) (.contest id) (.mapping [])
                exact composeProfileOfContest_resolves depth name _ state
                  (hleads.push hnew (Entry.body_present hbody) (hrefers name hmem)) hroom hstate
              cases hparent : optionalString (get mapping (.string "extends")) "extends" with
              | error message =>
                  refine hloop.abort (IllTyped.of_error message hbody hmapping ?_) message _
                    fun pair => rfl
                  rw [Entry.references, hprofiles, ok_bind, hparent]
                  rfl
              | ok parent =>
                  simp only [report_ok, ok_bind]
                  have hextends : ∀ name ∈ parent.toList,
                      Refers catalog (.contest id) (.contest name) := by
                    intro name hmem
                    obtain rfl := Option.mem_toList.mp hmem
                    exact ⟨body, mapping, hbody, hmapping, .parent hparent⟩
                  have hresolve : ∀ name ∈ parent.toList, ∀ state,
                      InStep catalog .contest kept (path ++ [.contest id]) state →
                      Resolves catalog (InStep catalog .contest kept (path ++ [.contest id]))
                        (.contest name) (composeContest catalog depth name state) :=
                    fun name hmem state hstate => ih name _ state
                      (hleads.push hnew (Entry.body_present hbody) (hextends name hmem)) hroom
                        hstate
                  have hboth := hloop.append (settled_of_resolves hresolve (hstate.enter _))
                    (fun pair => mergeReferences (composeContest catalog depth) ("contest " ++ id)
                      parent.toList pair.1 pair.2)
                    fun value state hvalid =>
                      mergeReferences_overlays hresolve hvalid (.contest id) value
                  have hall := hboth.finish hbody hmapping
                    (Entry.references_contest hprofiles hparent) (by
                      intro reference hmem
                      cases List.mem_append.mp hmem with
                      | inl hmem =>
                          obtain ⟨name, hname, rfl⟩ := List.mem_map.mp hmem
                          exact hrefers name hname
                      | inr hmem =>
                          obtain ⟨name, hname, rfl⟩ := List.mem_map.mp hmem
                          exact hextends name hname)
                    (fun value state => (state.1.insert id value, state.2.dropLast))
                    (fun value state hvalue hvalid => hvalid.leave hvalue)
                  rw [bind_assoc] at hall
                  exact hall

end Log73
