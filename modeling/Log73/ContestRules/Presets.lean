import Log73.ContestRules.Compose
import Log73.ContestRules.KeysOnce

/-!
The expansion of presets, and what is left of them. The recursion of the source is bounded here by
an explicit depth, and the loop over the keys of a mapping, each there once, goes over its entries.
-/

namespace Log73

open YamlMapping

section Loops

variable (expand : YamlValue → List String → Except Stop (YamlValue × List String))

def expandValues : List YamlValue → List String → Except Stop (List YamlValue × List String)
  | [], stack => .ok ([], stack)
  | value :: values, stack => do
      let (value, stack) ← expand value stack
      let (values, stack) ← expandValues values stack
      return (value :: values, stack)

def expandEntries : YamlMapping → List String → Except Stop (YamlMapping × List String)
  | [], stack => .ok ([], stack)
  | (key, value) :: entries, stack => do
      let (value, stack) ← expand value stack
      let (entries, stack) ← expandEntries entries stack
      return ((key, value) :: entries, stack)

/-- The mapping that is laid over its preset, if it names one. -/
def overlayPreset (presets : KeyMap YamlValue) (mapping : YamlMapping) (stack : List String) :
    Except Stop (YamlMapping × List String) :=
  match (get mapping (.string "preset")).bind YamlValue.asStr with
  | none => .ok (mapping, stack)
  | some name => do
      let stack ← pushResolution ("preset:" ++ name) stack
      let preset ← found ("unknown preset: " ++ name) presets[name]?
      let (preset, stack) ← expand preset stack
      let overlay := remove mapping (.string "preset")
      let expanded ← report (mergeYaml preset (.mapping overlay) ("preset " ++ name))
      let entries ← found "expanded mapping should remain a mapping" expanded.asMapping
      return (entries, stack.dropLast)

end Loops

def expandPresets (presets : KeyMap YamlValue) : Nat → YamlValue → List String →
    Except Stop (YamlValue × List String)
  | 0, _, _ => .error .depth
  | depth + 1, .mapping mapping, stack => do
      let (expanded, stack) ← overlayPreset (expandPresets presets depth) presets mapping stack
      let (entries, stack) ← expandEntries (expandPresets presets depth) expanded stack
      return (.mapping entries, stack)
  | depth + 1, .sequence values, stack => do
      let (values, stack) ← expandValues (expandPresets presets depth) values stack
      return (.sequence values, stack)
  | _ + 1, value, stack => .ok (value, stack)

/-! ### What is left of presets -/

namespace YamlValue

/-- The values that a value holds as the values of its mappings and the items of its sequences,
itself included. -/
inductive Holds : YamlValue → YamlValue → Prop
  | refl (value : YamlValue) : Holds value value
  | item {values : List YamlValue} {item held : YamlValue} (hmem : item ∈ values)
      (h : Holds item held) : Holds (.sequence values) held
  | value {entries : YamlMapping} {entry : YamlValue × YamlValue} {held : YamlValue}
      (hmem : entry ∈ entries) (h : Holds entry.2 held) : Holds (.mapping entries) held

/-- The preset that a mapping names. -/
def presetName (entries : YamlMapping) : Option String :=
  (get entries (.string "preset")).bind asStr

def PresetFree (value : YamlValue) : Prop :=
  ∀ entries : YamlMapping, Holds value (.mapping entries) → presetName entries = none

section PresetFree

variable {values : List YamlValue} {entries : YamlMapping}

theorem presetFree_sequence :
    PresetFree (.sequence values) ↔ ∀ value ∈ values, PresetFree value := by
  constructor
  · exact fun h value hmem entries hheld => h entries (.item hmem hheld)
  · intro h entries hheld
    cases hheld with
    | item hmem hheld => exact h _ hmem entries hheld

theorem presetFree_mapping : PresetFree (.mapping entries) ↔
    presetName entries = none ∧ ∀ entry ∈ entries, PresetFree entry.2 := by
  constructor
  · exact fun h => ⟨h entries (.refl _), fun entry hmem entries' hheld =>
      h entries' (.value hmem hheld)⟩
  · rintro ⟨hnone, h⟩ entries' hheld
    cases hheld with
    | refl => exact hnone
    | value hmem hheld => exact h _ hmem entries' hheld

/-- No text is under the key, as often as it is there. -/
theorem presetName_eq_none_iff (h : TextKeysOnce entries) : presetName entries = none ↔
    ∀ entry ∈ keyEntries "preset" entries, entry.2.asStr = none := by
  have hlength := h "preset"
  rw [presetName, get_text]
  cases hentries : keyEntries "preset" entries with
  | nil => exact iff_of_true rfl fun _ hmem => absurd hmem List.not_mem_nil
  | cons entry rest =>
      rw [hentries, List.length_cons] at hlength
      have hrest : rest = [] := List.eq_nil_of_length_eq_zero (by omega)
      subst hrest
      simp

end PresetFree

end YamlValue

open YamlValue

/-- What an expansion makes of a value. -/
structure Expands (value output : YamlValue) : Prop where
  keysOnce : KeysOnce output
  presetFree : PresetFree output
  text : output.asStr = value.asStr

/-- A value takes the place of another, under the same key. -/
def ExpandsEntry (entry entry' : YamlValue × YamlValue) : Prop :=
  entry'.1 = entry.1 ∧ Expands entry.2 entry'.2

section Loops

variable {expand : YamlValue → List String → Except Stop (YamlValue × List String)}
  (hexpand : ∀ value stack output stack', KeysOnce value →
    expand value stack = .ok (output, stack') → Expands value output ∧ stack' = stack)
include hexpand

theorem expandValues_expands {values values' : List YamlValue} {stack stack' : List String}
    (hvalues : ∀ value ∈ values, KeysOnce value)
    (h : expandValues expand values stack = .ok (values', stack')) :
    List.Forall₂ Expands values values' ∧ stack' = stack := by
  induction values generalizing values' stack stack' with
  | nil =>
      cases h
      exact ⟨.nil, rfl⟩
  | cons value values ih =>
      obtain ⟨⟨output, stack₁⟩, houtput, h⟩ := Checks.bind_eq_ok.mp h
      obtain ⟨⟨outputs, stack₂⟩, houtputs, h⟩ := Checks.bind_eq_ok.mp h
      cases h
      obtain ⟨hvalue, rfl⟩ := hexpand _ _ _ _ (hvalues value List.mem_cons_self) houtput
      obtain ⟨hrest, rfl⟩ := ih (fun other hmem => hvalues other (List.mem_cons_of_mem _ hmem))
        houtputs
      exact ⟨.cons hvalue hrest, rfl⟩

theorem expandEntries_expands {entries entries' : YamlMapping} {stack stack' : List String}
    (hentries : ∀ entry ∈ entries, KeysOnce entry.2)
    (h : expandEntries expand entries stack = .ok (entries', stack')) :
    List.Forall₂ ExpandsEntry entries entries' ∧ stack' = stack := by
  induction entries generalizing entries' stack stack' with
  | nil =>
      cases h
      exact ⟨.nil, rfl⟩
  | cons entry entries ih =>
      obtain ⟨key, value⟩ := entry
      obtain ⟨⟨output, stack₁⟩, houtput, h⟩ := Checks.bind_eq_ok.mp h
      obtain ⟨⟨outputs, stack₂⟩, houtputs, h⟩ := Checks.bind_eq_ok.mp h
      cases h
      obtain ⟨hvalue, rfl⟩ := hexpand _ _ _ _ (hentries (key, value) List.mem_cons_self) houtput
      obtain ⟨hrest, rfl⟩ := ih (fun other hmem => hentries other (List.mem_cons_of_mem _ hmem))
        houtputs
      exact ⟨.cons ⟨rfl, hvalue⟩ hrest, rfl⟩

omit hexpand in
/-- A key that is not laid over keeps its entry. -/
theorem keyEntries_mergeEntries {name : String} {overlay base result : YamlMapping}
    {context : String} (hbase : (keyEntries name base).length ≤ 1)
    (hoverlay : keyEntries name overlay = [])
    (h : mergeEntries base overlay context = .ok result) :
    keyEntries name result = keyEntries name base := by
  induction overlay generalizing base with
  | nil =>
      rw [mergeEntries] at h
      cases h
      rfl
  | cons entry overlay ih =>
      obtain ⟨key, value⟩ := entry
      obtain ⟨merged, -, h⟩ := mergeEntries_cons_eq_ok h
      have hmem : ¬eq (.string name) key = true :=
        List.filter_eq_nil_iff.mp hoverlay (key, value) List.mem_cons_self
      have hkey : key ≠ .string name := fun heq => hmem ((eq_string _ _).mpr heq)
      have hnew : keyEntries name (insertNew (remove base key) key merged) =
          keyEntries name base := by
        rw [keyEntries_insertNew, if_neg hmem, List.append_nil, keyEntries_remove hbase key hkey]
      rw [keyEntries, List.filter_cons, if_neg hmem] at hoverlay
      rw [ih (by rw [hnew]; exact hbase) hoverlay h, hnew]

omit hexpand in
theorem pushResolution_eq_ok {token : String} {stack stack' : List String}
    (h : pushResolution token stack = .ok stack') : stack' = stack ++ [token] := by
  rw [pushResolution] at h
  split at h
  · cases h
  · cases h
    rfl

omit hexpand in
theorem report_eq_ok {α : Type} {result : Except String α} {value : α}
    (h : report result = .ok value) : result = .ok value := by
  cases result with
  | error message => cases h
  | ok value' =>
      cases h
      rfl

omit hexpand in
theorem found_eq_ok {α : Type} {message : String} {result : Option α} {value : α}
    (h : found message result = .ok value) : result = some value := by
  cases result with
  | none => cases h
  | some value' =>
      cases h
      rfl

omit hexpand in
/-- A mapping without a preset that is laid over an expanded preset names none. -/
theorem presetName_overlay {preset expanded : YamlValue} {overlay entries : YamlMapping}
    {context : String} (hkeys : KeysOnce preset) (hfree : PresetFree preset)
    (hoverlay : KeysOnce (.mapping overlay)) (hnone : keyEntries "preset" overlay = [])
    (hmerge : mergeYaml preset (.mapping overlay) context = .ok expanded)
    (hentries : expanded.asMapping = some entries) :
    KeysOnce (.mapping entries) ∧ presetName entries = none := by
  have hall := (mergeYaml_keysOnce hkeys hoverlay hmerge).asMapping hentries
  have honce := (keysOnce_mapping.mp hall).1
  refine ⟨hall, (presetName_eq_none_iff honce).mpr ?_⟩
  rcases mergeYaml_eq_ok hmerge with ⟨base, overlay', merged, rfl, heq, rfl, hmerged⟩ |
    ⟨_, _, _, _, heq, _⟩ | rfl
  · cases heq
    cases hentries
    have hbase := (keysOnce_mapping.mp hkeys).1
    rw [keyEntries_mergeEntries (hbase "preset") hnone hmerged]
    exact (presetName_eq_none_iff hbase).mp (presetFree_mapping.mp hfree).1
  · cases heq
  · cases hentries
    rw [hnone]
    exact fun _ hmem => absurd hmem List.not_mem_nil

/-- What is laid over a preset names none. -/
theorem overlayPreset_spec {presets : KeyMap YamlValue}
    (hpresets : ∀ (name : String) (preset : YamlValue), presets[name]? = some preset →
      KeysOnce preset)
    {mapping entries : YamlMapping} {stack stack' : List String}
    (hmapping : KeysOnce (.mapping mapping))
    (h : overlayPreset expand presets mapping stack = .ok (entries, stack')) :
    KeysOnce (.mapping entries) ∧ presetName entries = none ∧ stack' = stack := by
  rw [overlayPreset] at h
  split at h
  · next hname =>
      cases h
      exact ⟨hmapping, hname, rfl⟩
  · next name hname =>
      obtain ⟨stack₁, hpush, h⟩ := Checks.bind_eq_ok.mp h
      obtain ⟨preset, hpreset, h⟩ := Checks.bind_eq_ok.mp h
      obtain ⟨⟨output, stack₂⟩, houtput, h⟩ := Checks.bind_eq_ok.mp h
      obtain ⟨expanded, hmerge, h⟩ := Checks.bind_eq_ok.mp h
      obtain ⟨merged, hmerged, h⟩ := Checks.bind_eq_ok.mp h
      cases h
      obtain ⟨hexpands, rfl⟩ := hexpand _ _ _ _ (hpresets name preset (found_eq_ok hpreset)) houtput
      have hnone := keyEntries_remove_self ((keysOnce_mapping.mp hmapping).1 "preset")
      obtain ⟨hkeys, hfree⟩ := presetName_overlay hexpands.keysOnce hexpands.presetFree
        (hmapping.remove _) hnone (report_eq_ok hmerge) (found_eq_ok hmerged)
      refine ⟨hkeys, hfree, ?_⟩
      rw [pushResolution_eq_ok hpush, List.dropLast_concat]

end Loops

section Entries

variable {entries entries' : YamlMapping}

theorem expands_keyEntries (name : String) (h : List.Forall₂ ExpandsEntry entries entries') :
    List.Forall₂ ExpandsEntry (keyEntries name entries) (keyEntries name entries') := by
  induction h with
  | nil => exact .nil
  | @cons entry entry' entries entries' hentry _ ih =>
      rw [keyEntries, keyEntries, List.filter_cons, List.filter_cons, hentry.1]
      split
      · exact .cons hentry ih
      · exact ih

/-- A value that becomes another is a text where it was one before. -/
theorem expands_entries (hentries : KeysOnce (.mapping entries))
    (hnone : presetName entries = none) (h : List.Forall₂ ExpandsEntry entries entries') :
    KeysOnce (.mapping entries') ∧ PresetFree (.mapping entries') := by
  obtain ⟨honce, hparts⟩ := keysOnce_mapping.mp hentries
  have honce' : TextKeysOnce entries' := fun name => by
    rw [← (expands_keyEntries name h).length_eq]
    exact honce name
  have hkeys : ∀ entry' ∈ entries', KeysOnce entry'.1 ∧ KeysOnce entry'.2 := by
    intro entry' hmem
    obtain ⟨entry, hentry, hkey, hexpands⟩ := Checks.exists_of_mem_right h hmem
    rw [hkey]
    exact ⟨(hparts entry hentry).1, hexpands.keysOnce⟩
  have hfree : ∀ entry' ∈ entries', PresetFree entry'.2 := by
    intro entry' hmem
    obtain ⟨_, _, _, hexpands⟩ := Checks.exists_of_mem_right h hmem
    exact hexpands.presetFree
  refine ⟨keysOnce_mapping.mpr ⟨honce', hkeys⟩, presetFree_mapping.mpr ⟨?_, hfree⟩⟩
  refine (presetName_eq_none_iff honce').mpr fun entry' hmem => ?_
  obtain ⟨entry, hentry, -, hexpands⟩ :=
    Checks.exists_of_mem_right (expands_keyEntries "preset" h) hmem
  rw [hexpands.text]
  exact (presetName_eq_none_iff honce).mp hnone entry hentry

end Entries

theorem expandPresets_expands {presets : KeyMap YamlValue}
    (hpresets : ∀ (name : String) (preset : YamlValue), presets[name]? = some preset →
      KeysOnce preset)
    (depth : Nat) {value output : YamlValue} {stack stack' : List String} (hvalue : KeysOnce value)
    (h : expandPresets presets depth value stack = .ok (output, stack')) :
    Expands value output ∧ stack' = stack := by
  induction depth generalizing value output stack stack' with
  | zero =>
      rw [expandPresets] at h
      cases h
  | succ depth ih =>
      have hexpand : ∀ value stack output stack', KeysOnce value →
          expandPresets presets depth value stack = .ok (output, stack') →
          Expands value output ∧ stack' = stack := fun _ _ _ _ hvalue h => ih hvalue h
      cases value with
      | mapping mapping =>
          rw [expandPresets] at h
          obtain ⟨⟨entries, stack₁⟩, hoverlay, h⟩ := Checks.bind_eq_ok.mp h
          obtain ⟨⟨outputs, stack₂⟩, houtputs, h⟩ := Checks.bind_eq_ok.mp h
          cases h
          obtain ⟨hkeys, hnone, rfl⟩ := overlayPreset_spec hexpand hpresets hvalue hoverlay
          obtain ⟨hall, rfl⟩ := expandEntries_expands hexpand
            (fun entry hmem => ((keysOnce_mapping.mp hkeys).2 entry hmem).2) houtputs
          obtain ⟨hkeys', hfree⟩ := expands_entries hkeys hnone hall
          exact ⟨⟨hkeys', hfree, rfl⟩, rfl⟩
      | sequence values =>
          rw [expandPresets] at h
          obtain ⟨⟨outputs, stack₁⟩, houtputs, h⟩ := Checks.bind_eq_ok.mp h
          cases h
          obtain ⟨hall, rfl⟩ := expandValues_expands hexpand (keysOnce_sequence.mp hvalue) houtputs
          have hmem : ∀ output ∈ outputs, KeysOnce output ∧ PresetFree output := by
            intro output hmem
            obtain ⟨_, _, hexpands⟩ := Checks.exists_of_mem_right hall hmem
            exact ⟨hexpands.keysOnce, hexpands.presetFree⟩
          refine ⟨⟨?_, ?_, rfl⟩, rfl⟩
          · exact keysOnce_sequence.mpr fun output h => (hmem output h).1
          · exact presetFree_sequence.mpr fun output h => (hmem output h).2
      | null | bool _ | number _ | string _ | tagged _ _ =>
          rw [expandPresets] at h
          · cases h
            refine ⟨⟨hvalue, ?_, rfl⟩, rfl⟩
            intro entries hheld
            cases hheld
          all_goals
            intros
            contradiction

/-! ### A second expansion -/

section Again

variable {expand : YamlValue → List String → Except Stop (YamlValue × List String)}
  {stack : List String}

theorem expandValues_self {values : List YamlValue}
    (h : ∀ value ∈ values, expand value stack = .ok (value, stack)) :
    expandValues expand values stack = .ok (values, stack) := by
  induction values with
  | nil => rfl
  | cons value values ih =>
      have hrest := ih fun other hmem => h other (List.mem_cons_of_mem _ hmem)
      rw [expandValues, h value List.mem_cons_self, ok_bind]
      dsimp only
      rw [hrest, ok_bind]
      rfl

theorem expandEntries_self {entries : YamlMapping}
    (h : ∀ entry ∈ entries, expand entry.2 stack = .ok (entry.2, stack)) :
    expandEntries expand entries stack = .ok (entries, stack) := by
  induction entries with
  | nil => rfl
  | cons entry entries ih =>
      obtain ⟨key, value⟩ := entry
      have hrest := ih fun other hmem => h other (List.mem_cons_of_mem _ hmem)
      rw [expandEntries, h (key, value) List.mem_cons_self, ok_bind]
      dsimp only
      rw [hrest, ok_bind]
      rfl

/-- Where no preset is left there is nothing to expand. -/
theorem expandPresets_self (presets : KeyMap YamlValue) {depth : Nat} {value : YamlValue}
    (hfree : PresetFree value) (hdepth : size value ≤ depth) :
    expandPresets presets depth value stack = .ok (value, stack) := by
  induction depth generalizing value with
  | zero => exact absurd (size_pos value) (by omega)
  | succ depth ih =>
      cases value with
      | mapping entries =>
          obtain ⟨hnone, hvalues⟩ := presetFree_mapping.mp hfree
          rw [size] at hdepth
          have hoverlay : overlayPreset (expandPresets presets depth) presets entries stack =
              .ok (entries, stack) := by
            rw [presetName] at hnone
            rw [overlayPreset, hnone]
          have hentries : expandEntries (expandPresets presets depth) entries stack =
              .ok (entries, stack) := by
            refine expandEntries_self fun entry hmem => ih (hvalues entry hmem) ?_
            have := size_lt_sizeEntries hmem
            omega
          rw [expandPresets, hoverlay, ok_bind]
          dsimp only
          rw [hentries, ok_bind]
          rfl
      | sequence values =>
          rw [size] at hdepth
          have hvalues : expandValues (expandPresets presets depth) values stack =
              .ok (values, stack) := by
            refine expandValues_self fun value hmem =>
              ih (presetFree_sequence.mp hfree value hmem) ?_
            have := size_le_sizeValues hmem
            omega
          rw [expandPresets, hvalues, ok_bind]
          rfl
      | null | bool _ | number _ | string _ | tagged _ _ => rfl

end Again

section Settled

variable {presets : KeyMap YamlValue}
  (hpresets : ∀ (name : String) (preset : YamlValue), presets[name]? = some preset →
    KeysOnce preset)
include hpresets

/-- No mapping of an expanded document names a preset, and a second expansion changes nothing. -/
theorem expandPresets_settles {document output : YamlValue} {depth : Nat}
    {stack stack' : List String} (hdocument : KeysOnce document)
    (h : expandPresets presets depth document stack = .ok (output, stack')) :
    PresetFree output ∧ ∀ depth, size output ≤ depth → ∀ stack,
      expandPresets presets depth output stack = .ok (output, stack) := by
  obtain ⟨hexpands, -⟩ := expandPresets_expands hpresets depth hdocument h
  exact ⟨hexpands.presetFree, fun _ hdepth _ =>
    expandPresets_self presets hexpands.presetFree hdepth⟩

end Settled

/-- A preset that names another one and sets a field. -/
def casePresets : KeyMap YamlValue :=
  ((∅ : KeyMap YamlValue).insert "any" (.mapping [(.string "points", .bool true)])).insert "cw"
    (.mapping [(.string "preset", .string "any"), (.string "mode", .string "CW")])

def caseDocument : YamlValue :=
  .mapping [(.string "score", .mapping [(.string "preset", .string "cw")])]

def caseExpanded : YamlValue :=
  .mapping [(.string "score", .mapping [(.string "points", .bool true),
    (.string "mode", .string "CW")])]

theorem casePresets_any : casePresets["any"]? =
    some (.mapping [(.string "points", .bool true)]) := by
  rw [casePresets, Std.ExtTreeMap.getElem?_insert, if_neg (by decide),
    Std.ExtTreeMap.getElem?_insert_self]

theorem casePresets_cw : casePresets["cw"]? =
    some (.mapping [(.string "preset", .string "any"), (.string "mode", .string "CW")]) :=
  Std.ExtTreeMap.getElem?_insert_self

theorem expandPresets_case : expandPresets casePresets 7 caseDocument [] =
    .ok (caseExpanded, []) := by
  simp [expandPresets, caseDocument, overlayPreset, expandEntries, YamlMapping.get,
    YamlMapping.find?, eq, asStr,
    pushResolution, casePresets_any, casePresets_cw, YamlMapping.remove,
      List.findIdx?_cons, swapRemove,
    insertNew, mergeYaml, mergeEntries, ok_bind, asMapping, caseExpanded, pure, Except.pure]

theorem keysOnce_string (s : String) : KeysOnce (.string s) := by
  intro entries hpart
  cases hpart

theorem keysOnce_bool (b : Bool) : KeysOnce (.bool b) := by
  intro entries hpart
  cases hpart

theorem casePresets_keysOnce (name : String) (preset : YamlValue)
    (h : casePresets[name]? = some preset) : KeysOnce preset := by
  rw [casePresets, Std.ExtTreeMap.getElem?_insert, Std.ExtTreeMap.getElem?_insert] at h
  split at h
  · cases h
    refine keysOnce_mapping.mpr ⟨DistinctKeys.textKeysOnce ?_, ?_⟩
    · simp [DistinctKeys, eq]
    · simp [keysOnce_string]
  · split at h
    · cases h
      refine keysOnce_mapping.mpr ⟨DistinctKeys.textKeysOnce ?_, ?_⟩
      · simp [DistinctKeys]
      · simp [keysOnce_string, keysOnce_bool]
    · simp at h

theorem keysOnce_single {key value : YamlValue} (hkey : KeysOnce key) (hvalue : KeysOnce value) :
    KeysOnce (.mapping [(key, value)]) := by
  refine keysOnce_mapping.mpr ⟨DistinctKeys.textKeysOnce ?_, fun entry hmem => ?_⟩
  · exact List.pairwise_singleton _ _
  · rw [List.mem_singleton.mp hmem]
    exact ⟨hkey, hvalue⟩

theorem expandPresets_settles_case :
    expandPresets casePresets 7 caseDocument [] = .ok (caseExpanded, []) ∧
    PresetFree caseExpanded ∧ ∀ depth, size caseExpanded ≤ depth → ∀ stack,
      expandPresets casePresets depth caseExpanded stack = .ok (caseExpanded, stack) :=
  ⟨expandPresets_case, expandPresets_settles casePresets_keysOnce
    (keysOnce_single (keysOnce_string _) (keysOnce_single (keysOnce_string _) (keysOnce_string _)))
    expandPresets_case⟩

/-- A preset named in a key, and one named under a tag. -/
def taggedDocument : YamlValue :=
  .mapping [(.mapping [(.string "preset", .string "any")],
    .tagged "later" (.mapping [(.string "preset", .string "cw")]))]

theorem not_presetFree_parts :
    KeysOnce taggedDocument ∧
    expandPresets casePresets 2 taggedDocument [] = .ok (taggedDocument, []) ∧
    (∃ entries, Part taggedDocument (.mapping entries) ∧ presetName entries = some "any") ∧
    ∃ entries, Part taggedDocument (.mapping entries) ∧ presetName entries = some "cw" := by
  refine ⟨?_, rfl, ⟨_, .key List.mem_cons_self (.refl _), rfl⟩,
    ⟨_, .value List.mem_cons_self (.tagged (.refl _)), rfl⟩⟩
  refine keysOnce_single (keysOnce_single (keysOnce_string _) (keysOnce_string _)) ?_
  intro entries hpart
  cases hpart with
  | tagged hpart => exact keysOnce_single (keysOnce_string _) (keysOnce_string _) entries hpart

end Log73
