import Log73.ContestRules.Keyed

/-!
What a value is made of, and that merging keeps every text once among the keys of a mapping, at
any depth.
-/

namespace Log73

open YamlMapping

namespace YamlValue

/-- What a value is made of, itself included. -/
inductive Part : YamlValue → YamlValue → Prop
  | refl (value : YamlValue) : Part value value
  | item {values : List YamlValue} {item part : YamlValue} (hmem : item ∈ values)
      (h : Part item part) : Part (.sequence values) part
  | key {entries : YamlMapping} {entry : YamlValue × YamlValue} {part : YamlValue}
      (hmem : entry ∈ entries) (h : Part entry.1 part) : Part (.mapping entries) part
  | value {entries : YamlMapping} {entry : YamlValue × YamlValue} {part : YamlValue}
      (hmem : entry ∈ entries) (h : Part entry.2 part) : Part (.mapping entries) part
  | tagged {tag : String} {value part : YamlValue} (h : Part value part) :
      Part (.tagged tag value) part

/-- No mapping in a value has two entries under one text. -/
def KeysOnce (value : YamlValue) : Prop :=
  ∀ entries : YamlMapping, Part value (.mapping entries) → TextKeysOnce entries

section KeysOnce

variable {values : List YamlValue} {entries : YamlMapping}

theorem keysOnce_sequence : KeysOnce (.sequence values) ↔ ∀ value ∈ values, KeysOnce value := by
  constructor
  · exact fun h value hmem entries hpart => h entries (.item hmem hpart)
  · intro h entries hpart
    cases hpart with
    | item hmem hpart => exact h _ hmem entries hpart

theorem keysOnce_mapping : KeysOnce (.mapping entries) ↔
    TextKeysOnce entries ∧ ∀ entry ∈ entries, KeysOnce entry.1 ∧ KeysOnce entry.2 := by
  constructor
  · intro h
    refine ⟨h entries (.refl _), fun entry hmem => ⟨fun entries' hpart => ?_,
      fun entries' hpart => ?_⟩⟩
    · exact h entries' (.key hmem hpart)
    · exact h entries' (.value hmem hpart)
  · rintro ⟨honce, h⟩ entries' hpart
    cases hpart with
    | refl => exact honce
    | key hmem hpart => exact (h _ hmem).1 entries' hpart
    | value hmem hpart => exact (h _ hmem).2 entries' hpart

theorem KeysOnce.asMapping {value : YamlValue} (h : KeysOnce value)
    (hmapping : value.asMapping = some entries) : KeysOnce (.mapping entries) := by
  induction value using YamlValue.asMapping.induct with
  | case1 entries' =>
      cases hmapping
      exact h
  | case2 tag value ih => exact ih (fun entries' hpart => h entries' (.tagged hpart)) hmapping
  | case3 value hother hother' =>
      rw [YamlValue.asMapping] at hmapping
      · cases hmapping
      · exact hother
      · exact hother'

theorem mem_of_mem_remove {key : YamlValue} {entry : YamlValue × YamlValue}
    (h : entry ∈ remove entries key) : entry ∈ entries := by
  cases hfind : find? entries key with
  | none => rwa [remove_of_find?_none hfind] at h
  | some found => exact (remove_perm hfind).mem_iff.mp (List.mem_cons_of_mem found h)

theorem KeysOnce.remove (h : KeysOnce (.mapping entries)) (key : YamlValue) :
    KeysOnce (.mapping (remove entries key)) := by
  obtain ⟨honce, hentries⟩ := keysOnce_mapping.mp h
  exact keysOnce_mapping.mpr ⟨honce.remove key, fun entry hmem =>
    hentries entry (mem_of_mem_remove hmem)⟩

theorem KeysOnce.insertNew (h : KeysOnce (.mapping entries)) {key value : YamlValue}
    (hkey : KeysOnce key) (hvalue : KeysOnce value) :
    KeysOnce (.mapping (insertNew (YamlMapping.remove entries key) key value)) := by
  obtain ⟨honce, hentries⟩ := keysOnce_mapping.mp h
  refine keysOnce_mapping.mpr ⟨honce.insertNew key value, fun entry hmem => ?_⟩
  rcases List.mem_append.mp hmem with hmem | hmem
  · exact hentries entry (mem_of_mem_remove hmem)
  · rw [List.mem_singleton.mp hmem]
    exact ⟨hkey, hvalue⟩

theorem keysOnce_nil : KeysOnce (.mapping []) :=
  keysOnce_mapping.mpr ⟨fun _ => Nat.zero_le 1, fun _ h => absurd h List.not_mem_nil⟩

theorem KeysOnce.cleanItem {item : YamlValue} (h : KeysOnce item) :
    KeysOnce (.mapping (cleanItem item)) := by
  have hmapping : KeysOnce (.mapping (itemMapping item)) := by
    rw [itemMapping]
    cases hentries : item.asMapping with
    | none => exact keysOnce_nil
    | some entries => exact h.asMapping hentries
  exact ((hmapping.remove _).remove _).remove _

theorem KeysOnce.get {key found : YamlValue} (h : KeysOnce (.mapping entries))
    (hget : get entries key = some found) : KeysOnce found := by
  rw [YamlMapping.get, Option.map_eq_some_iff] at hget
  obtain ⟨entry, hfind, rfl⟩ := hget
  exact ((keysOnce_mapping.mp h).2 entry (List.mem_of_find?_eq_some hfind)).2

end KeysOnce

/-! ### Merging -/

section Merging

/-- Anything that is not merged is replaced. -/
theorem mergeYaml_eq_ok {base overlay merged : YamlValue} {context : String}
    (h : mergeYaml base overlay context = .ok merged) :
    (∃ base' overlay' entries, base = .mapping base' ∧ overlay = .mapping overlay' ∧
      merged = .mapping entries ∧ mergeEntries base' overlay' context = .ok entries) ∨
    (∃ base' overlay' values, base = .sequence base' ∧ overlay = .sequence overlay' ∧
      merged = .sequence values ∧ mergeKeyedCollection base' overlay' context = .ok values) ∨
    merged = overlay := by
  cases overlay with
  | mapping overlay' =>
      cases base with
      | mapping base' =>
          rw [mergeYaml] at h
          obtain ⟨entries, hentries, h⟩ := Checks.bind_eq_ok.mp h
          cases h
          exact .inl ⟨base', overlay', entries, rfl, rfl, rfl, hentries⟩
      | _ =>
          rw [mergeYaml] at h
          · cases h
            exact .inr (.inr rfl)
          all_goals
            intros
            contradiction
  | sequence overlay' =>
      cases base with
      | sequence base' =>
          rw [mergeYaml] at h
          split at h
          · obtain ⟨values, hvalues, h⟩ := Checks.bind_eq_ok.mp h
            cases h
            exact .inr (.inl ⟨base', overlay', values, rfl, rfl, rfl, hvalues⟩)
          · cases h
            exact .inr (.inr rfl)
      | _ =>
          rw [mergeYaml] at h
          · cases h
            exact .inr (.inr rfl)
          all_goals
            intros
            contradiction
  | _ =>
      rw [mergeYaml] at h
      · cases h
        exact .inr (.inr rfl)
      all_goals
        intros
        contradiction

theorem keysOnce_null : KeysOnce .null := by
  intro entries hpart
  cases hpart

variable {context : String}

theorem mergeEntries_keysOnce {base overlay result : YamlMapping}
    (hvalue : ∀ entry ∈ overlay, ∀ base merged, KeysOnce base →
      mergeYaml base entry.2 context = .ok merged → KeysOnce merged)
    (hbase : KeysOnce (.mapping base))
    (hoverlay : ∀ entry ∈ overlay, KeysOnce entry.1 ∧ KeysOnce entry.2)
    (h : mergeEntries base overlay context = .ok result) : KeysOnce (.mapping result) := by
  induction overlay generalizing base with
  | nil =>
      rw [mergeEntries] at h
      cases h
      exact hbase
  | cons entry overlay ih =>
      obtain ⟨key, value⟩ := entry
      obtain ⟨merged, hmerged, h⟩ := mergeEntries_cons_eq_ok h
      obtain ⟨hkey, hown⟩ := hoverlay (key, value) List.mem_cons_self
      have hexisting : KeysOnce ((get base key).getD .null) := by
        cases hget : get base key with
        | none => exact keysOnce_null
        | some existing => exact hbase.get hget
      have hnew : KeysOnce merged := by
        rcases hmerged with hmerged | rfl
        · exact hvalue (key, value) List.mem_cons_self _ merged hexisting hmerged
        · exact hown
      exact ih (fun entry hmem => hvalue entry (List.mem_cons_of_mem _ hmem))
        (hbase.insertNew hkey hnew)
          (fun entry hmem => hoverlay entry (List.mem_cons_of_mem _ hmem)) h

theorem mergeItems_keysOnce {base overlay result : List YamlValue}
    (hitem : ∀ item ∈ overlay, ∀ base merged, KeysOnce base →
      mergeYaml base (.mapping (Log73.cleanItem item)) context = .ok merged → KeysOnce merged)
    (hbase : ∀ value ∈ base, KeysOnce value) (hoverlay : ∀ item ∈ overlay, KeysOnce item)
    (h : mergeItems base overlay context = .ok result) : ∀ value ∈ result, KeysOnce value := by
  induction overlay generalizing base with
  | nil =>
      rw [mergeItems] at h
      cases h
      exact hbase
  | cons item overlay ih =>
      have hlater : ∀ base, (∀ value ∈ base, KeysOnce value) →
          mergeItems base overlay context = .ok result → ∀ value ∈ result, KeysOnce value :=
        fun base hbase h => ih (fun item hmem => hitem item (List.mem_cons_of_mem _ hmem)) hbase
          (fun item hmem => hoverlay item (List.mem_cons_of_mem _ hmem)) h
      have hown := (hoverlay item List.mem_cons_self).cleanItem
      obtain ⟨id, -, ⟨-, position, -, h⟩ | ⟨-, before, after, merged, target, -, -, -,
          hmerged, -, h⟩⟩ :=
        mergeItems_cons_eq_ok h
      · exact hlater _ (fun value hmem => hbase value (List.mem_of_mem_eraseIdx hmem)) h
      · have hnew : KeysOnce merged := by
          cases hexisting : (positionOf base id).bind fun position => base[position]? with
          | none =>
              rw [hexisting] at hmerged
              cases hmerged
              exact hown
          | some existing =>
              rw [hexisting] at hmerged
              obtain ⟨position, -, hget⟩ := Option.bind_eq_some_iff.mp hexisting
              exact hitem item List.mem_cons_self existing merged
                (hbase existing (List.mem_of_getElem? hget)) hmerged
        refine hlater _ (fun value hmem => ?_) h
        rcases List.eq_or_mem_of_mem_insertIdx hmem with rfl | hmem
        · exact hnew
        · refine hbase value ?_
          cases hposition : positionOf base id with
          | none =>
              rw [hposition] at hmem
              exact hmem
          | some position =>
              rw [hposition] at hmem
              exact List.mem_of_mem_eraseIdx hmem

theorem size_le_sizeValues {values : List YamlValue} {value : YamlValue} (h : value ∈ values) :
    size value ≤ sizeValues values := by
  induction values with
  | nil => cases h
  | cons first values ih =>
      rw [sizeValues]
      rcases List.mem_cons.mp h with rfl | h
      · omega
      · have := ih h
        omega

theorem size_lt_sizeEntries {entries : YamlMapping} {entry : YamlValue × YamlValue}
    (h : entry ∈ entries) : size entry.2 < sizeEntries entries := by
  induction entries with
  | nil => cases h
  | cons first entries ih =>
      obtain ⟨key, value⟩ := first
      have hkey := size_pos key
      rw [sizeEntries]
      rcases List.mem_cons.mp h with rfl | h
      · dsimp only
        omega
      · have := ih h
        omega

theorem mergeYaml_keysOnce {base overlay merged : YamlValue} (hbase : KeysOnce base)
    (hoverlay : KeysOnce overlay) (h : mergeYaml base overlay context = .ok merged) :
    KeysOnce merged := by
  induction hsize : size overlay using Nat.strong_induction_on generalizing base overlay merged with
  | _ n ih =>
      subst hsize
      rcases mergeYaml_eq_ok h with ⟨base', overlay', entries, rfl, rfl, rfl, hentries⟩ |
        ⟨base', overlay', values, rfl, rfl, rfl, hvalues⟩ | rfl
      · obtain ⟨-, hparts⟩ := keysOnce_mapping.mp hoverlay
        refine mergeEntries_keysOnce (fun entry hmem base merged hbase hmerged => ?_) hbase hparts
          hentries
        have hlt := size_lt_sizeEntries hmem
        exact ih _ (by rw [size]; omega) hbase (hparts entry hmem).2 hmerged rfl
      · rw [keysOnce_sequence] at hbase hoverlay ⊢
        obtain ⟨-, -, -, ⟨-, rfl⟩ | ⟨-, hitems⟩⟩ := mergeKeyedCollection_eq_ok hvalues
        · exact fun _ hmem => absurd hmem List.not_mem_nil
        · refine mergeItems_keysOnce (fun item hmem base merged hbase hmerged => ?_) hbase hoverlay
            hitems
          have hle := size_le_sizeValues hmem
          have hclean := size_cleanItem item
          exact ih _ (by rw [size, size] at *; omega) hbase
            (hoverlay item hmem).cleanItem hmerged rfl
      · exact hoverlay

end Merging

end YamlValue

end Log73
