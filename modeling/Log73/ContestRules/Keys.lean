import Log73.ContestRules.Yaml

/-!
The entries of a mapping under one key that is a text, and what the operations on a mapping do to
them.
-/

namespace Log73.YamlMapping

open YamlValue

/-- A mapping has an entry for each of its keys. -/
def DistinctKeys (entries : YamlMapping) : Prop :=
  entries.Pairwise fun a b => eq a.1 b.1 = false

def keyEntries (name : String) (entries : YamlMapping) : YamlMapping :=
  entries.filter fun entry => eq (.string name) entry.1

/-- At most one entry is under each text. -/
def TextKeysOnce (entries : YamlMapping) : Prop :=
  ∀ name, (keyEntries name entries).length ≤ 1

theorem eq_string_right (value : YamlValue) (s : String) :
    eq value (.string s) = true ↔ value = .string s := by
  cases value with
  | string other => rw [eq, beq_iff_eq, string.injEq]
  | _ => simp [eq]

section Keys

variable {entries : YamlMapping} {name : String}

theorem mem_keyEntries {entry : YamlValue × YamlValue} :
    entry ∈ keyEntries name entries ↔ entry ∈ entries ∧ entry.1 = .string name := by
  rw [keyEntries, List.mem_filter, eq_string]

theorem DistinctKeys.textKeysOnce (h : DistinctKeys entries) : TextKeysOnce entries := by
  intro name
  have hpair := h.filter fun entry => eq (.string name) entry.1
  have hkeys : ∀ entry ∈ keyEntries name entries, entry.1 = .string name := fun entry hmem =>
    (mem_keyEntries.mp hmem).2
  rw [← keyEntries] at hpair
  cases hentries : keyEntries name entries with
  | nil => exact Nat.zero_le 1
  | cons first rest =>
      cases rest with
      | nil => exact Nat.le_refl 1
      | cons second rest =>
          rw [hentries] at hpair hkeys
          have hne := (List.pairwise_cons.mp hpair).1 second List.mem_cons_self
          rw [hkeys first List.mem_cons_self,
            hkeys second (List.mem_cons_of_mem _ List.mem_cons_self)] at hne
          exact absurd ((eq_string_right _ _).mpr rfl) (Bool.eq_false_iff.mp hne)

theorem get_text (name : String) (entries : YamlMapping) :
    get entries (.string name) = (keyEntries name entries).head?.map Prod.snd := by
  rw [get, find?, keyEntries, List.head?_filter]

theorem eq_of_perm {α : Type} {xs ys : List α} (h : xs.Perm ys) (hlength : ys.length ≤ 1) :
    xs = ys := by
  cases ys with
  | nil => exact List.perm_nil.mp h
  | cons y ys =>
      cases ys with
      | nil => exact List.perm_singleton.mp h
      | cons y' ys => exact absurd hlength (by simp)

theorem keyEntries_remove (hlength : (keyEntries name entries).length ≤ 1) (key : YamlValue)
    (hkey : key ≠ .string name) :
    keyEntries name (remove entries key) = keyEntries name entries := by
  cases hfind : find? entries key with
  | none => rw [remove_of_find?_none hfind]
  | some entry =>
      have hmatch : eq key entry.1 = true := by simpa using List.find?_some hfind
      have hother : ¬eq (.string name) entry.1 = true := fun h => by
        rw [(eq_string _ _).mp h, eq_string_right] at hmatch
        exact hkey hmatch
      have hperm := (remove_perm hfind).filter fun entry => eq (.string name) entry.1
      rw [List.filter_cons, if_neg hother] at hperm
      exact eq_of_perm hperm hlength

theorem keyEntries_remove_self (hlength : (keyEntries name entries).length ≤ 1) :
    keyEntries name (remove entries (.string name)) = [] := by
  cases hfind : find? entries (.string name) with
  | none =>
      rw [remove_of_find?_none hfind, keyEntries, List.filter_eq_nil_iff]
      exact List.find?_eq_none.mp hfind
  | some entry =>
      have hmatch : eq (.string name) entry.1 = true := by simpa using List.find?_some hfind
      have hperm := (remove_perm hfind).filter fun entry => eq (.string name) entry.1
      rw [List.filter_cons, if_pos hmatch] at hperm
      have hcount := hperm.length_eq
      rw [← keyEntries, ← keyEntries, List.length_cons] at hcount
      exact List.eq_nil_of_length_eq_zero (by omega)

theorem keyEntries_insertNew (name : String) (entries : YamlMapping) (key value : YamlValue) :
    keyEntries name (insertNew entries key value) =
      keyEntries name entries ++ if eq (.string name) key then [(key, value)] else [] := by
  rw [insertNew, keyEntries, List.filter_append, keyEntries, List.filter_cons, List.filter_nil]

theorem TextKeysOnce.remove (h : TextKeysOnce entries) (key : YamlValue) :
    TextKeysOnce (remove entries key) := by
  intro name
  by_cases hkey : key = .string name
  · subst hkey
    rw [keyEntries_remove_self (h name)]
    exact Nat.zero_le 1
  · rw [keyEntries_remove (h name) key hkey]
    exact h name

/-- A key that is removed and inserted is there once. -/
theorem TextKeysOnce.insertNew (h : TextKeysOnce entries) (key value : YamlValue) :
    TextKeysOnce (insertNew (YamlMapping.remove entries key) key value) := by
  intro name
  rw [keyEntries_insertNew]
  by_cases hkey : key = .string name
  · subst hkey
    rw [keyEntries_remove_self (h name), if_pos ((eq_string_right _ _).mpr rfl)]
    exact Nat.le_refl 1
  · rw [if_neg (mt (eq_string _ _).mp hkey), List.append_nil]
    exact h.remove key name

end Keys

end Log73.YamlMapping
