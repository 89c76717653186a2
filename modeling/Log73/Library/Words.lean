import Mathlib.Logic.Basic

/-!
Words of a text and lines of a text: the parts between separators. What is written with
separators between its parts is read back as these parts.
-/

namespace Words

variable {α : Type*}

variable (isSep : α → Bool)

/-- The parts between separators that are not empty. -/
def words (text : List α) : List (List α) :=
  (text.splitOnP isSep).filter fun part => !part.isEmpty

/-- A part that is read back as it is. -/
def IsWord (part : List α) : Prop := part ≠ [] ∧ ∀ a ∈ part, isSep a = false

variable {isSep}

theorem not_sep_of_mem_splitOnP {text part : List α} (h : part ∈ text.splitOnP isSep) :
    ∀ a ∈ part, isSep a = false := by
  induction text generalizing part with
  | nil =>
      rw [List.splitOnP_nil, List.mem_singleton] at h
      rw [h]
      intro a ha
      cases ha
  | cons a text ih =>
      rw [List.splitOnP_cons_eq_if_modifyHead] at h
      split at h
      · cases h with
        | head =>
            intro b hb
            cases hb
        | tail _ hmem => exact ih hmem
      · next ha =>
          cases hparts : text.splitOnP isSep with
          | nil =>
              rw [hparts] at h
              cases h
          | cons first parts =>
              rw [hparts] at h ih
              cases h with
              | head =>
                  intro b hb
                  cases hb with
                  | head => exact Bool.eq_false_iff.mpr ha
                  | tail _ hmem => exact ih List.mem_cons_self b hmem
              | tail _ hmem => exact ih (List.mem_cons_of_mem first hmem)

theorem mem_of_mem_splitOnP {text part : List α} (h : part ∈ text.splitOnP isSep) {a : α}
    (ha : a ∈ part) : a ∈ text := by
  induction text generalizing part with
  | nil =>
      rw [List.splitOnP_nil, List.mem_singleton] at h
      rw [h] at ha
      cases ha
  | cons b text ih =>
      rw [List.splitOnP_cons_eq_if_modifyHead] at h
      split at h
      · cases h with
        | head => cases ha
        | tail _ hmem => exact List.mem_cons_of_mem b (ih hmem ha)
      · cases hparts : text.splitOnP isSep with
        | nil =>
            rw [hparts] at h
            cases h
        | cons first parts =>
            rw [hparts, List.modifyHead_cons] at h
            rw [hparts] at ih
            cases h with
            | head =>
                cases ha with
                | head => exact List.mem_cons_self
                | tail _ hmem => exact List.mem_cons_of_mem b (ih List.mem_cons_self hmem)
            | tail _ hmem =>
                exact List.mem_cons_of_mem b (ih (List.mem_cons_of_mem first hmem) ha)

/-- What is no separator stands in one of the parts. -/
theorem exists_mem_splitOnP {text : List α} {a : α} (ha : a ∈ text) (hsep : isSep a = false) :
    ∃ part ∈ text.splitOnP isSep, a ∈ part := by
  induction text with
  | nil => cases ha
  | cons b text ih =>
      rw [List.splitOnP_cons_eq_if_modifyHead]
      by_cases hb : isSep b = true
      · rw [if_pos hb]
        cases ha with
        | head => exact absurd hb (Bool.eq_false_iff.mp hsep)
        | tail _ hmem =>
            obtain ⟨part, hpart, hin⟩ := ih hmem
            exact ⟨part, List.mem_cons_of_mem _ hpart, hin⟩
      · rw [if_neg hb]
        cases hparts : text.splitOnP isSep with
        | nil => exact absurd hparts (List.splitOnP_ne_nil isSep text)
        | cons first parts =>
            rw [List.modifyHead_cons]
            cases ha with
            | head => exact ⟨_, List.mem_cons_self, List.mem_cons_self⟩
            | tail _ hmem =>
                obtain ⟨part, hpart, hin⟩ := ih hmem
                rw [hparts] at hpart
                cases hpart with
                | head => exact ⟨_, List.mem_cons_self, List.mem_cons_of_mem _ hin⟩
                | tail _ hpart => exact ⟨part, List.mem_cons_of_mem _ hpart, hin⟩

theorem words_eq_nil {text : List α} (h : words isSep text = []) : ∀ a ∈ text, isSep a = true := by
  intro a ha
  apply Bool.not_eq_false _ |>.mp
  intro hsep
  obtain ⟨part, hpart, hin⟩ := exists_mem_splitOnP ha hsep
  have hempty := List.filter_eq_nil_iff.mp h part hpart
  cases part with
  | nil => cases hin
  | cons _ _ => exact hempty rfl

theorem isWord_of_mem_words {text part : List α} (h : part ∈ words isSep text) :
    IsWord isSep part := by
  obtain ⟨hmem, hpart⟩ := List.mem_filter.mp h
  exact ⟨by simpa using hpart, not_sep_of_mem_splitOnP hmem⟩

theorem words_cons_sep {sep : α} (hsep : isSep sep = true) (text : List α) :
    words isSep (sep :: text) = words isSep text := by
  rw [words, List.splitOnP_cons_eq_if_modifyHead, if_pos hsep]
  rfl

theorem words_word {part : List α} (h : IsWord isSep part) : words isSep part = [part] := by
  have hsplit : part.splitOnP isSep = [part] :=
    List.splitOnP_eq_singleton h.2
  have hne : part.isEmpty = false := by simpa using h.1
  rw [words, hsplit, List.filter_cons, hne]
  rfl

theorem words_word_append {part : List α} (h : IsWord isSep part) {sep : α}
    (hsep : isSep sep = true) (text : List α) :
    words isSep (part ++ sep :: text) = part :: words isSep text := by
  have hsplit := List.splitOnP_append_cons_of_forall_mem h.2 sep hsep text
  have hne : part.isEmpty = false := by simpa using h.1
  rw [words, hsplit, List.filter_cons, hne]
  rfl

/-- Words that are written with one separator between them are read back. -/
theorem words_intercalate {sep : α} (hsep : isSep sep = true) {parts : List (List α)}
    (h : ∀ part ∈ parts, IsWord isSep part) (back : List α) (hback : back.all isSep = true) :
    words isSep ([sep].intercalate parts ++ back) = parts := by
  have hnone : ∀ back : List α, back.all isSep = true → words isSep back = [] := by
    intro back hback
    induction back with
    | nil => rfl
    | cons a back ih =>
        rw [List.all_cons, Bool.and_eq_true] at hback
        rw [words_cons_sep hback.1, ih hback.2]
  induction parts with
  | nil => exact hnone back hback
  | cons part parts ih =>
      have hpart := h part List.mem_cons_self
      have hparts := ih fun part hmem => h part (List.mem_cons_of_mem _ hmem)
      cases parts with
      | nil =>
          rw [List.intercalate_singleton]
          cases back with
          | nil => rw [List.append_nil, words_word hpart]
          | cons a back =>
              rw [List.all_cons, Bool.and_eq_true] at hback
              rw [words_word_append hpart hback.1, hnone back hback.2]
      | cons next parts =>
          rw [List.intercalate_cons_cons, List.append_assoc, List.append_assoc,
            List.singleton_append, words_word_append hpart hsep, hparts]

section Lines

variable [BEq α] [LawfulBEq α]

/-- A text made of parts that each end in the separator is split part by part. -/
theorem splitOn_flatMap_append (sep : α) (parts : List (List α)) :
    (parts.flatMap fun part => part ++ [sep]).splitOn sep =
      parts.flatMap (fun part => part.splitOn sep) ++ [[]] := by
  induction parts with
  | nil => rfl
  | cons part parts ih =>
      rw [List.flatMap_cons, List.append_assoc, List.singleton_append,
        List.splitOn_append_cons_self, ih, List.flatMap_cons, List.append_assoc]

end Lines

end Words
