import Mathlib.Data.List.Chain
import Mathlib.Logic.Function.Basic

/-!
Histories and what they say about the present. A replica of a keyed store that takes in the
numbered changes in their order holds the same as the store. Those who knew a value once and are
told of every change since know it now. What was done since something else, and what is done only
where what came before justifies it.
-/

namespace Replica

universe u v

variable {κ : Type u} {ν : Type v} [DecidableEq κ]

inductive Change (κ : Type u) (ν : Type v) where
  | put (key : κ) (value : ν)
  | drop (key : κ)
  | keep

def Change.apply (view : κ → Option ν) : Change κ ν → κ → Option ν
  | .put key value => Function.update view key (some value)
  | .drop key => Function.update view key none
  | .keep => view

/-- What a store that was empty at first holds after some of its changes. -/
def viewAt (history : List (Change κ ν)) (count : Nat) : κ → Option ν :=
  (history.take count).foldl Change.apply fun _ => none

/-- Later changes do not alter what was held before them. -/
theorem viewAt_append {history : List (Change κ ν)} {count : Nat} (h : count ≤ history.length)
    (later : List (Change κ ν)) : viewAt (history ++ later) count = viewAt history count := by
  rw [viewAt, viewAt, List.take_append_of_le_length h]

theorem viewAt_succ {history : List (Change κ ν)} {count : Nat} {change : Change κ ν}
    (h : history[count]? = some change) :
    viewAt history (count + 1) = change.apply (viewAt history count) := by
  obtain ⟨hlt, rfl⟩ := List.getElem?_eq_some_iff.mp h
  rw [viewAt, List.take_succ_eq_append_getElem hlt, List.foldl_append]
  rfl

theorem viewAt_concat (history : List (Change κ ν)) (change : Change κ ν) :
    viewAt (history ++ [change]) (history ++ [change]).length =
      change.apply (viewAt history history.length) := by
  rw [List.length_append, List.length_singleton, viewAt_succ (List.getElem?_concat_length ..),
    viewAt_append (Nat.le_refl _)]

/-- A change of another entry is not seen. -/
theorem Change.apply_put_self (view : κ → Option ν) (key : κ) (value : ν) :
    (Change.put key value).apply view key = some value := Function.update_self ..

theorem Change.apply_put_of_ne (view : κ → Option ν) {key other : κ} (value : ν)
    (h : other ≠ key) : (Change.put key value).apply view other = view other :=
  Function.update_of_ne h ..

theorem Change.apply_drop_self (view : κ → Option ν) (key : κ) :
    (Change.drop key : Change κ ν).apply view key = none := Function.update_self ..

theorem Change.apply_drop_of_ne (view : κ → Option ν) {key other : κ} (h : other ≠ key) :
    (Change.drop key : Change κ ν).apply view other = view other :=
  Function.update_of_ne h ..

end Replica

namespace Following

universe u

variable {α : Type u}

/-- Who knew `before` is told of changes, none of them of a value that they know already, and
knows the last one. -/
inductive Follows (before : α) : List α → α → Prop
  | start : Follows before [] before
  | told {changes : List α} {value : α} (next : α) :
      Follows before changes value → next ≠ value → Follows before (changes ++ [next]) next

theorem Follows.one {before next : α} (h : next ≠ before) : Follows before [next] next :=
  .told next .start h

theorem Follows.trans {before middle after : α} {earlier later : List α}
    (h : Follows before earlier middle) (hlater : Follows middle later after) :
    Follows before (earlier ++ later) after := by
  induction hlater with
  | start => exact (List.append_nil earlier).symm ▸ h
  | told next _ hne ih => exact List.append_assoc .. ▸ ih.told next hne

theorem Follows.getLastD_eq {before after : α} {changes : List α}
    (h : Follows before changes after) : changes.getLastD before = after := by
  cases h with
  | start => rfl
  | told _ _ => exact List.getLastD_concat ..

/-- No change is told twice in a row. -/
theorem Follows.isChain {before after : α} {changes : List α} (h : Follows before changes after) :
    (before :: changes).IsChain (· ≠ ·) := by
  induction h with
  | start => exact List.IsChain.singleton _
  | @told changes value next hfollows hne ih =>
      have hlast := hfollows.getLastD_eq
      rw [← List.cons_append]
      refine ih.append (List.IsChain.singleton _) fun last hmem first hfirst => ?_
      rw [List.head?_cons, Option.mem_some] at hfirst
      rw [List.getLast?_cons, Option.mem_some, List.getLastD_eq_getLast?.symm, hlast] at hmem
      exact fun heq => hne (hfirst.trans (heq.symm.trans hmem.symm))

end Following

namespace Histories

universe u

variable {α : Type u} {history later : List α} {entry : α}

/-- Something that is looked for stands in the history, and nothing behind it undoes it. -/
def Since (wanted undoes : α → Prop) (history : List α) : Prop :=
  ∃ earlier entry later,
    history = earlier ++ entry :: later ∧ wanted entry ∧ ∀ e ∈ later, ¬undoes e

/-- What stands in the history is justified by what stands before it. -/
def Justified (justifies : List α → α → Prop) (history : List α) : Prop :=
  ∀ earlier entry later, history = earlier ++ entry :: later → justifies earlier entry

/-- The history goes on with such entries. -/
def GrowsBy (allowed : α → Prop) (before after : List α) : Prop :=
  ∃ later, after = before ++ later ∧ ∀ e ∈ later, allowed e

section GrowsBy

variable {allowed : α → Prop} {first second third : List α}

theorem growsBy_self : GrowsBy allowed history history :=
  ⟨[], (List.append_nil _).symm, fun _ hmem => (List.not_mem_nil hmem).elim⟩

theorem growsBy_concat (h : allowed entry) : GrowsBy allowed history (history ++ [entry]) :=
  ⟨[entry], rfl, List.forall_mem_singleton.mpr h⟩

theorem GrowsBy.trans (h : GrowsBy allowed first second) (h' : GrowsBy allowed second third) :
    GrowsBy allowed first third := by
  obtain ⟨between, rfl, hbetween⟩ := h
  obtain ⟨later, rfl, hlater⟩ := h'
  exact ⟨between ++ later, List.append_assoc _ _ _, List.forall_mem_append.mpr ⟨hbetween, hlater⟩⟩

theorem GrowsBy.mono {allowed' : α → Prop} (h : GrowsBy allowed first second)
    (hallowed : ∀ e, allowed e → allowed' e) : GrowsBy allowed' first second := by
  obtain ⟨later, heq, hlater⟩ := h
  exact ⟨later, heq, fun e hmem => hallowed e (hlater e hmem)⟩

end GrowsBy

section Since

variable {wanted undoes : α → Prop}

theorem since_concat (h : wanted entry) : Since wanted undoes (history ++ [entry]) :=
  ⟨history, entry, [], rfl, h, fun _ hmem => (List.not_mem_nil hmem).elim⟩

theorem Since.append (h : Since wanted undoes history) (hlater : ∀ e ∈ later, ¬undoes e) :
    Since wanted undoes (history ++ later) := by
  obtain ⟨earlier, entry, between, rfl, hwanted, hbetween⟩ := h
  refine ⟨earlier, entry, between ++ later, ?_, hwanted, ?_⟩
  · rw [List.append_assoc, List.cons_append]
  · exact List.forall_mem_append.mpr ⟨hbetween, hlater⟩

theorem Since.concat (h : Since wanted undoes history) (hentry : ¬undoes entry) :
    Since wanted undoes (history ++ [entry]) :=
  h.append (List.forall_mem_singleton.mpr hentry)

theorem Since.grow {after : List α} (h : Since wanted undoes history)
    (hgrows : GrowsBy (¬undoes ·) history after) : Since wanted undoes after := by
  obtain ⟨later, rfl, hlater⟩ := hgrows
  exact h.append hlater

end Since

section Justified

variable {justifies : List α → α → Prop}

theorem justified_nil : Justified justifies [] := by
  intro earlier entry later h
  cases earlier <;> cases h

theorem Justified.concat (h : Justified justifies history) (hentry : justifies history entry) :
    Justified justifies (history ++ [entry]) := by
  intro earlier other later heq
  cases List.eq_nil_or_concat later with
  | inl hnil =>
      subst hnil
      obtain ⟨rfl, hsingle⟩ := List.append_inj' heq rfl
      cases hsingle
      exact hentry
  | inr hconcat =>
      obtain ⟨front, last, rfl⟩ := hconcat
      rw [List.concat_eq_append, ← List.cons_append, ← List.append_assoc] at heq
      exact h earlier other front (List.append_inj' heq rfl).1

end Justified

end Histories
