import Mathlib.Data.List.Basic
import Mathlib.Tactic.Common

/-!
A bounded broadcast channel as one receiver sees it, and what it means that a reader who is
to get its events is told of every gap.
-/

namespace Broadcast

universe u

variable {ε : Type u}

/-- What the channel retains for a receiver, and how many events it lost since it was told. -/
structure Receiver (ε : Type u) where
  retained : List ε := []
  skipped : Nat := 0

inductive Received (ε : Type u) where
  | event (event : ε)
  | lagged (skipped : Nat)

namespace Receiver

variable (receiver : Receiver ε)

/-- A full channel loses its oldest event. -/
def send (capacity : Nat) (event : ε) : Receiver ε :=
  let retained := receiver.retained ++ [event]
  if capacity < retained.length then
    { retained := retained.drop 1, skipped := receiver.skipped + 1 }
  else { receiver with retained := retained }

def recv : Option (Received ε × Receiver ε) :=
  if 0 < receiver.skipped then
    some (.lagged receiver.skipped, { receiver with skipped := 0 })
  else
    match receiver.retained with
    | [] => none
    | event :: retained => some (.event event, { receiver with retained := retained })

/-- The event that the next one pushes out. -/
def oldest (capacity : Nat) : Option ε :=
  if capacity ≤ receiver.retained.length then receiver.retained.head? else none

theorem retained_send {capacity : Nat} (hcapacity : 0 < capacity) (event : ε) :
    (receiver.oldest capacity = none ∧
      (receiver.send capacity event).retained = receiver.retained ++ [event]) ∨
    ∃ lost rest, receiver.oldest capacity = some lost ∧ receiver.retained = lost :: rest ∧
      (receiver.send capacity event).retained = rest ++ [event] := by
  rw [oldest, send, List.length_append, List.length_singleton]
  by_cases hfull : capacity ≤ receiver.retained.length
  · right
    rw [if_pos hfull, if_pos (by omega)]
    cases hretained : receiver.retained with
    | nil =>
        rw [hretained, List.length_nil] at hfull
        omega
    | cons lost rest => exact ⟨lost, rest, rfl, rfl, rfl⟩
  · left
    rw [if_neg hfull, if_neg (by omega)]
    exact ⟨rfl, rfl⟩

/-- Receiving loses nothing that was retained. -/
theorem retained_recv {received : Received ε} {rest : Receiver ε}
    (h : receiver.recv = some (received, rest)) :
    (∃ event, received = .event event ∧ receiver.retained = event :: rest.retained) ∨
      (∃ skipped, received = .lagged skipped ∧ receiver.retained = rest.retained) := by
  rw [recv] at h
  split at h
  · obtain ⟨rfl, rfl⟩ := Prod.mk.inj (Option.some.inj h)
    exact Or.inr ⟨_, rfl, rfl⟩
  · split at h
    · cases h
    · next event retained hretained =>
        obtain ⟨rfl, rfl⟩ := Prod.mk.inj (Option.some.inj h)
        exact Or.inl ⟨event, rfl, hretained⟩

end Receiver

/-- What concerns a reader, in time: an event is sent, comes to the reader, or the reader is told
to read everything again. -/
inductive Item (ε : Type u) where
  | sent (event : ε)
  | taken (event : ε)
  | told
  deriving DecidableEq

section Owes

-- `owed` are the events a reader is to get, `ofStream` those whose order matters.
variable (owed ofStream : ε → Prop)

/-- After a trace, the last item first, these events may still come in this order: what was sent
and neither came, nor is owed no more, nor was sent before the reader was told. -/
inductive Owes : List (Item ε) → List ε → Prop
  | start : Owes [] []
  | sent {trace pending} (event) :
      Owes trace pending → Owes (.sent event :: trace) (pending ++ [event])
  | taken {trace pending event} :
      Owes trace (event :: pending) → Owes (.taken event :: trace) pending
  | other {trace pending event} : ¬ ofStream event → Owes trace pending →
      Owes (.taken event :: trace) pending
  | dropped {trace before pending event} : ¬ owed event → Owes trace (before ++ event :: pending) →
      Owes trace (before ++ pending)
  | told {trace pending kept} :
      kept.Sublist pending → Owes trace pending → Owes (.told :: trace) kept

/-- No event of the stream comes while one before it is owed. -/
def Unbroken (trace : List (Item ε)) : Prop := ∃ pending, Owes owed ofStream trace pending

def sentOwed [DecidablePred owed] : List (Item ε) → List ε
  | [] => []
  | .sent event :: trace => sentOwed trace ++ if owed event then [event] else []
  | _ :: trace => sentOwed trace

def takenOwed [DecidablePred owed] : List (Item ε) → List ε
  | [] => []
  | .taken event :: trace => takenOwed trace ++ if owed event then [event] else []
  | _ :: trace => takenOwed trace

variable {owed ofStream}

theorem Owes.nil {trace : List (Item ε)} {pending : List ε} (h : Owes owed ofStream trace pending)
    (htrace : trace = []) : pending = [] := by
  induction h with
  | start => rfl
  | dropped _ _ ih => simpa using ih htrace
  | sent _ _ _ | taken _ _ | other _ _ _ | told _ _ _ => cases htrace

/-- Where the reader is not told again, what is owed comes in order, with nothing left out. -/
theorem Owes.taken_append [DecidablePred owed] (hstream : ∀ event, owed event → ofStream event)
    {trace : List (Item ε)} {pending : List ε} (h : Owes owed ofStream trace pending)
    {later : List (Item ε)} (htrace : trace = later ++ [.told]) (hlater : Item.told ∉ later) :
    takenOwed owed later ++ pending.filter owed = sentOwed owed later := by
  induction h generalizing later with
  | start => simp at htrace
  | sent event _ ih =>
      cases later with
      | nil => cases htrace
      | cons item later =>
          obtain ⟨rfl, rfl⟩ := List.cons.inj htrace
          have hrest := ih rfl fun hmem => hlater (List.mem_cons_of_mem _ hmem)
          simp only [takenOwed, sentOwed, ← hrest, List.filter_append, List.append_assoc]
          by_cases howed : owed event <;> simp [howed]
  | @taken _ pending event _ ih =>
      cases later with
      | nil => cases htrace
      | cons item later =>
          obtain ⟨rfl, rfl⟩ := List.cons.inj htrace
          have hrest := ih rfl fun hmem => hlater (List.mem_cons_of_mem _ hmem)
          simp only [takenOwed, sentOwed, ← hrest, List.append_assoc]
          by_cases howed : owed event <;> simp [howed]
  | @other _ _ event hother _ ih =>
      cases later with
      | nil => cases htrace
      | cons item later =>
          obtain ⟨rfl, rfl⟩ := List.cons.inj htrace
          have hrest := ih rfl fun hmem => hlater (List.mem_cons_of_mem _ hmem)
          have howed : ¬ owed event := fun howed => hother (hstream event howed)
          simp only [takenOwed, sentOwed, ← hrest, if_neg howed, List.append_nil]
  | dropped howed _ ih =>
      have hrest := ih htrace hlater
      rw [← hrest]
      simp [howed]
  | told hkept howes _ =>
      cases later with
      | nil =>
          obtain ⟨-, rfl⟩ := List.cons.inj htrace
          obtain rfl := howes.nil rfl
          obtain rfl := List.sublist_nil.mp hkept
          rfl
      | cons item later =>
          obtain ⟨rfl, -⟩ := List.cons.inj htrace
          exact absurd List.mem_cons_self hlater

end Owes

end Broadcast
