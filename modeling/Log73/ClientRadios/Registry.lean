import Mathlib.Logic.Function.Basic
import Log73.Library.TreeMap

/-!
The leases of client radios (`client_radios.rs`). Instants are nanoseconds; the id that is drawn
for a lease comes with the call, and so does the time at which the lock is held.
-/

namespace Log73.ClientRadios

open Std (ExtTreeMap)

def leaseTimeout : Nat := 30 * 1000000000

structure ClientRadioLease where
  clientInstanceId : String
  leaseId : String
  deadline : Nat
  deriving DecidableEq

inductive LeaseError where
  | stale
  deriving DecidableEq

abbrev ClientRadioRegistry := ExtTreeMap Int64 ClientRadioLease

namespace ClientRadioRegistry

variable (leases : ClientRadioRegistry) (now : Nat) (radioId : Int64)
  (clientInstanceId leaseId : String)

/-- A client instance has its new lease only. -/
def register : ClientRadioRegistry :=
  (leases.filter fun _ lease => lease.clientInstanceId ≠ clientInstanceId).insert radioId
    { clientInstanceId := clientInstanceId, leaseId := leaseId, deadline := now + leaseTimeout }

/-- What only the holder of the radio's lease is granted. -/
def onLease (granted : ClientRadioLease → ClientRadioRegistry) :
    ClientRadioRegistry × Except LeaseError Unit :=
  match leases[radioId]? with
  | none => (leases, .error .stale)
  | some lease =>
      if lease.deadline ≤ now then (leases.erase radioId, .error .stale)
      else if lease.clientInstanceId ≠ clientInstanceId ∨ lease.leaseId ≠ leaseId then
        (leases, .error .stale)
      else (granted lease, .ok ())

def heartbeat : ClientRadioRegistry × Except LeaseError Unit :=
  leases.onLease now radioId clientInstanceId leaseId fun lease =>
    leases.insert radioId { lease with deadline := now + leaseTimeout }

def offline : ClientRadioRegistry × Except LeaseError Unit :=
  leases.onLease now radioId clientInstanceId leaseId fun _ => leases.erase radioId

def isOnline : ClientRadioRegistry × Bool :=
  match leases[radioId]? with
  | some lease => if now < lease.deadline then (leases, true) else (leases.erase radioId, false)
  | none => (leases, false)

/-- The radios whose leases are over. -/
def expire : ClientRadioRegistry × List Int64 :=
  let expired := leases.toList.filterMap fun entry =>
    if entry.2.deadline ≤ now then some entry.1 else none
  (expired.foldl ExtTreeMap.erase leases, expired)

end ClientRadioRegistry

inductive LeaseCall where
  | register (radioId : Int64) (clientInstanceId leaseId : String)
  | heartbeat (radioId : Int64) (clientInstanceId leaseId : String)
  | offline (radioId : Int64) (clientInstanceId leaseId : String)
  | isOnline (radioId : Int64)
  | expire

inductive LeaseAnswer where
  | lease (leaseId : String)
  | result (result : Except LeaseError Unit)
  | online (online : Bool)
  | expired (radioIds : List Int64)

namespace ClientRadioRegistry

variable (leases : ClientRadioRegistry) (now : Nat)

def handle : LeaseCall → ClientRadioRegistry × LeaseAnswer
  | .register radioId clientInstanceId leaseId =>
      (leases.register now radioId clientInstanceId leaseId, .lease leaseId)
  | .heartbeat radioId clientInstanceId leaseId =>
      let result := leases.heartbeat now radioId clientInstanceId leaseId
      (result.1, .result result.2)
  | .offline radioId clientInstanceId leaseId =>
      let result := leases.offline now radioId clientInstanceId leaseId
      (result.1, .result result.2)
  | .isOnline radioId =>
      let result := leases.isOnline now radioId
      (result.1, .online result.2)
  | .expire =>
      let result := leases.expire now
      (result.1, .expired result.2)

/-- The leases after calls, each at its time. -/
def run (calls : List (Nat × LeaseCall)) : ClientRadioRegistry :=
  calls.foldl (fun leases call => (leases.handle call.1 call.2).1) leases

end ClientRadioRegistry

/-! What the registry is for: the lease each radio was given last, until it is taken back. -/

abbrev LeaseBook := Int64 → Option ClientRadioLease

namespace LeaseBook

variable (book : LeaseBook) (now : Nat)

/-- The lease of a radio that is not over. -/
def current (radioId : Int64) : Option ClientRadioLease := (book radioId).filter (now < ·.deadline)

/-- The radio's current lease is the one that is named. -/
def Names (radioId : Int64) (clientInstanceId leaseId : String) : Prop :=
  ∃ deadline, book.current now radioId =
    some { clientInstanceId := clientInstanceId, leaseId := leaseId, deadline := deadline }

/-- A lease under the id is current. -/
def Holds (leaseId : String) : Prop :=
  ∃ radioId clientInstanceId, book.Names now radioId clientInstanceId leaseId

instance (radioId : Int64) (clientInstanceId leaseId : String) :
    Decidable (book.Names now radioId clientInstanceId leaseId) :=
  decidable_of_iff ((book.current now radioId).any fun lease =>
      lease.clientInstanceId = clientInstanceId && lease.leaseId = leaseId) <| by
    cases hlease : book.current now radioId with
    | none => simp [Names, hlease]
    | some lease =>
        obtain ⟨client, id, deadline⟩ := lease
        simp [Names, hlease]

/-- A lease is given, prolonged or taken back. -/
def enter : LeaseCall → LeaseBook
  | .register radioId clientInstanceId leaseId =>
      Function.update (fun other => (book other).filter (·.clientInstanceId ≠ clientInstanceId))
        radioId (some ⟨clientInstanceId, leaseId, now + leaseTimeout⟩)
  | .heartbeat radioId clientInstanceId leaseId =>
      if book.Names now radioId clientInstanceId leaseId then
        Function.update book radioId (some ⟨clientInstanceId, leaseId, now + leaseTimeout⟩)
      else book
  | .offline radioId clientInstanceId leaseId =>
      if book.Names now radioId clientInstanceId leaseId then Function.update book radioId none
      else book
  | .isOnline _ => book
  | .expire => book

/-- The book after calls, each at its time. -/
def after (calls : List (Nat × LeaseCall)) : LeaseBook :=
  calls.foldl (fun book call => book.enter call.1 call.2) fun _ => none

end LeaseBook

end Log73.ClientRadios
