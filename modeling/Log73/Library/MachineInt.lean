import Mathlib.Algebra.BigOperators.Group.List.Basic
import Mathlib.Tactic.Abel

/-!
The 64-bit machine integers as an additive group, so that sums of them may be
reordered and regrouped whatever wraps around.
-/

instance instAddCommGroupInt64 : AddCommGroup Int64 where
  add_assoc := Int64.add_assoc
  zero_add := Int64.zero_add
  add_zero := Int64.add_zero
  nsmul := nsmulRec
  zsmul := zsmulRec
  neg_add_cancel := Int64.add_left_neg
  add_comm := Int64.add_comm
  sub_eq_add_neg := Int64.sub_eq_add_neg

namespace MachineInt

variable {α : Type*}

theorem ofNat_succ (n : Nat) : Int64.ofNat (n + 1) = Int64.ofNat n + 1 := Int64.ofNat_add n 1

end MachineInt
