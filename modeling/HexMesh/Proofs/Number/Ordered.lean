import Mathlib.Algebra.Order.Field.Basic
import Mathlib.Data.Nat.Find
import Mathlib.Order.Compare
import HexMesh.Number.Scalar

/-!
Exact arithmetic: linearly ordered fields as scalars.

The operations are those of the field and the comparisons those of its order, and
every value is finite.  Integers of unbounded size need not exist above a value, as
a field need not be archimedean; within 64 bits they are searched for from above.
-/

namespace HexMesh
namespace Scalar

variable {K : Type} [Field K] [LinearOrder K]

/-- The largest integer of 64 signed bits. -/
def maxInt : Int := 2 ^ 63 - 1

/-- The least integer of 64 signed bits that is not smaller, or the largest one. -/
def ceilingWithin (x : K) : Int :=
  maxInt - Nat.findGreatest (fun n => x ≤ ((maxInt - n : Int) : K)) (2 ^ 64 - 1)

instance (priority := low) ofOrderedField : Scalar K where
  decLt := inferInstance
  decLe := inferInstance
  abs x := |x|
  least := min
  greatest := max
  rank := compare
  isFinite _ := true
  ceiling := ceilingWithin

theorem ceilingWithin_le_maxInt (x : K) : ceilingWithin x ≤ maxInt :=
  Int.sub_le_self _ (Int.natCast_nonneg _)

theorem le_ceilingWithin {x : K} (h : x ≤ (maxInt : K)) : x ≤ (ceilingWithin x : K) := by
  have hzero : x ≤ ((maxInt - (0 : Nat) : Int) : K) := by simpa using h
  exact Nat.findGreatest_spec (P := fun n : Nat => x ≤ ((maxInt - n : Int) : K)) (Nat.zero_le _)
    hzero

theorem rank_isLE {x y : K} : (Scalar.rank x y).isLE = true ↔ x ≤ y :=
  Ordering.isLE_iff_ne_gt.trans compare_le_iff_le

end Scalar
end HexMesh
