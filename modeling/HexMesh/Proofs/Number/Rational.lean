import HexMesh.Number.Binary64
import HexMesh.Proofs.Number.Ordered
import Mathlib.Algebra.Field.Rat
import Mathlib.Algebra.Order.Ring.Rat
import Mathlib.Data.Rat.Sqrt

/-!
Exact reading and writing: the numerals of rational numbers.

A decimal fraction is read without rounding, so that what a file says can be computed with
as it stands.  A number whose expansion does not end has no numeral.
-/

namespace HexMesh
namespace Rational

/-- The number `± digits · 10 ^ exponent`. -/
def ofDigits (negative : Bool) (digits : Nat) (exponent : Int) : ℚ :=
  let whole : Int := digits * 10 ^ exponent.toNat
  mkRat (if negative then -whole else whole) (10 ^ (-exponent).toNat)

/-- The least number of places after the point that tell a number. -/
def places? (x : ℚ) : Option Nat := (List.range x.den).find? fun k => 10 ^ k % x.den = 0

def shortest (x : ℚ) : Decimal :=
  match places? x with
  | some k => .finite (x < 0) (x.num.natAbs * (10 ^ k / x.den)) (-(k : Int))
  | none => .undefined

instance : Numeral ℚ where
  ofDecimal?
    | .finite negative digits exponent => some (ofDigits negative digits exponent)
    | .infinite _ | .undefined => none
  shortest := shortest
  rounded places x := .finite (x < 0) (roundHalfEven (x.num.natAbs * 10 ^ places) x.den) (-places)

/-! ## Lengths -/

/-- The root of the numerator over that of the denominator, both rounded down.  Lengths that
are rational are right. -/
instance : SquareRoot ℚ := ⟨Rat.sqrt⟩

end Rational
end HexMesh
