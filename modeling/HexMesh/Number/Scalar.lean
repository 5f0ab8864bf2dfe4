/-!
The arithmetic that coordinates are computed with.

Everything geometric in this library is written once, over an arbitrary type of
scalars.  No law is asked for: binary64 numbers are an instance although their
addition is not associative, and the rationals and the reals are instances in
which the operations are those of an ordered field.  A statement about every
`Scalar` is therefore a statement about the order of the operations, and a
statement about a field is one about exact geometry.
-/

namespace HexMesh

/-- Coordinate arithmetic.  The four operations, casts of natural numbers and the
three comparisons come from their usual classes, so that `x + y`, `x < y` and
`x == y` mean what they mean everywhere else. -/
class Scalar (K : Type) extends Add K, Sub K, Mul K, Div K, Neg K, NatCast K,
    LT K, LE K, BEq K where
  decLt : DecidableLT K
  decLe : DecidableLE K
  /-- The absolute value. -/
  abs : K → K
  /-- The smaller of two scalars.  A value that is not a number loses to any number. -/
  least : K → K → K
  /-- The larger of two scalars.  A value that is not a number loses to any number. -/
  greatest : K → K → K
  /-- A comparison under which any two values can be ordered, infinite ones and those
  that are not numbers included.  On numbers it agrees with `<`. -/
  rank : K → K → Ordering
  /-- Neither infinite nor undefined. -/
  isFinite : K → Bool
  /-- The least integer that is not smaller, kept within 64 signed bits. -/
  ceiling : K → Int

attribute [reducible, instance] Scalar.decLt Scalar.decLe

/-- Square roots.  They are kept apart from `Scalar` because exact fields need not
have them; whatever asks for a length asks for this class too. -/
class SquareRoot (K : Type) where
  sqrt : K → K

/-- The functions that turn angles and gradings into coordinates. -/
class Transcendental (K : Type) where
  sin : K → K
  cos : K → K
  /-- The hyperbolic tangent. -/
  tanh : K → K
  /-- The angle of the point `(x, y)` seen from the origin; the ordinate comes first. -/
  atan2 : K → K → K
  /-- Half a full turn. -/
  pi : K

namespace Scalar

variable {K : Type} [Scalar K]

/-- The fraction `n / d`. -/
def ratio (n d : Nat) : K := (n : K) / (d : K)

/-- The sum of a list, added from left to right to a negative zero.  A negative zero is
the one start that changes no summand, not even another negative zero. -/
def sum (xs : List K) : K := xs.foldl (· + ·) (-((0 : Nat) : K))

/-- The relative spacing of binary64 numbers near one, `2 ^ (-52)`. -/
def epsilon : K := ratio 1 (Nat.pow 2 52)

/-- The largest finite binary64 number. -/
def largest : K := (((Nat.pow 2 53 - 1) * Nat.pow 2 971 : Nat) : K)

end Scalar
end HexMesh
