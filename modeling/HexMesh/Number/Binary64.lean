import HexMesh.Number.Decimal
import HexMesh.Number.Scalar

/-!
Binary64 numbers as scalars.

The operations are those of the machine.  Writing a number is exact: the bits
are taken apart into an integer times a power of two, and every decision about
decimal digits is made in natural-number arithmetic.
-/

namespace HexMesh

/-- `num / den` rounded to the nearest natural number, a tie to the even one. -/
def roundHalfEven (num den : Nat) : Nat :=
  let q := num / den
  let twice := 2 * (num % den)
  if twice < den then q
  else if twice = den then q + q % 2
  else q + 1

namespace Binary64

/-- The value of a 64-bit pattern.  `finite negative m q` is `± m · 2 ^ q`. -/
inductive Value where
  | undefined
  | infinite (negative : Bool)
  | finite (negative : Bool) (m : Nat) (q : Int)
  deriving DecidableEq, Repr

/-- Eleven bits of exponent, none of them set for a number below the normal range and all
of them set for what is no finite number, stand above fifty-two bits of fraction. -/
def decode (bits : UInt64) : Value :=
  let negative := Nat.pow 2 63 ≤ bits.toNat
  let exponent : Nat := bits.toNat / Nat.pow 2 52 % Nat.pow 2 11
  let fraction : Nat := bits.toNat % Nat.pow 2 52
  if exponent = 2047 then
    if fraction = 0 then .infinite negative else .undefined
  else if exponent = 0 then .finite negative fraction (-1074)
  else .finite negative (Nat.pow 2 52 + fraction) (exponent - 1075)

/-! ## The fewest digits that read back -/

/-- The multiple of `10 ^ g` that lies nearest to `m · 2 ^ q` among the two around it, if
it reads back as that number.

A decimal reads back when it lies in the interval that reaches half way to the next
number on both sides; the ends belong to it when `m` is even.  The next number below a
power of two is only half as far away.  All three points are counted in quarters of
`2 ^ q`, and `u` and `t` carry quarters and multiples of `10 ^ g` to a common unit.  Of
two decimals that are equally near, the larger is taken. -/
def onGrid? (m : Nat) (q g : Int) : Option Nat :=
  let u := Nat.pow 2 (q - 2).toNat * Nat.pow 10 (-g).toNat
  let t := Nat.pow 10 g.toNat * Nat.pow 2 (2 - q).toNat
  let value := 4 * m * u
  let low := (if m = Nat.pow 2 52 ∧ -1074 < q then 4 * m - 1 else 4 * m - 2) * u
  let high := (4 * m + 2) * u
  let inside (c : Nat) : Bool :=
    if m % 2 = 0 then low ≤ c * t && c * t ≤ high else low < c * t && c * t < high
  let c := value / t
  match inside c, inside (c + 1) with
  | true, true => if value - c * t < (c + 1) * t - value then some c else some (c + 1)
  | true, false => some c
  | false, true => some (c + 1)
  | false, false => none

/-- A power of ten above `m · 2 ^ q`, by its exponent. -/
def decimalTop (m : Nat) (q : Int) : Int := (m.log2 + 1 + q) * 30103 / 100000 + 2

/-- The shortest numeral of `m · 2 ^ q`, as digits and an exponent.  The coarsest decimal
grid with a point that reads back has the fewest digits; seventeen digits always suffice,
and the exact expansion stands behind them. -/
def shortestDigits (m : Nat) (q : Int) : Nat × Int :=
  if m = 0 then (0, 0) else
  let top := decimalTop m q
  let grids := (List.range 22).map fun (i : Nat) => top - (i : Int)
  match grids.findSome? fun g => (onGrid? m q g).map fun c => (c, g) with
  | some found => found
  | none => (m * Nat.pow 5 (-q).toNat * Nat.pow 2 q.toNat, -((-q).toNat : Int))

def shortest (x : Float) : Decimal :=
  match decode x.toBits with
  | .undefined => .undefined
  | .infinite negative => .infinite negative
  | .finite negative m q =>
    let (digits, exponent) := shortestDigits m q
    .finite negative digits exponent

/-! ## A fixed number of places -/

def rounded (places : Nat) (x : Float) : Decimal :=
  match decode x.toBits with
  | .undefined => .undefined
  | .infinite negative => .infinite negative
  | .finite negative m q =>
    let scaled := m * Nat.pow 10 places * Nat.pow 2 q.toNat
    .finite negative (roundHalfEven scaled (Nat.pow 2 (-q).toNat)) (-(places : Int))

/-! ## Reading -/

/-- The number nearest to `digits · 10 ^ exponent`.  Beyond the range of exponents tested
here every number is out of range or rounds to zero, so that no larger power of ten is
ever computed. -/
def nearest (digits : Nat) (exponent : Int) : Float :=
  let size : Int := (Nat.toDigits 10 digits).length + exponent
  if digits = 0 ∨ size < -330 then 0.0
  else if 310 < size then 1.0 / 0.0
  else Float.ofScientific digits (exponent < 0) exponent.natAbs

def ofDecimal : Decimal → Float
  | .undefined => 0.0 / 0.0
  | .infinite negative => if negative then -1.0 / 0.0 else 1.0 / 0.0
  | .finite negative digits exponent =>
    if negative then -nearest digits exponent else nearest digits exponent

/-! ## The instances -/

/-- A place in the order of all values: the pattern of a positive value as it is, and that
of a negative one counted downwards from zero. -/
def place (x : Float) : Int :=
  let bits := x.toBits.toNat
  if bits < Nat.pow 2 63 then bits else (Nat.pow 2 63 : Int) - 1 - (bits : Int)

/-- The number kept when two are compared; one that is undefined yields to the other. -/
def choose (first : Float → Float → Bool) (x y : Float) : Float :=
  if x.isNaN then y else if y.isNaN then x else if first x y then x else y

end Binary64

open Binary64

instance instNatCastFloat : NatCast Float := ⟨Float.ofNat⟩

instance : Scalar Float where
  decLt := inferInstance
  decLe := inferInstance
  abs := Float.abs
  least := choose fun x y => x ≤ y
  greatest := choose fun x y => y ≤ x
  rank x y := compare (place x) (place y)
  isFinite := Float.isFinite
  ceiling x := x.ceil.toInt64.toInt

instance : SquareRoot Float := ⟨Float.sqrt⟩

instance : Transcendental Float where
  sin := Float.sin
  cos := Float.cos
  tanh := Float.tanh
  atan2 := Float.atan2
  pi := 3.141592653589793

instance : Numeral Float where
  ofDecimal? d := some (ofDecimal d)
  shortest := shortest
  rounded := rounded

end HexMesh
