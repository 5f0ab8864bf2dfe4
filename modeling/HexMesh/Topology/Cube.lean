/-!
The unit cube in `d` dimensions: its corners, its faces, its edges, and the
lattice that halves every axis.

A corner is numbered by its coordinates: bit `a` of the number is set when the
corner lies on the high side along axis `a`.  Face `2 a` holds the corners whose
bit `a` is clear and face `2 a + 1` those whose bit `a` is set.  Every table
below is a filter or an enumeration over these bits, so that it is right in any
dimension.
-/

namespace HexMesh
namespace Cube

/-- How many corners a cube has, `2 ^ d`. -/
abbrev cornerCount (d : Nat) : Nat := Nat.pow 2 d

/-- How many faces a cube has. -/
def faceCount (d : Nat) : Nat := 2 * d

/-- A corner, by its number. -/
abbrev Corner (d : Nat) := Fin (cornerCount d)

namespace Corner

variable {d : Nat}

/-- The corner with the smallest coordinates. -/
def low (d : Nat) : Corner d := ⟨0, Nat.two_pow_pos d⟩

/-- Whether the corner lies on the high side along an axis. -/
def high (v : Corner d) (axis : Nat) : Bool := v.val.testBit axis

/-- The same corner moved to the high side along an axis. -/
def raise (v : Corner d) (axis : Fin d) : Corner d :=
  ⟨v.val ||| Nat.pow 2 axis.val,
    Nat.or_lt_two_pow v.isLt (Nat.pow_lt_pow_right (by decide) axis.isLt)⟩

/-- The corner straight across along the last axis, half of all corners away. -/
def across (v : Corner d) : Corner d :=
  ⟨(v.val + cornerCount d / 2) % cornerCount d, Nat.mod_lt _ (Nat.two_pow_pos d)⟩

end Corner

/-- All corners in ascending order. -/
def corners (d : Nat) : List (Corner d) := List.finRange (cornerCount d)

/-- Whether a corner lies on a face. -/
def onFace {d : Nat} (face : Nat) (v : Corner d) : Bool := v.high (face / 2) == (face % 2 == 1)

/-- The corners of a face in ascending order. -/
def faceCorners (d face : Nat) : List (Corner d) := (corners d).filter (onFace face)

theorem mem_corners {d : Nat} (v : Corner d) : v ∈ corners d := List.mem_finRange v

theorem mem_faceCorners {d face : Nat} {v : Corner d} :
    v ∈ faceCorners d face ↔ onFace face v = true := by
  rw [faceCorners, List.mem_filter, and_iff_right (mem_corners v)]

/-- The edges, as pairs of corners that differ along one axis, the low one first. -/
def edges (d : Nat) : List (Corner d × Corner d) :=
  (corners d).flatMap fun v =>
    ((List.finRange d).filter fun a => !v.high a).map fun a => (v, v.raise a)

/-! ## The halving lattice

A point of the lattice has three places to be along each axis: the low side, the
middle and the high side.  The digits of its number in base three say which. -/

/-- How many points the lattice has, `3 ^ d`. -/
def latticeCount (d : Nat) : Nat := Nat.pow 3 d

/-- Where a lattice point lies along an axis: `0` low, `1` in the middle, `2` high. -/
def latticeDigit (point axis : Nat) : Nat := point / Nat.pow 3 axis % 3

/-- Whether a corner belongs to the smallest piece of the cube, be it a corner, an edge, a
face or the cube itself, in whose middle the lattice point lies. -/
def supports {d : Nat} (point : Nat) (v : Corner d) : Bool :=
  (List.finRange d).all fun a =>
    match latticeDigit point a with
    | 0 => !v.high a
    | 2 => v.high a
    | _ => true

/-- The corners of the piece in whose middle a lattice point lies. -/
def latticeCorners (d point : Nat) : List (Corner d) := (corners d).filter (supports point)

/-- Whether a lattice point lies on a face. -/
def latticeOnFace (face point : Nat) : Bool := latticeDigit point (face / 2) == 2 * (face % 2)

/-- The lattice point at which a child's corner lies.  Child and corner each contribute one
step along every axis on which they are high. -/
def childPoint {d : Nat} (child v : Corner d) : Nat :=
  (List.finRange d).foldl
    (fun n (a : Fin d) => n + ((child.high a).toNat + (v.high a).toNat) * Nat.pow 3 a.val) 0

end Cube
end HexMesh
