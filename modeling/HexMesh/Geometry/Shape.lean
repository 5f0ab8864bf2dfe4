import HexMesh.Geometry.Point

/-!
Shapes that a part of the boundary may have.

Refinement creates a vertex in the middle of an edge, a face or a cell.  Where
that piece lies on the boundary, the shape of the boundary decides the position.
Any rule that finds a position from the parents is a shape.
-/

namespace HexMesh

/-- The shape of a part of the boundary. -/
structure Shape (K : Type) (d : Nat) where
  /-- Where a vertex goes that is created between the given parents. -/
  place : List (Point K d) → Point K d

namespace Shape

variable {K : Type} {d : Nat} [Scalar K]

/-- Flat: a new vertex lies at the mean of its parents. -/
def flat : Shape K d := ⟨Point.average⟩

variable [SquareRoot K]

/-- The point of the sphere seen from the center in the direction of `p`.  A point within
`10 ^ (-12)` of the center has no direction and stays where it is. -/
def project (center : Point K d) (radius : K) (p : Point K d) : Point K d :=
  let offset := p - center
  let length := offset.norm
  if Scalar.ratio 1 (Nat.pow 10 12) < length then
    center + offset.scale (radius / length)
  else p

/-- A circle or a sphere: the mean of the parents is pushed out radially. -/
def ball (center : Point K d) (radius : K) : Shape K d :=
  ⟨fun parents => project center radius (Point.average parents)⟩

end Shape
end HexMesh
