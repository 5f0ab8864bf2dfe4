import HexMesh.Mesh.Basic

/-!
The square with a round hole in the middle.
-/

namespace HexMesh

variable {K : Type} [Scalar K]

/-- The corners and the midpoints of the sides of the square around the origin whose side
is two long, counterclockwise from the lower left. -/
def squareRing : List (Point K 2) :=
  let zero := ((0 : Nat) : K)
  let one := ((1 : Nat) : K)
  [.xy (-one) (-one), .xy zero (-one), .xy one (-one), .xy one zero,
    .xy one one, .xy zero one, .xy (-one) one, .xy (-one) zero]

/-- The cell in a given eighth of the square: its first axis runs outwards from the hole
and its second one counterclockwise. -/
def ringCell (k : Nat) : Cell 2 := #v[8 + k, k, 8 + (k + 1) % 8, (k + 1) % 8]

namespace Mesh

/-- The square that reaches from `-outer` to `outer` along both axes, without the disc of
radius `inner` around the origin.  Eight cells join points on the square with points on
the circle in the same directions.  The circle gets indicator one and the square zero. -/
def squareWithHole [Transcendental K] (inner outer : K) : Except (Fault K) (Mesh K 2) :=
  if ((0 : Nat) : K) < inner ∧ inner < outer then
    let square := squareRing.map fun (p : Point K 2) =>
      Point.xy (p.abscissa * outer) (p.ordinate * outer)
    let circle := squareRing.map fun (p : Point K 2) =>
      let angle := Transcendental.atan2 p.ordinate p.abscissa
      Point.xy (inner * Transcendental.cos angle) (inner * Transcendental.sin angle)
    let cells := (List.range 8).map ringCell
    let plain : Mesh K 2 := { vertices := (square ++ circle).toArray, cells }
    .ok (cells.foldl (fun m c => (m.setFaceIndicator c 0 1).setFaceIndicator c 1 0) plain)
  else .error (.radii inner outer)

end Mesh
end HexMesh
