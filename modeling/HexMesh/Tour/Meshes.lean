import HexMesh.Mesh.Box
import HexMesh.Mesh.Distortion
import HexMesh.Mesh.Extrusion
import HexMesh.Mesh.Hole
import HexMesh.Mesh.Merge
import HexMesh.Mesh.Refinement
import HexMesh.Settings.Basic
import HexMesh.Tour.Maps

/-!
The meshes that the tour makes without reading a file.
-/

namespace HexMesh
namespace Tour

variable {K : Type} [Scalar K]

/-- A quarter, the radius of the hole in the square. -/
def holeRadius : K := Scalar.ratio 1 4

/-- The square of side two with a round hole in its middle. -/
def plate [Transcendental K] : Except (Fault K) (Mesh K 2) :=
  Mesh.squareWithHole holeRadius (1 : Nat)

/-- The box between the origin and a point, cut into equal cells. -/
def strip (columns rows : Nat) (corner : Point K 2) : Except (Fault K) (Mesh K 2) :=
  Mesh.box #v[columns, rows] Point.origin corner false

/-- The plate with a strip glued to its right side. -/
def flag [SquareRoot K] [Transcendental K] : Except (Fault K) (Mesh K 2) := do
  let one := ((1 : Nat) : K)
  let pole ← plate
  let cloth ← Mesh.box #v[3, 2] (.xy one (-one)) (.xy ((4 : Nat) : K) one) false
  pole.merge cloth

/-! ## Lifting the upper side -/

/-- The ordinate is one up to `10 ^ (-5)`. -/
def onTopEdge (p : Point K 2) : Bool :=
  Scalar.abs (p.ordinate - ((1 : Nat) : K)) < Scalar.ratio 1 (Nat.pow 10 5)

/-- The point half a unit higher, if it lies on the upper side. -/
def raise (p : Point K 2) : Point K 2 :=
  if onTopEdge p then .xy p.abscissa (p.ordinate + Scalar.ratio 1 2) else p

/-- Lift the upper side of a mesh.  The vertices are visited cell by cell, and a vertex that
was lifted no longer lies on the upper side, so that none is lifted twice. -/
def raiseTopEdge (m : Mesh K 2) : Mesh K 2 :=
  (m.cells.flatMap Vector.toList).foldl (fun raised v => raised.modifyVertex v raise) m

/-- The plate with its upper side lifted, refined twice around a hole that stays round. -/
def curvedPlate [SquareRoot K] [Transcendental K] : Except (Fault K) (Mesh K 2) := do
  let m ← plate
  return ((raiseTopEdge m).setShape 1 (.ball Point.origin holeRadius)).refine 2

/-- The plate made two units thick, in two layers of cells. -/
def block [Transcendental K] : Except (Fault K) (Mesh K 3) := do
  (← plate).extrude 3 ((2 : Nat) : K)

/-- A long strip bent into a full wave. -/
def wavyStrip [Transcendental K] : Except (Fault K) (Mesh K 2) := do
  let m ← strip 14 2 (.xy ((10 : Nat) : K) ((1 : Nat) : K))
  return m.transform wave

/-- The unit square with rows that are crowded upwards. -/
def gradedSquare [Transcendental K] : Except (Fault K) (Mesh K 2) := do
  let m ← strip 40 40 (.xy ((1 : Nat) : K) ((1 : Nat) : K))
  return m.transform grade

/-- The unit square with its vertices moved at random. -/
def distortedSquare [SquareRoot K] (distortion : Distortion K) (words : WordStream) :
    Except (Fault K) (Mesh K 2) := do
  let m ← strip 16 16 (.xy ((1 : Nat) : K) ((1 : Nat) : K))
  return m.distort distortion.factor distortion.keepBoundary words

end Tour
end HexMesh
