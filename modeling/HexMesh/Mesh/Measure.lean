import HexMesh.Mesh.Basic
import HexMesh.Topology.Ordering

/-!
Sizes of cells: measure, diameter and orientation.
-/

namespace HexMesh

variable {K : Type} [Scalar K]

/-! ## Determinants by elimination -/

/-- The number of the row whose first entry is largest in absolute value; of several equal
ones the last. -/
def pivotRow (rows : List (List K)) : Nat :=
  let size (row : List K) : K := Scalar.abs (row.headD (0 : Nat))
  (rows.zipIdx.foldl (fun best (row, i) =>
    match best with
    | none => some (row, i)
    | some (top, j) =>
      if (Scalar.rank (size top) (size row)).isLE then some (row, i) else some (top, j))
    (none : Option (List K × Nat))).elim 0 (·.2)

/-- Multiply `det` by the determinant of a square matrix of `n` rows.  The pivot row is
exchanged with the first one, which changes the sign, and its multiples clear the first
column.  A pivot below the relative spacing of binary64 numbers counts as zero. -/
def eliminate : Nat → K → List (List K) → K
  | 0, det, _ => det
  | n + 1, det, rows =>
    let i := pivotRow rows
    let pivot := rows.getD i []
    let others := (rows.set i (rows.headD [])).tail
    let entry := pivot.headD (0 : Nat)
    if Scalar.abs entry < Scalar.epsilon then ((0 : Nat) : K)
    else
      let det := (if i = 0 then det else -det) * entry
      eliminate n det <| others.map fun row =>
        let factor := row.headD (0 : Nat) / entry
        List.zipWith (fun a p => a - factor * p) row.tail pivot.tail

/-- The product of the numbers from one to `n`. -/
def factorial (n : Nat) : K :=
  (List.range n).foldl (fun p i => p * ((i + 1 : Nat) : K)) ((1 : Nat) : K)

/-- The signed measure of the simplex with a given first corner and `d` more. -/
def simplexMeasure {d : Nat} (first : Point K d) (others : List (Point K d)) : K :=
  eliminate d ((1 : Nat) : K) (others.map fun p => (p - first).coords.toList) / factorial d

namespace Cell

variable {d : Nat}

/-- The corners met on the way from the lowest corner of the cube to the highest, one axis
after the other. -/
def path (axes : List Nat) : List Nat :=
  (axes.foldl (fun (trail, v) a => (trail ++ [v ||| Nat.pow 2 a], v ||| Nat.pow 2 a))
    (([] : List Nat), 0)).1

/-- The measure of a cell with the given corner points: length, area or volume.  The cell
is cut into simplices along its main diagonal, whose signed measures are added. -/
def measure (corners : Vector (Point K d) (Cube.cornerCount d)) : K :=
  let corner (v : Nat) : Point K d := (corners[v]?).getD Point.origin
  let total := (Ordering.all d).foldl
    (fun t axes => t + Ordering.sign axes * simplexMeasure (corner 0) ((path axes).map corner))
    ((0 : Nat) : K)
  Scalar.abs total

/-- The length of the longest diagonal of a cell. -/
def diameter [SquareRoot K] (corners : Vector (Point K d) (Cube.cornerCount d)) : K :=
  ((Cube.corners d).take (Cube.cornerCount d / 2)).foldl
    (fun longest v => Scalar.greatest longest ((corners.get v).distance (corners.get v.rev)))
    ((0 : Nat) : K)

/-- The determinant of the edges that leave the lowest corner.  It is negative for a cell
that is turned inside out there, and zero in dimensions without cells. -/
def orientation (corners : Vector (Point K d) (Cube.cornerCount d)) : K :=
  let corner (v : Nat) : Point K d := (corners[v]?).getD Point.origin
  let edge (axis i : Nat) : K :=
    (((corner (Nat.pow 2 axis) - corner 0).coords[i]?).getD ((0 : Nat) : K))
  match d with
  | 1 => edge 0 0
  | 2 => edge 0 0 * edge 1 1 - edge 0 1 * edge 1 0
  | 3 =>
    edge 0 0 * (edge 1 1 * edge 2 2 - edge 1 2 * edge 2 1)
      - edge 0 1 * (edge 1 0 * edge 2 2 - edge 1 2 * edge 2 0)
      + edge 0 2 * (edge 1 0 * edge 2 1 - edge 1 1 * edge 2 0)
  | _ => ((0 : Nat) : K)

end Cell

namespace Mesh

variable {d : Nat}

/-- The measure of a cell of a mesh. -/
def cellMeasure (m : Mesh K d) (c : Cell d) : K := Cell.measure (m.cornerPoints c)

/-- The diameter of a cell of a mesh. -/
def cellDiameter [SquareRoot K] (m : Mesh K d) (c : Cell d) : K :=
  Cell.diameter (m.cornerPoints c)

/-- The smallest diameter of a cell, if there are cells. -/
def minimalDiameter? [SquareRoot K] (m : Mesh K d) : Option K :=
  (m.cells.map m.cellDiameter).foldl (fun best a =>
    match best with
    | none => some a
    | some b => if Scalar.rank a b == .lt then some a else some b) none

end Mesh
end HexMesh
