import HexMesh.Mesh.Boundary

/-!
Boxes cut into equal cells along every axis.

Grid points and cells are numbered with the first axis running fastest, so the
number of a grid point is a number in mixed radix whose digits are its places
along the axes.
-/

namespace HexMesh

/-- A box by its two extreme corners, with the number of cells along each axis. -/
structure Box (K : Type) (d : Nat) where
  repetitions : Vector Nat d
  low : Point K d
  high : Point K d

namespace Box

variable {K : Type} {d : Nat}

/-- How many grid points a step along an axis skips. -/
def stride (b : Box K d) (axis : Nat) : Nat :=
  (b.repetitions.toList.take axis).foldl (fun n r => n * (r + 1)) 1

/-- How many cells a step along an axis skips. -/
def cellStride (b : Box K d) (axis : Nat) : Nat :=
  (b.repetitions.toList.take axis).foldl (· * ·) 1

/-- How many grid points there are. -/
def pointCount (b : Box K d) : Nat := b.stride d

/-- How many cells there are. -/
def cellCount (b : Box K d) : Nat := b.cellStride d

/-- The place of a grid point along an axis. -/
def pointIndex (b : Box K d) (axis : Fin d) (point : Nat) : Nat :=
  point / b.stride axis % (b.repetitions.get axis + 1)

/-- The place of a cell along an axis. -/
def cellIndex (b : Box K d) (axis : Fin d) (cell : Nat) : Nat :=
  cell / b.cellStride axis % b.repetitions.get axis

/-- The number of the grid point at a corner of a cell. -/
def cornerNumber (b : Box K d) (cell : Nat) (v : Cube.Corner d) : Nat :=
  (List.finRange d).foldl
    (fun n (a : Fin d) => n + (b.cellIndex a cell + (v.high a).toNat) * b.stride a) 0

/-- The cell with a given number. -/
def cell (b : Box K d) (number : Nat) : Cell d := Cell.ofFn (b.cornerNumber number)

variable [Scalar K]

/-- The position of a grid point. -/
def point (b : Box K d) (number : Nat) : Point K d :=
  Point.ofFn fun a =>
    let low := b.low.coords.get a
    low + (b.high.coords.get a - low) * ((b.pointIndex a number : Nat) : K)
      / ((b.repetitions.get a : Nat) : K)

/-- The box between any two opposite corners. -/
def ofCorners (repetitions : Vector Nat d) (p q : Point K d) : Box K d :=
  let swap (a : Fin d) : Bool := q.coords.get a < p.coords.get a
  { repetitions
    low := Point.ofFn fun a => if swap a then q.coords.get a else p.coords.get a
    high := Point.ofFn fun a => if swap a then p.coords.get a else q.coords.get a }

/-- The first thing that keeps a box from being cut into cells, if anything does. -/
def fault? (b : Box K d) : Option (Fault K) :=
  match (List.finRange d).find? fun a => b.repetitions.get a == 0 with
  | some a => some (.noRepetitions a)
  | none =>
    ((List.finRange d).find? fun a =>
      decide (b.high.coords.get a - b.low.coords.get a ≤ ((0 : Nat) : K))).map fun a =>
        .noExtent a

end Box

namespace Mesh

variable {K : Type} {d : Nat} [Scalar K]

/-- The mesh of a box without any indicators. -/
def ofBox (b : Box K d) : Mesh K d :=
  { vertices := (Array.range b.pointCount).map b.point
    cells := (List.range b.cellCount).map b.cell }

omit [Scalar K] in
/-- Give every boundary face its own number in its cell as its indicator. -/
def colorize (m : Mesh K d) : Mesh K d :=
  { m with
    indicators := m.outerFaces.foldl (fun t f => t.insert f.2 f.1.face.toUInt32) m.indicators }

/-- The box between two opposite corners, cut into equal cells.  With `colorize` the side
at the low end of axis `a` gets indicator `2 a` and the one at the high end `2 a + 1`. -/
def box (repetitions : Vector Nat d) (p q : Point K d) (colorize : Bool) :
    Except (Fault K) (Mesh K d) :=
  let b := Box.ofCorners repetitions p q
  match b.fault? with
  | some fault => .error fault
  | none =>
    if d = 0 ∨ 3 < d then .error (.unsupportedDimension d)
    else .ok (if colorize then (ofBox b).colorize else ofBox b)

end Mesh
end HexMesh
