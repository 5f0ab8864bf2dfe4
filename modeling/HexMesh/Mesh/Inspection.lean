import HexMesh.Mesh.Measure

/-!
Inspection of a mesh for cells and vertices that make later work meaningless.
-/

namespace HexMesh

/-- What an inspection found. -/
structure Findings where
  /-- How many cells were looked at. -/
  total : Nat
  /-- The cells with a coordinate that is not finite.  Nothing else is asked of them. -/
  undefinedCells : List Nat
  /-- How many cells have nearly no measure. -/
  degenerate : Nat
  /-- How many cells are turned inside out at their lowest corner. -/
  inverted : Nat
  /-- How many vertices belong to no cell. -/
  unused : Nat
  deriving DecidableEq, Repr

namespace Findings

/-- No cell is without measure or without coordinates. -/
def isValid (f : Findings) : Bool := f.undefinedCells.isEmpty && f.degenerate == 0

/-- There is something to warn about. -/
def hasIssues (f : Findings) : Bool :=
  0 < f.degenerate || !f.undefinedCells.isEmpty || 0 < f.inverted || 0 < f.unused

def summary (f : Findings) : String :=
  if f.hasIssues then
    s!"Mesh issues: {f.total} cells, {f.degenerate} degenerate, " ++
      s!"{f.undefinedCells.length} invalid coords, {f.inverted} inverted, " ++
      s!"{f.unused} unused vertices"
  else s!"Mesh valid: {f.total} cells, no issues"

/-- One line for each cell without coordinates, then one for each other kind of issue. -/
def warnings (f : Findings) : List String :=
  (f.undefinedCells.map fun c => s!"Cell {c} has NaN/Inf coordinates") ++
    (if 0 < f.degenerate then [s!"{f.degenerate} degenerate cells detected"] else []) ++
    (if 0 < f.inverted then [s!"{f.inverted} cells are inverted"] else []) ++
    (if 0 < f.unused then [s!"{f.unused} vertices are not used by any cell"] else [])

end Findings

namespace Mesh

variable {K : Type} [Scalar K] {d : Nat}

/-- The power `a ^ n`, multiplied from the right. -/
def power (a : K) : Nat → K
  | 0 => ((1 : Nat) : K)
  | 1 => a
  | n + 2 => a * power a (n + 1)

/-- The vertices that belong to no cell. -/
def unusedVertices (m : Mesh K d) : List Nat :=
  let used := m.cells.foldl (fun used c => c.toList.foldl (fun u v => u.setIfInBounds v true) used)
    (Array.replicate m.vertices.size false)
  (List.range m.vertices.size).filter fun v => !used.getD v false

/-- Every corner of a cell has finite coordinates. -/
def hasCoordinates (m : Mesh K d) (c : Cell d) : Bool :=
  (m.cornerPoints c).toList.all Point.isFinite

/-- The measure of a cell is at most `10 ^ (-10)` times that of a cube as wide as its
diameter. -/
def isDegenerate [SquareRoot K] (m : Mesh K d) (c : Cell d) : Bool :=
  m.cellMeasure c ≤ Scalar.ratio 1 (Nat.pow 10 10) * power (m.cellDiameter c) d

/-- The orientation of a cell at its lowest corner is negative. -/
def isInverted (m : Mesh K d) (c : Cell d) : Bool :=
  Cell.orientation (m.cornerPoints c) < ((0 : Nat) : K)

/-- Look at every cell and every vertex. -/
def inspect [SquareRoot K] (m : Mesh K d) : Findings :=
  let sound := m.cells.filter m.hasCoordinates
  { total := m.cells.length
    undefinedCells := (m.cells.zipIdx.filter fun c => !m.hasCoordinates c.1).map (·.2)
    degenerate := sound.countP m.isDegenerate
    inverted := sound.countP m.isInverted
    unused := m.unusedVertices.length }

end Mesh
end HexMesh
