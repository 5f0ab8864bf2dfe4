import HexMesh.Geometry.Shape
import HexMesh.Mesh.Fault
import HexMesh.Topology.Cube
import HexMesh.Topology.Key

/-!
Meshes of quadrilaterals and hexahedra.

A mesh is a table of vertices and a list of cells that refer to it, together
with what is known about the boundary: an indicator for some faces, and a shape
for some indicators.  Faces are not stored.  A face is named by its key, and
whatever is asked about faces is computed from the cells.
-/

namespace HexMesh

/-- The label of a part of the boundary. -/
abbrev Indicator := UInt32

/-- A cell, as the numbers of its vertices in the order of the cube's corners. -/
abbrev Cell (d : Nat) := Vector Nat (Cube.cornerCount d)

namespace Cell

variable {d : Nat}

/-- The cell whose corner `v` is vertex `f v`. -/
def ofFn (f : Cube.Corner d → Nat) : Cell d := Vector.ofFn f

/-- The key of the piece of a cell spanned by some of its corners. -/
def key (c : Cell d) (vs : List (Cube.Corner d)) : Key := Key.ofList (vs.map c.get)

/-- The key of a face. -/
def faceKey (c : Cell d) (face : Nat) : Key := c.key (Cube.faceCorners d face)

/-- The key of the piece of a cell in whose middle a lattice point lies. -/
def latticeKey (c : Cell d) (point : Nat) : Key := c.key (Cube.latticeCorners d point)

/-- The edges of a cell, as pairs of vertex numbers. -/
def edges (c : Cell d) : List (Nat × Nat) :=
  (Cube.edges d).map fun e => (c.get e.1, c.get e.2)

end Cell

/-- A mesh of `d`-dimensional cells with coordinates in `K`. -/
structure Mesh (K : Type) (d : Nat) where
  vertices : Array (Point K d) := #[]
  cells : List (Cell d) := []
  /-- The indicators that were set.  Any other face on the boundary counts as zero. -/
  indicators : KeyMap Indicator := ∅
  /-- The shapes of those parts of the boundary that are not flat by default. -/
  shapes : Std.ExtTreeMap Indicator (Shape K d) := ∅

namespace Mesh

variable {K : Type} {d : Nat}

/-- Every vertex number that is stored in a cell or in a key exists, and keys are sorted. -/
structure WellFormed (m : Mesh K d) : Prop where
  cell_lt : ∀ c ∈ m.cells, ∀ v ∈ c.toList, v < m.vertices.size
  key_lt : ∀ k ∈ m.indicators, ∀ v ∈ k, v < m.vertices.size
  key_sorted : ∀ k ∈ m.indicators, k.Pairwise (· ≤ ·)

/-- The mesh with the given vertices and cells.  Every cell must have as many entries as
the cube has corners, and every entry must be the number of a vertex; the first cell that
breaks a rule is reported, its length before its entries. -/
def ofCells (vertices : Array (Point K d)) (cells : List (List Nat)) :
    Except (Fault K) (Mesh K d) := do
  if d = 0 ∨ 3 < d then throw (.unsupportedDimension d)
  let checked ← cells.zipIdx.mapM fun (vs, i) =>
    if h : vs.toArray.size = Cube.cornerCount d then
      match vs.find? (vertices.size ≤ ·) with
      | some v => throw (.cellVertex i v vertices.size)
      | none => pure (⟨vs.toArray, h⟩ : Cell d)
    else throw (.cellSize i vs.length (Cube.cornerCount d))
  return { vertices, cells := checked }

/-- The position of a vertex.  Outside the table it is the origin, which no operation on a
well-formed mesh asks for. -/
def position [Scalar K] (m : Mesh K d) (v : Nat) : Point K d :=
  (m.vertices[v]?).getD Point.origin

/-- The corner points of a cell, in the order of the cube's corners. -/
def cornerPoints [Scalar K] (m : Mesh K d) (c : Cell d) : Vector (Point K d) (Cube.cornerCount d) :=
  c.map m.position

/-- Move one vertex. -/
def modifyVertex (m : Mesh K d) (v : Nat) (f : Point K d → Point K d) : Mesh K d :=
  { m with vertices := m.vertices.modify v f }

/-- Move every vertex of the mesh by the same map.  Cells and indicators stay. -/
def transform (m : Mesh K d) (f : Point K d → Point K d) : Mesh K d :=
  { m with vertices := m.vertices.map f }

/-! ## Indicators and shapes -/

/-- The indicator of a key: the one that was set, or zero. -/
def indicator (m : Mesh K d) (k : Key) : Indicator := m.indicators.getD k 0

/-- Set the indicator of the face spanned by some vertices, listed in any order. -/
def setIndicator (m : Mesh K d) (vs : List Nat) (i : Indicator) : Mesh K d :=
  { m with indicators := m.indicators.insert (Key.ofList vs) i }

/-- Set the indicator of a face of a cell. -/
def setFaceIndicator (m : Mesh K d) (c : Cell d) (face : Nat) (i : Indicator) : Mesh K d :=
  { m with indicators := m.indicators.insert (c.faceKey face) i }

/-- Give all faces with an indicator a shape. -/
def setShape (m : Mesh K d) (i : Indicator) (s : Shape K d) : Mesh K d :=
  { m with shapes := m.shapes.insert i s }

/-- Take the shape of an indicator away, which leaves its faces flat. -/
def clearShape (m : Mesh K d) (i : Indicator) : Mesh K d :=
  { m with shapes := m.shapes.erase i }

end Mesh
end HexMesh
