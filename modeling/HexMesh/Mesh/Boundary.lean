import HexMesh.Mesh.Basic
import Std.Data.ExtTreeSet

/-!
The boundary of a mesh, computed from its cells.

A face lies on the boundary when its key is the key of no other face.  The test
counts keys instead of comparing faces in pairs; nothing about the boundary is
stored, so no operation can leave it out of date.
-/

namespace HexMesh

/-- A face, by the number of a cell and the number of the face in that cell. -/
structure FaceRef where
  cell : Nat
  face : Nat
  deriving DecidableEq, Repr

/-- A face on the boundary with its indicator. -/
structure BoundaryFace extends FaceRef where
  indicator : Indicator
  deriving DecidableEq, Repr

namespace Mesh

variable {K : Type} {d : Nat}

/-- Every face of every cell with its key, in ascending order of cell and face. -/
def faces (m : Mesh K d) : List (FaceRef × Key) :=
  m.cells.zipIdx.flatMap fun (c, i) =>
    (List.range (Cube.faceCount d)).map fun f => (⟨i, f⟩, c.faceKey f)

/-- How many faces have each key. -/
def owners (m : Mesh K d) : KeyMap Nat := KeyMap.tally (m.faces.map (·.2))

/-- The faces on the boundary with their keys, in ascending order of cell and face. -/
def outerFaces (m : Mesh K d) : List (FaceRef × Key) :=
  let owners := m.owners
  m.faces.filter fun f => owners.getD f.2 0 == 1

/-- The faces on the boundary in ascending order of cell and face. -/
def boundaryFaces (m : Mesh K d) : List BoundaryFace :=
  m.outerFaces.map fun f => { f.1 with indicator := m.indicator f.2 }

/-- The vertices on the boundary. -/
def boundaryVertices (m : Mesh K d) : Std.ExtTreeSet Nat :=
  (m.outerFaces.flatMap (·.2)).foldl (·.insert ·) ∅

/-- The largest indicator on the boundary; zero when there is no boundary. -/
def maxIndicator (m : Mesh K d) : Indicator :=
  m.boundaryFaces.foldl (fun i f => if i < f.indicator then f.indicator else i) 0

/-- How many boundary faces have each indicator. -/
def indicatorCounts (m : Mesh K d) : Std.ExtTreeMap Indicator Nat :=
  m.boundaryFaces.foldl (fun t f => t.insert f.indicator (t.getD f.indicator 0 + 1)) ∅

/-- Forget the indicators of keys that are not on the boundary. -/
def pruneIndicators (m : Mesh K d) : Mesh K d :=
  let owners := m.owners
  { m with indicators := m.indicators.filter fun k _ => owners.getD k 0 == 1 }

/-- The distinct edges of all cells as ascending pairs of vertex numbers, in ascending
order. -/
def edges (m : Mesh K d) : List (Nat × Nat) :=
  let keys := m.cells.flatMap fun c => c.edges.map fun e => [min e.1 e.2, max e.1 e.2]
  let distinct : Std.ExtTreeSet Key := keys.foldl (·.insert ·) ∅
  distinct.toList.filterMap fun
    | [a, b] => some (a, b)
    | _ => none

end Mesh
end HexMesh
