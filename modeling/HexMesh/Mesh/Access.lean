import HexMesh.Mesh.Basic

/-!
Operations that name a vertex or a cell of a mesh by its number.

A number that the mesh does not have is the fault of the caller.
-/

namespace HexMesh
namespace Mesh

variable {K : Type} {d : Nat}

/-- A vertex by its number. -/
def vertexAt (m : Mesh K d) (v : Nat) : Except (Fault K) (Point K d) :=
  match m.vertices[v]? with
  | some p => .ok p
  | none => .error .outOfRange

/-- A cell by its number. -/
def cellAt (m : Mesh K d) (cell : Nat) : Except (Fault K) (Cell d) :=
  match m.cells[cell]? with
  | some c => .ok c
  | none => .error .outOfRange

/-- The vertex at a corner of a cell. -/
def cornerAt (m : Mesh K d) (cell corner : Nat) : Except (Fault K) Nat := do
  let vs ← m.cellAt cell
  match vs[corner]? with
  | some v => .ok v
  | none => .error .outOfRange

/-- The positions of the corners of a cell. -/
def cornersOf (m : Mesh K d) (cell : Nat) : Except (Fault K) (List (Point K d)) := do
  (← m.cellAt cell).toList.mapM m.vertexAt

/-- The key of a face of a cell. -/
def faceKeyAt (m : Mesh K d) (cell face : Nat) : Except (Fault K) Key := do
  return (← m.cellAt cell).faceKey face

/-- Set the indicator of a face of a cell. -/
def setFaceIndicatorAt (m : Mesh K d) (cell face : Nat) (i : Indicator) :
    Except (Fault K) (Mesh K d) := do
  return m.setFaceIndicator (← m.cellAt cell) face i

variable [Scalar K]

/-- Move one vertex by a vector. -/
def moveVertex (m : Mesh K d) (v : Nat) (shift : Point K d) : Except (Fault K) (Mesh K d) :=
  if v < m.vertices.size then .ok (m.modifyVertex v (· + shift)) else .error .outOfRange

/-- Move the vertex at a corner of a cell by a vector.  The cells around it move with it. -/
def moveCorner (m : Mesh K d) (cell corner : Nat) (shift : Point K d) :
    Except (Fault K) (Mesh K d) := do
  m.moveVertex (← m.cornerAt cell corner) shift

end Mesh
end HexMesh
