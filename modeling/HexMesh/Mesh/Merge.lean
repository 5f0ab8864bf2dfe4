import HexMesh.Mesh.Identification
import HexMesh.Mesh.Measure

/-!
Gluing two meshes together where their vertices coincide.
-/

namespace HexMesh
namespace Mesh

variable {K : Type} {d : Nat}

/-- The cells of one mesh followed by those of another one, without identifying any
vertices.  The shapes of the first mesh stay. -/
def append (a b : Mesh K d) : Mesh K d :=
  let n := a.vertices.size
  { a with
    vertices := a.vertices ++ b.vertices
    cells := a.cells ++ b.cells.map (·.map (· + n))
    indicators := b.indicators.toList.foldl
      (fun t e => t.insert (e.1.map (· + n)) e.2) a.indicators }

variable [Scalar K] [SquareRoot K]

/-- The distance up to which vertices are glued: `10 ^ (-12)` times the smallest diameter
of a cell, or of one where there is no cell. -/
def mergeTolerance (m : Mesh K d) : K :=
  Scalar.ratio 1 (Nat.pow 10 12) * m.minimalDiameter?.getD ((1 : Nat) : K)

/-- Glue two meshes together, starting from a mesh without anything.  Faces that come to
lie inside lose their indicators, and no shape is kept. -/
def merge (a b : Mesh K d) : Except (Fault K) (Mesh K d) := do
  let both := ({} : Mesh K d).append a |>.append b
  let (glued, _) ← both.deduplicate both.mergeTolerance
  return glued.pruneIndicators

end Mesh
end HexMesh
