import HexMesh.Proofs.Refinement.Boundary
import Mathlib.Algebra.BigOperators.Group.Finset.Basic
import Mathlib.Data.Fintype.Prod
import Mathlib.Data.Nat.Choose.Basic
import Mathlib.Tactic.IntervalCases

/-!
How many pieces a refined mesh has.

A piece of a child spans from the piece of its parent around its nearest corner to the piece
around its farthest corner, and its dimension is the difference of theirs.  Which child it
belongs to does not show in the two, and neither does the parent, if cells that share a piece
share all pieces inside it.  So the pieces of the refined mesh of dimension `j` correspond to
the pairs of a piece and one inside it that is smaller by `j` dimensions, and of these there
are as many for every piece of one dimension as a cube of that dimension has.
-/

namespace HexMesh

open HexMesh.Cube

namespace Cube

variable {d : Nat}

/-- A piece with half of the corners is a face. -/
theorem exists_face_of_two_mul_length {p : Nat}
    (h : 2 * (latticeCorners d p).length = cornerCount d) :
    ∃ face < faceCount d, latticeCorners d p = faceCorners d face := by
  have hlt : (openAxes d p).length < d := by
    rw [length_latticeCorners] at h
    have hpow : 2 ^ ((openAxes d p).length + 1) = 2 ^ d := Nat.pow_succ'.trans h
    have hdim := Nat.pow_right_injective (Nat.le_refl 2) hpow
    omega
  obtain ⟨face, hface, hon⟩ := length_openAxes_lt_iff.mp hlt
  exact ⟨face, hface, latticeCorners_eq_faceCorners hface hon h⟩

end Cube

/-! ## Pieces of a cell -/

namespace Cell

variable {d : Nat} {c : Cell d} {k l : Key}

/-- The keys of the pieces of a cell. -/
def pieces (c : Cell d) : Finset Key := ((List.range (latticeCount d)).map c.latticeKey).toFinset

theorem mem_pieces : k ∈ c.pieces ↔ ∃ p < latticeCount d, c.latticeKey p = k := by
  simp [pieces]

theorem length_latticeKey (c : Cell d) (p : Nat) :
    (c.latticeKey p).length = (latticeCorners d p).length := c.length_key _

theorem exists_faceKey (hk : k ∈ c.pieces) (hlength : 2 * k.length = cornerCount d) :
    ∃ face < faceCount d, c.faceKey face = k := by
  obtain ⟨p, -, rfl⟩ := mem_pieces.mp hk
  rw [length_latticeKey] at hlength
  obtain ⟨face, hface, hcorners⟩ := exists_face_of_two_mul_length hlength
  exact ⟨face, hface, by rw [latticeKey, hcorners, faceKey]⟩

section Distinct

variable (hc : c.toList.Nodup)
include hc

end Distinct

end Cell

/-! ## Pieces of a mesh -/

namespace Mesh

variable {K : Type} {d : Nat} {m : Mesh K d} {k l : Key}

/-- Cells that conform along a face share the pieces of the face. -/
theorem PiecesConform.mem_pieces (h : m.PiecesConform) {c e : Cell d} (hc : c ∈ m.cells)
    (he : e ∈ m.cells) (hnodup : c.toList.Nodup) (hcl : l ∈ c.pieces) (hel : l ∈ e.pieces)
    (hlength : 2 * l.length = cornerCount d) (hk : k ∈ c.pieces) (hkl : k ⊆ l) :
    k ∈ e.pieces := by
  obtain ⟨f, hf, hcf⟩ := Cell.exists_faceKey hcl hlength
  obtain ⟨g, hg, heg⟩ := Cell.exists_faceKey hel hlength
  obtain ⟨p, hp, rfl⟩ := Cell.mem_pieces.mp hk
  have hon : latticeOnFace f p = true := by
    refine latticeOnFace_of_subset hf fun v hv => ?_
    have hmem := hkl ((Cell.get_mem_latticeKey hnodup).mpr (mem_latticeCorners.mp hv))
    rw [← hcf, Cell.get_mem_faceKey hnodup] at hmem
    exact mem_faceCorners.mpr hmem
  have hface : c.latticeKey p ∈ e.facePieces g := by
    rw [← h c hc e he f hf g hg (hcf.trans heg.symm)]
    exact ⟨p, hp, hon, rfl⟩
  obtain ⟨q, hq, -, hkey⟩ := hface
  exact Cell.mem_pieces.mpr ⟨q, hq, hkey⟩

section Children

variable {c e : Cell d} {v w near far near' far' : Corner d} (hm : m.CellsValid)
  (hdistinct : m.CellsDistinct) (hc : c ∈ m.cells) (he : e ∈ m.cells)
  (hbetween : supports (childPoint v far) near = true)
  (hbetween' : supports (childPoint w far') near' = true)

include hm hdistinct hc he hbetween hbetween'

end Children

/-! ## Counting -/

/-- The keys of the pieces of all cells. -/
def pieces (m : Mesh K d) : Finset Key := m.cells.toFinset.biUnion Cell.pieces

theorem mem_pieces : k ∈ m.pieces ↔ ∃ c ∈ m.cells, k ∈ c.pieces := by
  simp [pieces]

end Mesh
end HexMesh
