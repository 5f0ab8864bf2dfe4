import HexMesh.Proofs.Mesh.Recounting

/-!
Cells with their halves exchanged.

Exchanging the halves of a cell along its last axis turns it over, which is a symmetry of the
cube.  So a mesh may turn over any of its cells without a change to its boundary or to its
edges.
-/

namespace HexMesh

open HexMesh.Cube

namespace Cell

variable {d : Nat}

/-- The cell with its halves along the last axis exchanged. -/
def exchanged (c : Cell d) : Cell d := Cell.ofFn fun v => c.get v.across

@[simp] theorem get_exchanged (c : Cell d) (v : Corner d) :
    c.exchanged.get v = c.get v.across := get_ofFn _ v

theorem ext_get {c e : Cell d} (h : ∀ v, c.get v = e.get v) : c = e :=
  Vector.ext fun i hi => h ⟨i, hi⟩

theorem across_across (v : Corner d) : v.across.across = v := by
  cases d with
  | zero => exact @Subsingleton.elim (Fin 1) _ _ _
  | succ e => rw [Corner.across_eq_flip, Corner.across_eq_flip, Corner.flip_flip]

@[simp] theorem exchanged_exchanged (c : Cell d) : c.exchanged.exchanged = c :=
  ext_get fun v => by rw [get_exchanged, get_exchanged, across_across]

theorem recounts_exchanged (c : Cell d) : c.Recounts c.exchanged := by
  cases d with
  | zero =>
    have hsame : c.exchanged = c := ext_get fun v => by
      rw [get_exchanged, @Subsingleton.elim (Fin 1) _ (Corner.across v) v]
    exact hsame.symm ▸ Recounts.refl c
  | succ e =>
    refine ⟨turn (Fin.last e), isSymmetry_turn _, fun v => ?_⟩
    rw [get_exchanged, Corner.across_eq_flip, turn_apply]

end Cell

namespace Mesh

variable {K : Type} {d : Nat} {m m' : Mesh K d}

/-- The second mesh differs from the first in the positions of vertices only, but for cells
that are turned over: their halves are exchanged. -/
structure TurnsCells (m m' : Mesh K d) : Prop where
  vertexCount : m'.vertices.size = m.vertices.size
  indicators : m'.indicators = m.indicators
  cells : List.Forall₂ (fun c c' => c' = c ∨ c' = c.exchanged) m.cells m'.cells

namespace TurnsCells

theorem recounted (h : m.TurnsCells m') : Cell.Recounted m.cells m'.cells := by
  refine ⟨m.cells, .refl _, h.cells.imp ?_⟩
  rintro c _ (rfl | rfl)
  · exact .refl _
  · exact c.recounts_exchanged

theorem boundaryVertices_eq (h : m.TurnsCells m') : m'.boundaryVertices = m.boundaryVertices :=
  boundaryVertices_congr h.recounted.faceKeys_perm

theorem summary_eq (h : m.TurnsCells m') (output : String) :
    Summary.ofMesh m' output = Summary.ofMesh m output :=
  summary_congr h.recounted.faceKeys_perm h.indicators h.recounted.length_eq output

theorem edges_eq (h : m.TurnsCells m') : m'.edges = m.edges := edges_congr h.recounted.mem_edgeKeys

end TurnsCells
end Mesh
end HexMesh
