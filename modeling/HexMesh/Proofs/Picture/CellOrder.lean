import HexMesh.Proofs.Mesh.Recounting
import HexMesh.Proofs.Picture.Lines

/-!
Pictures and summaries do not show how cells are listed.

A picture is drawn from the set of edges and the keys of boundary faces, and a summary from the
keys alone.  Neither knows in which order the cells stand or along which symmetry of the cube
each of them counts its corners, so that both come out the same.  The frame is found by a fold
over the ends of the edges, in whose order the arithmetic may round; but this is the order of
the edges and not that of the cells.
-/

namespace HexMesh

open HexMesh.Cube

namespace Mesh

variable {K : Type} {d : Nat} {m m' : Mesh K d}

/-- The second mesh has the vertices of the first one, and its cells in any order and with the
corners of each counted along any symmetry of the cube.  Nothing is said about indicators. -/
structure Recounts (m m' : Mesh K d) : Prop where
  vertices : m'.vertices = m.vertices
  cells : Cell.Recounted m.cells m'.cells

namespace Recounts

theorem isEmpty_cells (h : m.Recounts m') : m'.cells.isEmpty = m.cells.isEmpty := by
  rw [Bool.eq_iff_iff, List.isEmpty_iff_length_eq_zero, List.isEmpty_iff_length_eq_zero,
    h.cells.length_eq]

theorem redEdges_eq (h : m.Recounts m') (style : Style K) :
    m'.redEdges style = m.redEdges style := by
  have houter := outerFaces_congr h.cells.faceKeys_perm
  unfold redEdges
  rw [foldl_insert_congr fun k => houter.mem_iff]

theorem draw_eq [Scalar K] [Transcendental K] (h : m.Recounts m') (style : Style K) :
    m'.draw style = m.draw style := by
  unfold draw
  rw [h.isEmpty_cells, h.vertices, edges_congr h.cells.mem_edgeKeys, h.redEdges_eq]

end Recounts

/-- Whatever the arithmetic and the style, the file of the picture is the same to the last
character, and so is the fault where there is none.  With the same stored indicators the
summaries are the same as well. -/
theorem draw_recounted [Scalar K] [Transcendental K] [Numeral K] (h : m.Recounts m') :
    (∀ style, (m'.draw style).map Drawing.text = (m.draw style).map Drawing.text) ∧
      (m'.indicators = m.indicators →
        ∀ output, Summary.ofMesh m' output = Summary.ofMesh m output) := by
  refine ⟨fun style => by rw [h.draw_eq], fun hindicators output => ?_⟩
  exact summary_congr h.cells.faceKeys_perm hindicators h.cells.length_eq output

/-- Turning a cube about its main diagonal, which takes each axis to the next one. -/
def aboutDiagonal : Equiv.Perm (Corner 3) where
  toFun := (#v[0, 4, 1, 5, 2, 6, 3, 7] : Vector (Corner 3) 8).get
  invFun := (#v[0, 2, 4, 6, 1, 3, 5, 7] : Vector (Corner 3) 8).get
  left_inv := by decide
  right_inv := by decide

/-- Two bricks, one upon the other, with an indicator for the face between the second brick
and the outside. -/
def tower (cells : List (Cell 3)) : Mesh Float 3 :=
  { vertices := #[.xyz 0 0 0, .xyz 3 0 0, .xyz 0 1 0, .xyz 3 1 0, .xyz 0 0 2, .xyz 3 0 2,
      .xyz 0 1 2, .xyz 3 1 2, .xyz 0 0 1, .xyz 3 0 1, .xyz 0 1 1, .xyz 3 1 1]
    cells
    indicators := KeyMap.ofEntries [([4, 5, 6, 7], 4)] }

def lowerBrick : Cell 3 := #v[0, 1, 2, 3, 8, 9, 10, 11]

def upperBrick : Cell 3 := #v[8, 9, 10, 11, 4, 5, 6, 7]

theorem draw_recounted_tower :
    (tower [lowerBrick, upperBrick]).Recounts
        (tower [#v[8, 4, 9, 5, 10, 6, 11, 7], lowerBrick]) ∧
      ((tower [#v[8, 4, 9, 5, 10, 6, 11, 7], lowerBrick]).draw .standard).map Drawing.text =
        ((tower [lowerBrick, upperBrick]).draw .standard).map Drawing.text ∧
      Summary.ofMesh (tower [#v[8, 4, 9, 5, 10, 6, 11, 7], lowerBrick]) "tower.eps" =
        Summary.ofMesh (tower [lowerBrick, upperBrick]) "tower.eps" := by
  have hturned : upperBrick.Recounts #v[8, 4, 9, 5, 10, 6, 11, 7] :=
    ⟨aboutDiagonal, by decide +kernel, by decide⟩
  have h : (tower [lowerBrick, upperBrick]).Recounts
      (tower [#v[8, 4, 9, 5, 10, 6, 11, 7], lowerBrick]) :=
    ⟨rfl, [upperBrick, lowerBrick], .swap _ _ _, .cons hturned (.cons (.refl _) .nil)⟩
  obtain ⟨hdraw, hsummary⟩ := draw_recounted h
  exact ⟨h, hdraw .standard, hsummary rfl "tower.eps"⟩

end Mesh
end HexMesh
