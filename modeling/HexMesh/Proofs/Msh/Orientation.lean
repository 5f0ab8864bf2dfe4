import Mathlib.Algebra.Field.Rat
import Mathlib.Algebra.Order.Ring.Rat
import HexMesh.Proofs.Mesh.Orientation
import HexMesh.Proofs.Msh.Acceptance
import HexMesh.Proofs.Msh.Coordinates

/-!
Which cells of a file come out turned inside out.

The orientation of a cell is that of the edges at its first corner.  Exchanging the halves of
the cell along the last axis puts another corner first, the one across that axis, and turns the
edges along the axis around.  So the reader makes the orientation of a cell positive where it
was negative at both corners.  A cell that is turned inside out at the first corner only, as a
quadrangle can be that is not convex, is so again after its halves were exchanged.
-/

namespace HexMesh

open HexMesh.Cube

variable {K : Type} {d : Nat}

/-! ## Cells of a mesh -/

namespace Mesh

variable [Field K] [LinearOrder K]

/-- The cell is turned inside out at its lowest corner, but not at the corner across the last
axis. -/
def IsTwisted (m : Mesh K d) (c : Cell d) : Prop :=
  Cell.orientationAt (m.cornerPoints c) (Corner.low d) < 0 ∧
    0 < Cell.orientationAt (m.cornerPoints c) (Corner.low d).across

instance (m : Mesh K d) : DecidablePred m.IsTwisted := fun _ =>
  inferInstanceAs (Decidable (_ ∧ _))

theorem orientationAt_exchanged (hd : d = 2 ∨ d = 3) (m : Mesh K d) (c : Cell d) :
    Cell.orientationAt (m.cornerPoints c.exchanged) (Corner.low d) =
      -Cell.orientationAt (m.cornerPoints c) (Corner.low d).across := by
  obtain ⟨e, rfl⟩ : ∃ e, d = e + 1 := ⟨d - 1, by omega⟩
  rw [Corner.across_eq_flip]
  refine Cell.orientationAt_flip (Fin.last e) _ fun v => ?_
  rw [get_cornerPoints, get_cornerPoints, Cell.get_exchanged, Corner.across_eq_flip]

end Mesh

/-! ## Cells of a file -/

namespace Msh

variable [Field K] [LinearOrder K] [IsStrictOrderedRing K]

/-- After its halves were exchanged where that seems right, a cell is turned inside out exactly
if it was so at one of the two corners that may become the first. -/
theorem isInverted_oriented (hd : d = 2 ∨ d = 3) {m : Mesh K d} {vertices : Array (Point K d)}
    (hvertices : m.vertices = vertices) (c : Cell d) :
    m.isInverted (Gathered.oriented vertices c) = true ↔ m.IsTwisted c := by
  have hpoints : Mesh.cornerPoints (K := K) { vertices } c = m.cornerPoints c := by
    rw [← hvertices]
    rfl
  rw [Mesh.isInverted_iff hd, Mesh.IsTwisted, Gathered.oriented, hpoints,
    Cell.orientation_eq (Or.inr hd), Nat.cast_zero]
  split
  next hnegative =>
    show Cell.orientationAt (m.cornerPoints c.exchanged) _ < 0 ↔ _
    rw [Mesh.orientationAt_exchanged hd, neg_lt_zero, and_iff_right hnegative]
  next hpositive => exact iff_of_false hpositive fun h => hpositive h.1

variable [Numeral K] [SquareRoot K]

/-- A cell of a file becomes a cell of the mesh that is not turned inside out at its first corner,
unless in the file it is so at the first corner but not at the one across the last axis.  The
inspection finds exactly these cells. -/
theorem read_inverted {bytes : List UInt8} {m : Mesh K d} (h : read d bytes = .ok m) :
    ∃ g, ({} : Gathered K d).after? (Line.ofBytes bytes) = some g ∧
      List.Forall₂ (fun raw c => (c = raw ∨ c = raw.exchanged) ∧
        (0 ≤ Cell.orientation (m.cornerPoints c) ↔ ¬m.IsTwisted raw)) g.cells.toList m.cells ∧
      m.inspect.inverted = g.cells.toList.countP (m.IsTwisted ·) := by
  have hd := dimension_of_read h
  obtain ⟨g, hg, -, rfl⟩ := (read_eq_ok_iff hd).mp h
  have hvertices : g.mesh.vertices = g.vertices := by rw [Gathered.mesh_eq]
  have hcells : g.mesh.cells = g.cells.toList.map (Gathered.oriented g.vertices) := by
    rw [Gathered.mesh_eq]
  refine ⟨g, hg, ?_, ?_⟩
  · rw [hcells, List.forall₂_map_right_iff]
    refine List.forall₂_same.mpr fun raw _ => ⟨oriented_cases g.vertices raw, ?_⟩
    rw [← isInverted_oriented hd hvertices, Mesh.isInverted, decide_eq_true_iff, not_lt,
      Nat.cast_zero]
  · rw [Mesh.inverted_inspect, hcells, List.countP_map]
    refine List.countP_congr fun raw _ => ?_
    rw [Function.comp_apply, isInverted_oriented hd hvertices, decide_eq_true_iff]

/-- A quadrangle with its first node at the corner that points inward, and a square whose nodes
are listed clockwise. -/
def dartFile : List (List Char) :=
  ["$MeshFormat", "2.2 0 8", "$EndMeshFormat", "$Nodes", "8", "1 1 1 0", "2 0 3 0", "3 0 0 0",
    "4 3 0 0", "5 5 0 0", "6 5 1 0", "7 6 1 0", "8 6 0 0", "$EndNodes", "$Elements", "2",
    "1 3 2 0 1 1 2 3 4", "2 3 2 0 1 5 6 7 8", "$EndElements"].map String.toList

theorem read_inverted_dart : ∃ m : Mesh ℚ 2, read 2 (Line.toBytes dartFile) = .ok m ∧
    ∃ g, ({} : Gathered ℚ 2).after? (Line.ofBytes (Line.toBytes dartFile)) = some g ∧
      List.Forall₂ (fun raw c => (c = raw ∨ c = raw.exchanged) ∧
        (0 ≤ Cell.orientation (m.cornerPoints c) ↔ ¬m.IsTwisted raw)) g.cells.toList m.cells ∧
      m.inspect.inverted = g.cells.toList.countP (m.IsTwisted ·) ∧ m.cells.length = 2 := by
  have hcells : (read (K := ℚ) 2 (Line.toBytes dartFile)).toOption.map (·.cells.length) =
      some 2 := by
    rw [read, Line.ofBytes_toBytes (by decide)]
    decide +kernel
  obtain ⟨m, hread, hlength⟩ := Option.map_eq_some_iff.mp hcells
  have hm := toOption_eq_some_iff.mp hread
  obtain ⟨g, hg, hforall, hinverted⟩ := read_inverted hm
  exact ⟨m, hm, g, hg, hforall, hinverted, hlength⟩

/-- The square is turned over and the other quadrangle is left with a negative orientation. -/
theorem read_dartFile : ∃ m : Mesh ℚ 2, read 2 (Line.toBytes dartFile) = .ok m ∧
    m.cells.map (fun c => Cell.orientation (m.cornerPoints c)) = [-3, 1] ∧
    m.inspect.inverted = 1 := by
  have hcells : (read (K := ℚ) 2 (Line.toBytes dartFile)).toOption.map (fun m =>
      (m.cells.map (fun c => Cell.orientation (m.cornerPoints c)), m.inspect.inverted)) =
      some ([-3, 1], 1) := by
    rw [read, Line.ofBytes_toBytes (by decide)]
    decide +kernel
  obtain ⟨m, hread, hm⟩ := Option.map_eq_some_iff.mp hcells
  obtain ⟨horientation, hinverted⟩ := Prod.mk.inj hm
  exact ⟨m, toOption_eq_some_iff.mp hread, horientation, hinverted⟩

end Msh
end HexMesh
