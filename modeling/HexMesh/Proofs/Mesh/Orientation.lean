import Mathlib.LinearAlgebra.Matrix.Determinant.Basic
import HexMesh.Proofs.Geometry.Average
import HexMesh.Proofs.Mesh.Cell
import HexMesh.Proofs.Mesh.Measure

/-!
Orientation of a cell at its corners.

The program looks at the edges of a cell at its lowest corner only.  Here the orientation is
taken at any corner, with the edges along the axes from the low to the high side, so that it has
the same sign at all corners of a cell that is nowhere turned inside out.
-/

namespace HexMesh

open HexMesh.Cube

variable {K : Type} {d : Nat}

/-! ## Edges at a corner -/

namespace Cube.Corner

/-- The end of the edge at a corner along an axis. -/
def toward (v : Corner d) (axis : Fin d) (last : Bool) : Corner d :=
  ofHigh (Function.update (fun a : Fin d => v.high a) axis last)

theorem high_toward (v : Corner d) (axis : Fin d) (last : Bool) (a : Fin d) :
    (v.toward axis last).high a = if a = axis then last else v.high a := by
  rw [toward, high_ofHigh, Function.update_apply]

/-- Along other axes the edge at the corner across starts and ends across. -/
theorem toward_flip_of_ne (v : Corner d) {axis a : Fin d} (h : a ≠ axis) (last : Bool) :
    (v.toward a last).flip axis = (v.flip axis).toward a last := by
  refine ext_high fun b => ?_
  rw [high_flip, high_toward, high_toward, high_flip]
  by_cases hb : b = axis
  · have hne : b ≠ a := fun he => h (he.symm.trans hb)
    rw [if_pos hb, if_neg hne, if_neg hne, if_pos hb]
  · rw [if_neg hb, if_neg hb]

/-- Along the axis itself it is the same edge. -/
theorem toward_flip_self (v : Corner d) (axis : Fin d) (last : Bool) :
    (v.toward axis last).flip axis = (v.flip axis).toward axis !last := by
  refine ext_high fun b => ?_
  rw [high_flip, high_toward, high_toward, high_flip]
  by_cases hb : b = axis
  · rw [if_pos hb, if_pos hb, if_pos hb]
  · rw [if_neg hb, if_neg hb, if_neg hb, if_neg hb]

end Cube.Corner

namespace Cell

variable [Field K] [LinearOrder K] {corners corners' : Vector (Point K d) (cornerCount d)}

/-- The edges of a cell at a corner, one row for each axis, from the low to the high side. -/
def edgesAt (corners : Vector (Point K d) (cornerCount d)) (v : Corner d) :
    Matrix (Fin d) (Fin d) K :=
  Matrix.of fun a i => (corners.get (v.toward a true)).coords.get i -
    (corners.get (v.toward a false)).coords.get i

/-- The determinant of the edges of a cell at a corner. -/
def orientationAt (corners : Vector (Point K d) (cornerCount d)) (v : Corner d) : K :=
  (edgesAt corners v).det

/-- Every corner is there to be looked up. -/
theorem getD_corner (corners : Vector (Point K d) (cornerCount d)) (v : Corner d) :
    (corners[v.val]?).getD Point.origin = corners.get v := by
  rw [Vector.getElem?_eq_getElem v.isLt]
  rfl

/-- In the dimensions that meshes have, the orientation is that at the lowest corner. -/
theorem orientation_eq (hd : d = 1 ∨ d = 2 ∨ d = 3)
    (corners : Vector (Point K d) (cornerCount d)) :
    orientation corners = orientationAt corners (Corner.low d) := by
  have hhigh (a b : Fin d) : (Corner.low d).high b = false := Nat.zero_testBit _
  have hstart (a : Fin d) : (Corner.low d).toward a false = Corner.low d :=
    Corner.ext_high fun b => by rw [Corner.high_toward, hhigh a, ite_self]
  have hend (a : Fin d) : (Corner.low d).toward a true = (Corner.low d).flip a :=
    Corner.ext_high fun b => by
      rw [Corner.high_toward, Corner.high_flip, hhigh a, Bool.not_false]
  have hval (a : Fin d) : ((Corner.low d).flip a).val = Nat.pow 2 a := Nat.zero_xor _
  have hedge (a i : Fin d) : edgesAt corners (Corner.low d) a i =
      ((((corners[Nat.pow 2 a]?).getD Point.origin -
        (corners[0]?).getD Point.origin).coords[i.val]?).getD ((0 : Nat) : K)) := by
    have hzero : (corners[0]?).getD Point.origin = corners.get (Corner.low d) :=
      getD_corner corners (Corner.low d)
    rw [← hval, getD_corner, hzero, Vector.getElem?_eq_getElem i.isLt, Option.getD_some]
    show (corners.get ((Corner.low d).toward a true)).coords.get i -
      (corners.get ((Corner.low d).toward a false)).coords.get i = _
    rw [hend, hstart]
    exact (Point.get_sub _ _ i).symm
  rw [orientationAt]
  rcases hd with rfl | rfl | rfl
  · rw [Matrix.det_fin_one, hedge]
    rfl
  · rw [Matrix.det_fin_two, hedge, hedge, hedge, hedge]
    rfl
  · rw [Matrix.det_fin_three]
    simp only [hedge, orientation, Fin.val_zero, Fin.val_one, Fin.val_two]
    ring

/-- Exchanging the halves along an axis turns the orientation around. -/
theorem orientationAt_flip (axis : Fin d) (v : Corner d)
    (h : ∀ w : Corner d, corners'.get w = corners.get (w.flip axis)) :
    orientationAt corners' v = -orientationAt corners (v.flip axis) := by
  have hrows : edgesAt corners' v =
      (edgesAt corners (v.flip axis)).updateRow axis
        ((-1 : K) • edgesAt corners (v.flip axis) axis) := by
    ext a i
    rw [Matrix.updateRow_apply]
    by_cases ha : a = axis
    · subst ha
      rw [if_pos rfl]
      simp only [edgesAt, Matrix.of_apply, Pi.smul_apply, h, Corner.toward_flip_self, smul_eq_mul,
        Bool.not_true, Bool.not_false]
      ring
    · rw [if_neg ha]
      simp only [edgesAt, Matrix.of_apply, h, Corner.toward_flip_of_ne _ ha]
  rw [orientationAt, hrows, Matrix.det_updateRow_smul, Matrix.updateRow_eq_self, orientationAt,
    neg_one_mul]

end Cell

/-! ## Cells of a mesh -/

namespace Mesh

@[simp] theorem get_cornerPoints [Scalar K] (m : Mesh K d) (c : Cell d) (v : Corner d) :
    (m.cornerPoints c).get v = m.position (c.get v) := Vector.getElem_map _ v.isLt

variable [Field K] [LinearOrder K] {m : Mesh K d} {c : Cell d}

theorem isInverted_iff (hd : d = 2 ∨ d = 3) :
    m.isInverted c = true ↔ Cell.orientationAt (m.cornerPoints c) (Corner.low d) < 0 := by
  rw [isInverted, decide_eq_true_iff, Cell.orientation_eq (Or.inr hd), Nat.cast_zero]

theorem inverted_inspect [SquareRoot K] (m : Mesh K d) :
    m.inspect.inverted = m.cells.countP m.isInverted := by
  show (m.cells.filter m.hasCoordinates).countP m.isInverted = _
  rw [filter_hasCoordinates]

end Mesh
end HexMesh
