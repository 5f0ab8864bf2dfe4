import Mathlib.Algebra.BigOperators.Fin
import Mathlib.Algebra.BigOperators.Field
import Mathlib.Algebra.Field.Rat
import Mathlib.Algebra.Order.Ring.Rat
import Mathlib.LinearAlgebra.Matrix.Defs
import Mathlib.LinearAlgebra.Matrix.Notation
import HexMesh.Proofs.Geometry.Average
import HexMesh.Proofs.Number.Rational
import HexMesh.Proofs.Refinement.Boundary

/-!
Refining a mesh that was moved.

Where no part of the boundary has a shape, a new vertex is the mean of vertices.  So a map that
takes means to means may be applied before a refinement or after it, and affine maps are of this
kind.  Nothing else in a refined mesh depends on positions: the keys of the new vertices, and with
them all numbers, come from the cells alone.
-/

namespace HexMesh

variable {K : Type} {d : Nat} [Field K] [LinearOrder K]

/-! ## Maps that keep means -/

namespace Point

/-- A linear map, given by its matrix, and a shift after it. -/
def affine (linear : Matrix (Fin d) (Fin d) K) (shift p : Point K d) : Point K d :=
  ofFn fun a => ∑ b, linear a b * p.coords.get b + shift.coords.get a

/-- The image of the mean of some points is the mean of their images. -/
def KeepsMeans (f : Point K d → Point K d) : Prop :=
  ∀ ps ≠ [], average (ps.map f) = f (average ps)

variable (linear : Matrix (Fin d) (Fin d) K) (shift : Point K d)

theorem sum_map_affine (ps : List (Point K d)) (a : Fin d) :
    ((ps.map (affine linear shift)).map (·.coords.get a)).sum =
      ∑ b, linear a b * (ps.map (·.coords.get b)).sum + ps.length * shift.coords.get a := by
  induction ps with
  | nil => simp
  | cons p rest ih =>
    simp only [List.map_cons, List.sum_cons, ih, affine, get_ofFn, mul_add, Finset.sum_add_distrib,
      List.length_cons, Nat.cast_add, Nat.cast_one, add_mul, one_mul]
    ring

theorem keepsMeans_affine [IsStrictOrderedRing K] : KeepsMeans (affine linear shift) := by
  intro ps hps
  have hcount : (ps.length : K) ≠ 0 :=
    Nat.cast_ne_zero.mpr (List.length_eq_zero_iff.not.mpr hps)
  refine ext_get fun a => ?_
  rw [get_average, sum_map_affine, List.length_map, add_div, mul_div_cancel_left₀ _ hcount,
    Finset.sum_div, affine, get_ofFn]
  congr 1
  refine Finset.sum_congr rfl fun b _ => ?_
  rw [get_average, mul_div_assoc]

end Point

/-! ## Refinement of a moved mesh -/

namespace Mesh

variable {m : Mesh K d} {f : Point K d → Point K d}

omit [Field K] [LinearOrder K] in
/-- The vertices at the corners of a child do not depend on where they lie. -/
theorem childCell_transform (m : Mesh K d) (f : Point K d → Point K d) :
    (m.transform f).childCell (m.transform f).newKeys = m.childCell m.newKeys := by
  have hsize : (m.transform f).vertices.size = m.vertices.size := Array.size_map
  funext c child
  show Cell.ofFn (fun v => (m.transform f).vertexOfKey m.newKeys _) = _
  unfold childCell vertexOfKey
  rw [hsize]

theorem position_transform {v : Nat} (hv : v < m.vertices.size) :
    (m.transform f).position v = f (m.position v) := by
  rw [position, transform, Array.getElem?_map, position_eq hv]
  rfl

theorem newPosition_transform (hf : Point.KeepsMeans f) (hshapes : m.shapes = ∅) {k : Key}
    (hk : k ≠ []) (hlt : ∀ v ∈ k, v < m.vertices.size) :
    (m.transform f).newPosition m.curvedKeys k = f (m.newPosition m.curvedKeys k) := by
  have hparents : k.map (m.transform f).position = (k.map m.position).map f := by
    rw [List.map_map]
    exact List.map_congr_left fun v hv => position_transform (hlt v hv)
  have hflat : (m.transform f).shapes = ∅ := hshapes
  rw [newPosition_of_flat hflat, newPosition_of_flat hshapes, hparents]
  exact hf _ fun hnil => hk (List.map_eq_nil_iff.mp hnil)

theorem refineOnce_transform (hf : Point.KeepsMeans f) (hm : m.CellsValid)
    (hshapes : m.shapes = ∅) :
    (m.transform f).refineOnce = m.refineOnce.transform f := by
  have hvertices : (m.transform f).refineOnce.vertices = m.refineOnce.vertices.map f := by
    -- The curved keys of both meshes are the same, as they come from cells and indicators.
    show m.vertices.map f ++ m.newKeys.keys.map ((m.transform f).newPosition m.curvedKeys) =
      (m.vertices ++ m.newKeys.keys.map (m.newPosition m.curvedKeys)).map f
    rw [Array.map_append, Array.map_map]
    refine congrArg (m.vertices.map f ++ ·) (Array.map_congr_left fun k hk => ?_)
    have hpiece := (mem_newKeys.mp hk).1
    exact newPosition_transform hf hshapes hpiece.ne_nil (hpiece.lt_size hm)
  have hcells : (m.transform f).refineOnce.cells = m.refineOnce.cells := by
    rw [cells_refineOnce, cells_refineOnce, childCell_transform]
    rfl
  have hindicators : (m.transform f).refineOnce.indicators = m.refineOnce.indicators := by
    rw [indicators_refineOnce, indicators_refineOnce, inheritedEntries, childCell_transform]
    rfl
  exact Mesh.mk.injEq .. ▸ ⟨hvertices, hcells, hindicators, rfl⟩

/-- A mesh without shapes may be moved by an affine map before it is refined or afterwards. -/
theorem refine_affine [IsStrictOrderedRing K] (hm : m.CellsValid) (hshapes : m.shapes = ∅)
    (linear : Matrix (Fin d) (Fin d) K) (shift : Point K d) (n : Nat) :
    (m.transform (.affine linear shift)).refine n =
      (m.refine n).transform (.affine linear shift) := by
  induction n with
  | zero => rfl
  | succ n ih =>
    rw [refine_succ, refine_succ, ih]
    exact refineOnce_transform (Point.keepsMeans_affine linear shift) (cellsValid_refine hm n)
      ((m.shapes_refine n).trans hshapes)

/-- Two hexahedra with a common side, and a vertex that neither of them uses. -/
def stack : Mesh ℚ 3 :=
  { vertices := #[.xyz 7 7 7, .xyz 1 0 0, .xyz 0 1 0, .xyz 1 1 0, .xyz 0 0 1, .xyz 1 0 1,
      .xyz 0 1 1, .xyz 1 1 1, .xyz 0 0 3, .xyz 2 0 2, .xyz 0 1 2, .xyz 1 1 2, .xyz 0 0 0]
    cells := [#v[12, 1, 2, 3, 4, 5, 6, 7], #v[5, 4, 7, 6, 9, 8, 11, 10]]
    indicators := KeyMap.ofEntries [([2, 4, 6, 12], 3)] }

/-- A shear, which turns the stack over and moves it. -/
theorem refine_affine_stack :
    stack.CellsValid ∧ stack.shapes = ∅ ∧
      (stack.transform (.affine !![1, 2, 0; 0, -1, 0; 0, 1 / 3, 1] (.xyz 5 0 (-1)))).refine 2 =
        (stack.refine 2).transform (.affine !![1, 2, 0; 0, -1, 0; 0, 1 / 3, 1] (.xyz 5 0 (-1))) :=
  have hm : stack.CellsValid := by decide +kernel
  ⟨hm, rfl, refine_affine hm rfl _ _ 2⟩

end Mesh
end HexMesh
