import Mathlib.LinearAlgebra.Matrix.Block
import HexMesh.Proofs.Mesh.Determinant
import HexMesh.Proofs.Mesh.Scaling
import HexMesh.Proofs.Refinement.Affine
import HexMesh.Proofs.Topology.Ordering

/-!
The simplices of a cell.

An ordering of the axes leads from the lowest corner of the cube to the highest, and the corners
on the way span a simplex.  In a parallelepiped its edges are partial sums of the edges at the
lowest corner, taken in that order.  Partial sums do not change a determinant and the order only
its sign, which is the sign with which the simplex counts.  So all simplices contribute the same,
and there are as many as the factorial by which each is divided.
-/

namespace HexMesh

open HexMesh.Cube

variable {K : Type} {d : Nat}

theorem factorial_eq [Field K] [LinearOrder K] (n : Nat) :
    (factorial n : K) = (n.factorial : K) := by
  induction n with
  | zero => rfl
  | succ n ih =>
    rw [factorial, List.range_succ, List.foldl_append, ← factorial, ih, Nat.factorial_succ,
      Nat.mul_comm, Nat.cast_mul]
    rfl

namespace Cell

/-! ## Paths along the axes -/

/-- The corner that is reached from the lowest one along some axes. -/
def along (d : Nat) (axes : List Nat) : Corner d := Corner.ofHigh fun a => decide (a.val ∈ axes)

theorem high_along (axes : List Nat) (a : Fin d) : (along d axes).high a = decide (a.val ∈ axes) :=
  Corner.high_ofHigh _ a

theorem testBit_foldl_raise (axes : List Nat) (i : Nat) :
    (axes.foldl (fun v a => v ||| Nat.pow 2 a) 0).testBit i = decide (i ∈ axes) := by
  induction axes using List.reverseRecOn with
  | nil => exact Nat.zero_testBit i
  | append_singleton axes a ih =>
    have hpow : (Nat.pow 2 a).testBit i = decide (a = i) := Nat.testBit_two_pow
    rw [List.foldl_append, List.foldl_cons, List.foldl_nil, Nat.testBit_or, ih, hpow]
    simp only [List.mem_append, List.mem_singleton, Bool.decide_or, eq_comm]

theorem val_along {axes : List Nat} (haxes : ∀ a ∈ axes, a < d) :
    (along d axes).val = axes.foldl (fun v a => v ||| Nat.pow 2 a) 0 := by
  refine Nat.eq_of_testBit_eq fun i => ?_
  rw [testBit_foldl_raise]
  rcases Nat.lt_or_ge i d with hi | hi
  · exact high_along axes ⟨i, hi⟩
  · have hbound : (along d axes).val < 2 ^ i :=
      Nat.lt_of_lt_of_le (along d axes).isLt (Nat.pow_le_pow_right (by decide) hi)
    have hmem : i ∉ axes := fun h => Nat.not_lt.mpr hi (haxes i h)
    rw [Nat.testBit_lt_two_pow hbound, decide_eq_false hmem]

theorem path_append_singleton (axes : List Nat) (a : Nat) :
    path (axes ++ [a]) = path axes ++ [(axes ++ [a]).foldl (fun v a => v ||| Nat.pow 2 a) 0] := by
  have hlast : (axes.foldl (fun s a => (s.1 ++ [s.2 ||| Nat.pow 2 a], s.2 ||| Nat.pow 2 a))
      (([] : List Nat), 0)).2 = axes.foldl (fun v a => v ||| Nat.pow 2 a) 0 := by
    induction axes using List.reverseRecOn with
    | nil => rfl
    | append_singleton axes b ih =>
      rw [List.foldl_append, List.foldl_append, ← ih]
      rfl
  rw [List.foldl_append, ← hlast, path, List.foldl_append]
  rfl

/-- The corners on the way are reached along the first axes of the ordering. -/
theorem path_eq {axes : List Nat} (haxes : ∀ a ∈ axes, a < d) :
    path axes = (List.range axes.length).map fun k => (along d (axes.take (k + 1))).val := by
  induction axes using List.reverseRecOn with
  | nil => rfl
  | append_singleton axes a ih =>
    have hbefore : ∀ b ∈ axes, b < d := fun b hb => haxes b (List.mem_append_left _ hb)
    have hfirst : (List.range axes.length).map (fun k => (along d (axes.take (k + 1))).val) =
        (List.range axes.length).map fun k => (along d ((axes ++ [a]).take (k + 1))).val := by
      refine List.map_congr_left fun k hk => ?_
      rw [List.take_append_of_le_length (List.mem_range.mp hk)]
    have htake : (axes ++ [a]).take (axes.length + 1) = axes ++ [a] :=
      List.take_of_length_le (by simp)
    rw [path_append_singleton, ih hbefore, hfirst, List.length_append, List.length_singleton,
      List.range_succ, List.map_append, List.map_singleton, htake, val_along haxes]

/-! ## Simplices as matrices -/

variable [Field K] [LinearOrder K] {corners : Vector (Point K d) (cornerCount d)} {axes : List Nat}

/-- The edges of a simplex as the rows of a matrix. -/
def simplexMatrix (corners : Vector (Point K d) (cornerCount d)) (axes : List Nat) :
    Matrix (Fin d) (Fin d) K :=
  Elimination.toMatrix d (simplexRows corners axes)

theorem simplexRows_eq (corners : Vector (Point K d) (cornerCount d))
    (haxes : axes ∈ Ordering.all d) :
    simplexRows corners axes = (List.range d).map fun k =>
      (corners.get (along d (axes.take (k + 1))) - corners.get (Corner.low d)).coords.toList := by
  have hlt : ∀ a ∈ axes, a < d := fun a ha =>
    List.mem_range.mp ((Ordering.mem_all.mp haxes).mem_iff.mp ha)
  rw [simplexRows, path_eq hlt, Ordering.length_of_mem_all haxes, List.map_map]
  refine List.map_congr_left fun k _ => ?_
  rw [← getD_corner, ← getD_corner corners (Corner.low d)]
  rfl

theorem square_simplexRows (corners : Vector (Point K d) (cornerCount d))
    (haxes : axes ∈ Ordering.all d) : Elimination.Square d (simplexRows corners axes) := by
  rw [simplexRows_eq corners haxes]
  refine ⟨by rw [List.length_map, List.length_range], fun row hrow => ?_⟩
  obtain ⟨k, -, rfl⟩ := List.mem_map.mp hrow
  exact Vector.length_toList

theorem simplexMatrix_apply (haxes : axes ∈ Ordering.all d) (k j : Fin d) :
    simplexMatrix corners axes k j =
      (corners.get (along d (axes.take (k + 1)))).coords.get j -
        (corners.get (Corner.low d)).coords.get j := by
  have hk : k < ((List.range d).map fun k => (corners.get (along d (axes.take (k + 1))) -
      corners.get (Corner.low d)).coords.toList).length := by
    rw [List.length_map, List.length_range]
    exact k.isLt
  rw [simplexMatrix, Elimination.toMatrix_apply, simplexRows_eq corners haxes,
    List.getD_eq_getElem _ _ hk, List.getElem_map, List.getElem_range, ← Point.get_sub,
    List.getD_eq_getElem _ _ (by rw [Vector.length_toList]; exact j.isLt), Vector.getElem_toList]
  rfl

/-! ## Parallelepipeds -/

/-- A corner of the unit cube. -/
def unitCorner (v : Corner d) : Point K d := Point.ofFn fun a => if v.high a then 1 else 0

/-- The corners are those of the unit cube, moved by an affine map. -/
def IsImage (linear : Matrix (Fin d) (Fin d) K) (shift : Point K d)
    (corners : Vector (Point K d) (cornerCount d)) : Prop :=
  ∀ v : Corner d, corners.get v = Point.affine linear shift (unitCorner v)

variable {linear : Matrix (Fin d) (Fin d) K} {shift : Point K d} {σ : Equiv.Perm (Fin d)}

/-- The edges of a simplex are the partial sums of the columns in the order of the axes. -/
theorem simplexMatrix_image (h : IsImage linear shift corners)
    (haxes : Ordering.ofPerm σ ∈ Ordering.all d) :
    simplexMatrix corners (Ordering.ofPerm σ) =
      Matrix.of (fun k l : Fin d => if l ≤ k then 1 else 0) * linear.transpose.submatrix σ id := by
  have hlow (b : Fin d) : (Corner.low d).high b = false := Nat.zero_testBit _
  ext k j
  rw [simplexMatrix_apply haxes, h, h, Matrix.mul_apply]
  simp only [Point.affine, unitCorner, Point.get_ofFn, hlow, high_along, decide_eq_true_eq,
    Ordering.mem_take_ofPerm, Bool.false_eq_true, if_false, mul_zero, Finset.sum_const_zero,
    zero_add, add_sub_cancel_right]
  rw [← Equiv.sum_comp σ]
  refine Finset.sum_congr rfl fun l _ => ?_
  rw [Equiv.symm_apply_apply, mul_comm]
  rfl

theorem det_simplexMatrix_image (h : IsImage linear shift corners)
    (haxes : Ordering.ofPerm σ ∈ Ordering.all d) :
    (simplexMatrix corners (Ordering.ofPerm σ)).det = ((σ.sign : ℤ) : K) * linear.det := by
  have hsums : (Matrix.of fun k l : Fin d => if l ≤ k then (1 : K) else 0).det = 1 := by
    rw [Matrix.det_of_isLowerTriangular]
    · exact Finset.prod_eq_one fun k _ => if_pos le_rfl
    · exact fun k l hlt => if_neg (OrderDual.toDual_lt_toDual.mp hlt).not_ge
  rw [simplexMatrix_image h haxes, Matrix.det_mul, hsums, one_mul, Matrix.det_permute,
    Matrix.det_transpose]

/-! ## The measure as a sum of determinants -/

variable [IsStrictOrderedRing K]

/-- Where no pivot but zero is below the cut-off, every elimination finds its determinant. -/
theorem measure_eq_sum_det (h : PivotsClear Scalar.epsilon corners) :
    measure corners = |((Ordering.all d).map fun axes =>
      Ordering.sign axes * ((simplexMatrix corners axes).det / factorial d)).sum| := by
  rw [measure_eq, measureAbove]
  refine congrArg (|List.sum ·|) (List.map_congr_left fun axes haxes => ?_)
  rw [signedPart, Elimination.eliminateAbove_eq_det Mesh.epsilon_pos
    (square_simplexRows corners haxes) (h axes haxes)]
  rfl

/-- Every simplex of a parallelepiped counts as the same part of its determinant, so that it
does not matter how the determinants of the simplices are found. -/
theorem sum_simplices_image (h : IsImage linear shift corners) :
    ((Ordering.all d).map fun axes =>
      Ordering.sign axes * ((simplexMatrix corners axes).det / factorial d)).sum = linear.det := by
  have hpart : ∀ axes ∈ Ordering.all d, Ordering.sign axes *
      ((simplexMatrix corners axes).det / factorial d) = linear.det / (d.factorial : K) := by
    intro axes haxes
    obtain ⟨σ, rfl⟩ := Ordering.exists_ofPerm haxes
    have hsign : ((σ.sign : ℤ) : K) * ((σ.sign : ℤ) : K) = 1 := by
      rw [← Int.cast_mul, ← Units.val_mul, Int.units_mul_self, Units.val_one, Int.cast_one]
    rw [det_simplexMatrix_image h haxes, Ordering.sign_ofPerm, factorial_eq, ← mul_div_assoc,
      ← mul_assoc, hsign, one_mul]
  have hpos : (d.factorial : K) ≠ 0 := Nat.cast_ne_zero.mpr d.factorial_ne_zero
  rw [List.map_congr_left hpart, List.map_const', List.sum_replicate, Ordering.length_all,
    nsmul_eq_mul, mul_div_cancel₀ _ hpos]

end Cell
end HexMesh
