import Mathlib.LinearAlgebra.Matrix.Determinant.Basic
import Mathlib.Tactic.FieldSimp
import HexMesh.Proofs.Extrusion.Pieces
import HexMesh.Proofs.Mesh.Simplices
import HexMesh.Proofs.Refinement.Convexity

/-!
Measures of cells in exact arithmetic.

With no pivot but zero below the cut-off, the measure of a cell is the determinant of a
parallelepiped, the area of any quadrilateral, and for a hexahedron between two layers the area
of the cell below it times the distance of the layers.
-/

namespace HexMesh

open HexMesh.Cube

variable {K : Type} {d : Nat}

namespace Cell

variable [Field K] [LinearOrder K]

/-! ## Simplices in the plane and in space -/

/-- The determinant of the edges that lead from the lowest corner to some others. -/
def span (corners : Vector (Point K d) (cornerCount d)) (ends : Fin d → Corner d) : K :=
  (Matrix.of fun k j => (corners.get (ends k)).coords.get j -
    (corners.get (Corner.low d)).coords.get j).det

theorem det_simplexMatrix {corners : Vector (Point K d) (cornerCount d)} {axes : List Nat}
    {ends : Fin d → Corner d} (haxes : axes ∈ Ordering.all d)
    (hends : (fun k : Fin d => along d (axes.take (k + 1))) = ends) :
    (simplexMatrix corners axes).det = span corners ends := by
  refine congrArg Matrix.det (Matrix.ext fun k j => ?_)
  rw [simplexMatrix_apply haxes, ← hends]
  rfl

theorem sum_simplices_plane (corners : Vector (Point K 2) (cornerCount 2)) :
    ((Ordering.all 2).map fun axes =>
      Ordering.sign axes * ((simplexMatrix corners axes).det / factorial 2)).sum =
        (span corners ![1, 3] - span corners ![2, 3]) / 2 := by
  have hall : Ordering.all 2 = [[1, 0], [0, 1]] := by decide
  have hsign : (Ordering.sign [0, 1] : K) = 1 ∧ (Ordering.sign [1, 0] : K) = -1 := by
    simp [Ordering.sign, Ordering.inversions]
  have hright : (simplexMatrix corners [0, 1]).det = span corners ![1, 3] :=
    det_simplexMatrix (by decide) (by decide)
  have hleft : (simplexMatrix corners [1, 0]).det = span corners ![2, 3] :=
    det_simplexMatrix (by decide) (by decide)
  rw [hall]
  simp only [List.map_cons, List.map_nil, List.sum_cons, List.sum_nil, hsign, hright, hleft,
    factorial_eq, Nat.factorial]
  norm_num
  ring

theorem sum_simplices_space (corners : Vector (Point K 3) (cornerCount 3)) :
    ((Ordering.all 3).map fun axes =>
      Ordering.sign axes * ((simplexMatrix corners axes).det / factorial 3)).sum =
        (span corners ![1, 3, 7] - span corners ![1, 5, 7] + span corners ![4, 5, 7] -
          span corners ![4, 6, 7] + span corners ![2, 6, 7] - span corners ![2, 3, 7]) / 6 := by
  have hall : Ordering.all 3 =
      [[2, 1, 0], [1, 2, 0], [1, 0, 2], [2, 0, 1], [0, 2, 1], [0, 1, 2]] := by decide
  have heven : (Ordering.sign [0, 1, 2] : K) = 1 ∧ (Ordering.sign [1, 2, 0] : K) = 1 ∧
      (Ordering.sign [2, 0, 1] : K) = 1 := by
    simp [Ordering.sign, Ordering.inversions]
  have hodd : (Ordering.sign [0, 2, 1] : K) = -1 ∧ (Ordering.sign [1, 0, 2] : K) = -1 ∧
      (Ordering.sign [2, 1, 0] : K) = -1 := by
    simp [Ordering.sign, Ordering.inversions]
  have hdets : (simplexMatrix corners [0, 1, 2]).det = span corners ![1, 3, 7] ∧
      (simplexMatrix corners [0, 2, 1]).det = span corners ![1, 5, 7] ∧
      (simplexMatrix corners [2, 0, 1]).det = span corners ![4, 5, 7] ∧
      (simplexMatrix corners [2, 1, 0]).det = span corners ![4, 6, 7] ∧
      (simplexMatrix corners [1, 2, 0]).det = span corners ![2, 6, 7] ∧
      (simplexMatrix corners [1, 0, 2]).det = span corners ![2, 3, 7] := by
    refine ⟨?_, ?_, ?_, ?_, ?_, ?_⟩ <;> exact det_simplexMatrix (by decide) (by decide)
  rw [hall]
  simp only [List.map_cons, List.map_nil, List.sum_cons, List.sum_nil, heven, hodd, hdets,
    factorial_eq, Nat.factorial]
  norm_num
  ring

/-- Twice the area is what the two triangles on the diagonal span. -/
theorem signedArea_eq_span (corners : Vector (Point K 2) (cornerCount 2)) :
    signedArea corners = (span corners ![1, 3] - span corners ![2, 3]) / 2 := by
  have hfirst (v : Corner 2) : (corners.get v).abscissa = (corners.get v).coords.get 0 := rfl
  have hsecond (v : Corner 2) : (corners.get v).ordinate = (corners.get v).coords.get 1 := rfl
  have hlow : Corner.low 2 = 0 := rfl
  simp only [signedArea, span, Matrix.det_fin_two, Matrix.of_apply, hfirst, hsecond, hlow,
    Matrix.cons_val_zero, Matrix.cons_val_one, Nat.cast_ofNat]
  ring

/-- The corners are those of a prism: those of a base, at one height and at another one. -/
structure IsPrism (base : Vector (Point K 2) (cornerCount 2)) (low thickness : K)
    (corners : Vector (Point K 3) (cornerCount 3)) : Prop where
  first : ∀ v : Corner 3, (corners.get v).coords.get 0 = (base.get v.base).coords.get 0
  second : ∀ v : Corner 3, (corners.get v).coords.get 1 = (base.get v.base).coords.get 1
  third : ∀ v : Corner 3,
    (corners.get v).coords.get 2 = low + if v.high 2 then thickness else 0

variable {base : Vector (Point K 2) (cornerCount 2)} {low thickness : K}
  {corners : Vector (Point K 3) (cornerCount 3)}

/-- The three simplices over one triangle of the base span the same. -/
theorem IsPrism.span_eq (h : IsPrism base low thickness corners) :
    (span corners ![1, 3, 7] = thickness * span base ![1, 3] ∧
      span corners ![1, 5, 7] = -(thickness * span base ![1, 3]) ∧
      span corners ![4, 5, 7] = thickness * span base ![1, 3]) ∧
    span corners ![2, 3, 7] = thickness * span base ![2, 3] ∧
      span corners ![2, 6, 7] = -(thickness * span base ![2, 3]) ∧
      span corners ![4, 6, 7] = thickness * span base ![2, 3] := by
  have hbase : (0 : Corner 3).base = 0 ∧ (1 : Corner 3).base = 1 ∧ (2 : Corner 3).base = 2 ∧
      (3 : Corner 3).base = 3 ∧ (4 : Corner 3).base = 0 ∧ (5 : Corner 3).base = 1 ∧
      (6 : Corner 3).base = 2 ∧ (7 : Corner 3).base = 3 := by decide
  have hhigh : (0 : Corner 3).high 2 = false ∧ (1 : Corner 3).high 2 = false ∧
      (2 : Corner 3).high 2 = false ∧ (3 : Corner 3).high 2 = false ∧
      (4 : Corner 3).high 2 = true ∧ (5 : Corner 3).high 2 = true ∧
      (6 : Corner 3).high 2 = true ∧ (7 : Corner 3).high 2 = true := by decide
  have hlow : Corner.low 3 = 0 ∧ Corner.low 2 = 0 := ⟨rfl, rfl⟩
  simp only [span, Matrix.det_fin_two, Matrix.det_fin_three, Matrix.of_apply, Matrix.cons_val,
    hlow, h.first, h.second, h.third, hbase, hhigh, Bool.false_eq_true, if_false, if_true]
  refine ⟨⟨?_, ?_, ?_⟩, ?_, ?_, ?_⟩ <;> ring

/-! ## Measures -/

variable [IsStrictOrderedRing K]

theorem sum_simplices_prism (h : IsPrism base low thickness corners) :
    ((Ordering.all 3).map fun axes =>
      Ordering.sign axes * ((simplexMatrix corners axes).det / factorial 3)).sum =
        thickness * signedArea base := by
  rw [sum_simplices_space, signedArea_eq_span]
  simp only [h.span_eq]
  field_simp
  ring

theorem measure_image {corners : Vector (Point K d) (cornerCount d)}
    {linear : Matrix (Fin d) (Fin d) K} {shift : Point K d} (h : IsImage linear shift corners)
    (hclear : PivotsClear Scalar.epsilon corners) : measure corners = |linear.det| := by
  rw [measure_eq_sum_det hclear, sum_simplices_image h]

theorem measure_plane {corners : Vector (Point K 2) (cornerCount 2)}
    (hclear : PivotsClear Scalar.epsilon corners) : measure corners = |signedArea corners| := by
  rw [measure_eq_sum_det hclear, sum_simplices_plane, signedArea_eq_span]

theorem measure_prism (h : IsPrism base low thickness corners)
    (hclear : PivotsClear Scalar.epsilon corners) :
    measure corners = |thickness * signedArea base| := by
  rw [measure_eq_sum_det hclear, sum_simplices_prism h]

end Cell

/-! ## Cells of a mesh -/

namespace Mesh

variable [Field K] [LinearOrder K]

theorem Stacks.isPrism {m : Mesh K 2} {m' : Mesh K 3} {slices : Nat} {height : K}
    (h : m.Stacks slices height m') (hm : m.CellsValid) {k : Nat} (hk : k < slices - 1)
    {c : Cell 2} (hc : c ∈ m.cells) :
    Cell.IsPrism (m.cornerPoints c) (height * k / ((slices - 1 : Nat) : K))
      (height / ((slices - 1 : Nat) : K)) (m'.cornerPoints (m.hexahedron k c)) := by
  have hposition (v : Corner 3) : (m'.cornerPoints (m.hexahedron k c)).get v =
      .xyz (m.position (c.get v.base)).abscissa (m.position (c.get v.base)).ordinate
        (height * ((k + (v.high 2).toNat : Nat) : K) / ((slices - 1 : Nat) : K)) := by
    have hside := (v.high 2).toNat_le
    rw [get_cornerPoints, get_hexahedron, h.position _ (by omega) _ (hm c hc _ (c.get_mem _))]
  refine ⟨fun v => ?_, fun v => ?_, fun v => ?_⟩
  · rw [hposition, get_cornerPoints]
    rfl
  · rw [hposition, get_cornerPoints]
    rfl
  · rw [hposition]
    show height * ((k + (v.high 2).toNat : Nat) : K) / _ = _
    cases v.high 2 with
    | false => simp
    | true =>
      rw [Bool.toNat_true, Nat.cast_add, Nat.cast_one, mul_add, mul_one, add_div, if_pos rfl]

variable [IsStrictOrderedRing K]

/-- The measure in exact arithmetic, where no pivot but zero is below the cut-off: that of a
parallelepiped is its determinant, and would be with any other choice of the pivots; that of a
quadrilateral, convex or not, is its area; and a hexahedron of an extruded mesh has the measure
of the cell below it times the distance of two layers.  A mesh can be extruded if there are two
more indicators for its bottom and its top. -/
theorem cellMeasure_exact :
    (∀ (d : Nat) (m : Mesh K d) (c : Cell d) (linear : Matrix (Fin d) (Fin d) K)
      (shift : Point K d), Cell.IsImage linear shift (m.cornerPoints c) →
      (Cell.PivotsClear Scalar.epsilon (m.cornerPoints c) → m.cellMeasure c = |linear.det|) ∧
      (∀ axes ∈ Ordering.all d, ∃ x,
        Elimination.Eliminates d (Cell.simplexRows (m.cornerPoints c) axes) x) ∧
      ∀ x : List Nat → K, (∀ axes ∈ Ordering.all d,
          Elimination.Eliminates d (Cell.simplexRows (m.cornerPoints c) axes) (x axes)) →
        |((Ordering.all d).map fun axes =>
          Ordering.sign axes * (x axes / factorial d)).sum| = |linear.det|) ∧
    (∀ (m : Mesh K 2) (c : Cell 2), Cell.PivotsClear Scalar.epsilon (m.cornerPoints c) →
      m.cellMeasure c = |Cell.signedArea (m.cornerPoints c)|) ∧
    ∀ (m : Mesh K 2) (slices : Nat) (height : K), m.CellsValid → 2 ≤ slices → 0 < height →
      ((∃ m', m.extrude slices height = .ok m') ↔ m.maxIndicator.toNat + 2 < 2 ^ 32) ∧
      ∀ m', m.extrude slices height = .ok m' →
        ∀ (j : Nat) (c' : Cell 3), m'.cells[j]? = some c' →
          ∃ c, m.cells[j % m.cells.length]? = some c ∧
            (Cell.PivotsClear Scalar.epsilon (m.cornerPoints c) →
              Cell.PivotsClear Scalar.epsilon (m'.cornerPoints c') →
              m'.cellMeasure c' = height / ((slices - 1 : Nat) : K) * m.cellMeasure c) := by
  refine ⟨fun d m c linear shift himage => ⟨Cell.measure_image himage, fun axes haxes =>
    Elimination.exists_eliminates (Cell.square_simplexRows _ haxes), fun x hx => ?_⟩,
    fun m c hclear => Cell.measure_plane hclear, fun m slices height hm hslices hheight => ?_⟩
  · have hdet : ∀ axes ∈ Ordering.all d, Ordering.sign axes * (x axes / factorial d) =
        Ordering.sign axes *
          ((Cell.simplexMatrix (m.cornerPoints c) axes).det / factorial d) := by
      intro axes haxes
      rw [(hx axes haxes).eq_det (Cell.square_simplexRows _ haxes)]
      rfl
    rw [List.map_congr_left hdet, Cell.sum_simplices_image himage]
  · have hpositive : ¬height ≤ ((0 : Nat) : K) := by
      rw [Nat.cast_zero]
      exact hheight.not_ge
    refine ⟨exists_extrude_iff hslices hpositive, fun m' hm' j c' hc' => ?_⟩
    have hstacks := stacks_of_extrude hm'
    obtain ⟨k, hk, i, c, hc, rfl, rfl⟩ := hstacks.exists_hexahedron hc'
    have hi : i < m.cells.length := (List.getElem?_eq_some_iff.mp hc).1
    refine ⟨c, ?_, fun hclear hclear' => ?_⟩
    · rw [Nat.mul_add_mod_of_lt hi, hc]
    · have hthick : 0 ≤ height / ((slices - 1 : Nat) : K) :=
        div_nonneg hheight.le (Nat.cast_nonneg _)
      have hprism := hstacks.isPrism hm hk (List.mem_of_getElem? hc)
      rw [cellMeasure, Cell.measure_prism hprism hclear', cellMeasure, Cell.measure_plane hclear,
        abs_mul, abs_of_nonneg hthick]

/-- A quadrilateral with a corner that is turned in. -/
def dart : Mesh ℚ 2 :=
  { vertices := #[.xy 4 0, .xy 0 4, .xy 0 0, .xy 1 1]
    cells := [#v[2, 0, 1, 3]] }

/-- A sheared brick. -/
def shearedBrick : Mesh ℚ 3 :=
  { vertices := #[.xyz 4 4 6, .xyz 2 4 6, .xyz 3 1 6, .xyz 1 1 6, .xyz 4 3 5, .xyz 2 3 5,
      .xyz 3 0 5, .xyz 1 0 5]
    cells := [#v[7, 6, 5, 4, 3, 2, 1, 0]] }

theorem cellMeasure_exact_shearedBrick :
    Cell.IsImage !![2, 1, 0; 0, 3, 1; 0, 0, 1] (.xyz 1 0 5)
        (shearedBrick.cornerPoints #v[7, 6, 5, 4, 3, 2, 1, 0]) ∧
      Cell.PivotsClear Scalar.epsilon (shearedBrick.cornerPoints #v[7, 6, 5, 4, 3, 2, 1, 0]) ∧
      shearedBrick.cellMeasure #v[7, 6, 5, 4, 3, 2, 1, 0] = 6 ∧
    dart.CellsValid ∧ 2 ≤ 3 ∧ (0 : ℚ) < 5 ∧
      Cell.PivotsClear Scalar.epsilon (dart.cornerPoints #v[2, 0, 1, 3]) ∧
      dart.cellMeasure #v[2, 0, 1, 3] = 4 ∧
      ∃ m', dart.extrude 3 5 = .ok m' ∧ ∀ c' ∈ m'.cells,
        Cell.PivotsClear Scalar.epsilon (m'.cornerPoints c') ∧ m'.cellMeasure c' = 5 / 2 * 4 := by
  have himage : Cell.IsImage !![2, 1, 0; 0, 3, 1; 0, 0, 1] (.xyz 1 0 5)
      (shearedBrick.cornerPoints #v[7, 6, 5, 4, 3, 2, 1, 0]) := by
    intro v
    refine Point.ext_get fun a => ?_
    revert v a
    decide +kernel
  have hbrick : Cell.PivotsClear Scalar.epsilon
      (shearedBrick.cornerPoints #v[7, 6, 5, 4, 3, 2, 1, 0]) := by decide +kernel
  have hvalid : dart.CellsValid := by decide
  have hdart : Cell.PivotsClear Scalar.epsilon (dart.cornerPoints #v[2, 0, 1, 3]) := by
    decide +kernel
  have harea : |Cell.signedArea (dart.cornerPoints #v[2, 0, 1, 3])| = 4 := by decide +kernel
  obtain ⟨hparallelepiped, hplane, hextrude⟩ := cellMeasure_exact (K := ℚ)
  have hmeasure : dart.cellMeasure #v[2, 0, 1, 3] = 4 := (hplane dart _ hdart).trans harea
  obtain ⟨hexists, hcells⟩ := hextrude dart 3 5 hvalid (by decide) (by norm_num)
  obtain ⟨m', hm'⟩ := hexists.mpr (by decide +kernel)
  replace hcells := hcells m' hm'
  have hclear : (match dart.extrude 3 5 with
      | .ok m => m.cells.all fun c => decide (Cell.PivotsClear Scalar.epsilon (m.cornerPoints c))
      | .error _ => false) = true := by decide +kernel
  rw [hm'] at hclear
  refine ⟨himage, hbrick, ?_, hvalid, by decide, by norm_num, hdart, hmeasure, m', hm',
    fun c' hc' => ?_⟩
  · rw [(hparallelepiped 3 shearedBrick _ _ _ himage).1 hbrick, Matrix.det_fin_three]
    decide +kernel
  · have hclear' := of_decide_eq_true (List.all_eq_true.mp hclear c' hc')
    obtain ⟨j, hj⟩ := List.mem_iff_getElem?.mp hc'
    obtain ⟨c, hc, hprism⟩ := hcells j c' hj
    obtain rfl : c = #v[2, 0, 1, 3] := List.mem_singleton.mp (List.mem_of_getElem? hc)
    refine ⟨hclear', (hprism hdart hclear').trans ?_⟩
    rw [hmeasure]
    norm_num

end Mesh
end HexMesh
