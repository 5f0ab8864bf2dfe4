import Mathlib.Algebra.BigOperators.Ring.List
import Mathlib.Data.Set.Finite.Lattice
import HexMesh.Proofs.Geometry.Length
import HexMesh.Proofs.Mesh.Orientation
import HexMesh.Proofs.Number.Rational

/-!
A mesh at another scale.

Lengths grow with the scale, and so should measures with its power, which is what makes the test
for degenerate cells a comparison of two numbers that grow alike.  The diameter does so without
exception.  The measure does so only up to the cut-off for pivots, which is the same at every scale:
where none is met below it, before or after, the same cells are degenerate, while at a scale that is
small enough every cell is.
-/

namespace HexMesh

open HexMesh.Cube

variable {K : Type} {d : Nat}

namespace Point

variable [Field K] [LinearOrder K]

theorem scale_sub (p q : Point K d) (s : K) : p.scale s - q.scale s = (p - q).scale s :=
  ext_get fun a => by rw [get_sub, get_scale, get_scale, get_scale, get_sub, sub_mul]

theorem scale_origin (s : K) : (origin : Point K d).scale s = origin :=
  ext_get fun a => by rw [get_scale, get_origin, zero_mul]

end Point

/-! ## A cell at another scale -/

namespace Cell

section Measure

variable [Field K] [LinearOrder K] {s cutoff : K}

/-- The corners with all coordinates multiplied by a number. -/
def scaled (s : K) (corners : Vector (Point K d) (cornerCount d)) :
    Vector (Point K d) (cornerCount d) :=
  corners.map fun p => p.scale s

theorem get_scaled (s : K) (corners : Vector (Point K d) (cornerCount d)) (v : Corner d) :
    (scaled s corners).get v = (corners.get v).scale s :=
  Vector.getElem_map _ v.isLt

theorem simplexRows_scaled (s : K) (corners : Vector (Point K d) (cornerCount d))
    (axes : List Nat) :
    simplexRows (scaled s corners) axes = Elimination.multiply s (simplexRows corners axes) := by
  have hcorner (v : Nat) : ((scaled s corners)[v]?).getD Point.origin =
      ((corners[v]?).getD Point.origin).scale s := by
    rw [scaled, Vector.getElem?_map]
    cases corners[v]? with
    | none => exact (Point.scale_origin s).symm
    | some p => rfl
  simp only [simplexRows, Elimination.multiply, List.map_map, hcorner, Point.scale_sub]
  exact List.map_congr_left fun v _ => Vector.toList_map

variable [IsStrictOrderedRing K]

/-- The measure at another scale is that with another cut-off. -/
theorem measureAbove_scaled (hs : 0 < s) (corners : Vector (Point K d) (cornerCount d)) :
    measureAbove cutoff (scaled s corners) = s ^ d * measureAbove (cutoff / s) corners := by
  have hpart (axes : List Nat) : signedPart cutoff (scaled s corners) axes =
      s ^ d * signedPart (cutoff / s) corners axes := by
    rw [signedPart, signedPart, simplexRows_scaled, Elimination.eliminateAbove_multiply hs,
      mul_div_assoc, mul_left_comm]
  rw [measureAbove, measureAbove, List.map_congr_left fun axes _ => hpart axes,
    List.sum_map_mul_left, abs_mul, abs_of_pos (pow_pos hs d)]

theorem pivotsClear_scaled (hs : 0 < s) {corners : Vector (Point K d) (cornerCount d)} :
    PivotsClear cutoff (scaled s corners) ↔ PivotsClear (cutoff / s) corners := by
  simp only [PivotsClear, simplexRows_scaled, Elimination.pivotsClear_multiply hs]

end Measure

theorem diameter_scaled {s : ℝ} (hs : 0 ≤ s) (corners : Vector (Point ℝ d) (cornerCount d)) :
    diameter (scaled s corners) = s * diameter corners := by
  let diagonal (corners : Vector (Point ℝ d) (cornerCount d)) (v : Corner d) : ℝ :=
    (corners.get v).distance (corners.get v.rev)
  have hdiagonal : diagonal (scaled s corners) = fun v => s * diagonal corners v := by
    funext v
    show ((scaled s corners).get v).distance ((scaled s corners).get v.rev) = _
    rw [get_scaled, get_scaled, Point.distance, Point.scale_sub, Point.norm_scale,
      abs_of_nonneg hs]
    rfl
  have hfold (vs : List (Corner d)) (x : ℝ) :
      vs.foldl (fun longest v => max longest (s * diagonal corners v)) (s * x) =
        s * vs.foldl (fun longest v => max longest (diagonal corners v)) x := by
    induction vs generalizing x with
    | nil => rfl
    | cons v rest ih => rw [List.foldl_cons, ← mul_max_of_nonneg _ _ hs, ih, List.foldl_cons]
  have hall (corners : Vector (Point ℝ d) (cornerCount d)) : diameter corners =
      ((Cube.corners d).take (cornerCount d / 2)).foldl
        (fun longest v => max longest (diagonal corners v)) 0 :=
    congrArg (List.foldl _ · _) Nat.cast_zero
  rw [hall, hall, hdiagonal, ← hfold, mul_zero]

end Cell

/-! ## A mesh at another scale -/

namespace Mesh

section Field

variable [Field K] [LinearOrder K]

/-- The mesh with all coordinates multiplied by a number. -/
def scaled (m : Mesh K d) (s : K) : Mesh K d := m.transform fun p => p.scale s

theorem cornerPoints_scaled (m : Mesh K d) (s : K) (c : Cell d) :
    (m.scaled s).cornerPoints c = Cell.scaled s (m.cornerPoints c) := by
  have hposition (v : Nat) : (m.scaled s).position v = (m.position v).scale s := by
    rw [position, scaled, transform, Array.getElem?_map, position]
    cases m.vertices[v]? with
    | none => exact (Point.scale_origin s).symm
    | some p => rfl
  rw [cornerPoints, Cell.scaled, cornerPoints, Vector.map_map]
  exact Vector.map_congr_left fun v _ => hposition v

variable [IsStrictOrderedRing K] {m : Mesh K d} {s : K}

theorem epsilon_pos : (0 : K) < Scalar.epsilon :=
  div_pos (Nat.cast_pos.mpr Nat.one_pos) (Nat.cast_pos.mpr (Nat.pow_pos (by decide)))

theorem cellMeasure_scaled (hs : 0 < s) (m : Mesh K d) (c : Cell d) :
    (m.scaled s).cellMeasure c =
      s ^ d * Cell.measureAbove (Scalar.epsilon / s) (m.cornerPoints c) := by
  rw [cellMeasure, Cell.measure_eq, cornerPoints_scaled, Cell.measureAbove_scaled hs]

theorem pivotsClear_scaled_iff (hs : 0 < s) : (m.scaled s).PivotsClear ↔
    ∀ c ∈ m.cells, Cell.PivotsClear (Scalar.epsilon / s) (m.cornerPoints c) := by
  simp only [← Cell.pivotsClear_scaled hs, ← cornerPoints_scaled]
  exact Iff.rfl

/-- At a larger scale no pivot comes to lie below the cut-off. -/
theorem PivotsClear.scaled (h : m.PivotsClear) (hs : 1 ≤ s) : (m.scaled s).PivotsClear :=
  (pivotsClear_scaled_iff (one_pos.trans_le hs)).mpr fun c hc axes haxes =>
    (h c hc axes haxes).mono (div_le_self epsilon_pos.le hs)

theorem PivotsClear.cellMeasure_scaled (h : m.PivotsClear) (hscaled : (m.scaled s).PivotsClear)
    (hs : 0 < s) {c : Cell d} (hc : c ∈ m.cells) :
    (m.scaled s).cellMeasure c = s ^ d * m.cellMeasure c := by
  have hclear := (pivotsClear_scaled_iff hs).mp hscaled c hc
  rw [Mesh.cellMeasure_scaled hs, cellMeasure, Cell.measure_eq,
    Cell.measureAbove_congr epsilon_pos (div_pos epsilon_pos hs) (h c hc) hclear]

/-- At a scale that is small enough every pivot is below the cut-off. -/
theorem exists_small_scale (m : Mesh K d) :
    ∃ s₀ > 0, ∀ s, 0 < s → s < s₀ → ∀ c ∈ m.cells, ∀ axes ∈ Ordering.all d,
      ∀ row ∈ Cell.simplexRows (Cell.scaled s (m.cornerPoints c)) axes,
        |Elimination.lead row| < Scalar.epsilon := by
  obtain ⟨bound, hbound⟩ := (m.cells.flatMap fun c => (Ordering.all d).flatMap fun axes =>
    (Cell.simplexRows (m.cornerPoints c) axes).map fun row =>
      |Elimination.lead row|).finite_toSet.bddAbove
  have hpos : 0 < max bound 1 := lt_max_of_lt_right one_pos
  refine ⟨Scalar.epsilon / max bound 1, div_pos epsilon_pos hpos,
    fun s hs hsmall c hc axes haxes row hrow => ?_⟩
  rw [Cell.simplexRows_scaled, Elimination.multiply, List.mem_map] at hrow
  obtain ⟨row, hrow, rfl⟩ := hrow
  have hle : |Elimination.lead row| ≤ max bound 1 :=
    le_max_of_le_left <| hbound <| List.mem_flatMap.mpr ⟨c, hc, List.mem_flatMap.mpr
      ⟨axes, haxes, List.mem_map.mpr ⟨row, hrow, rfl⟩⟩⟩
  rw [Elimination.lead_map, abs_mul, abs_of_pos hs]
  calc |Elimination.lead row| * s ≤ max bound 1 * s := mul_le_mul_of_nonneg_right hle hs.le
    _ < Scalar.epsilon := (lt_div_iff₀' hpos).mp hsmall

end Field

variable {m : Mesh ℝ d} {s : ℝ}

theorem cellDiameter_scaled (hs : 0 ≤ s) (m : Mesh ℝ d) (c : Cell d) :
    (m.scaled s).cellDiameter c = s * m.cellDiameter c := by
  rw [cellDiameter, cornerPoints_scaled, Cell.diameter_scaled hs]
  rfl

theorem PivotsClear.degenerate_scaled (h : m.PivotsClear) (hscaled : (m.scaled s).PivotsClear)
    (hs : 0 < s) : (m.scaled s).inspect.degenerate = m.inspect.degenerate := by
  rw [degenerate_inspect, degenerate_inspect]
  refine List.countP_congr fun c hc => ?_
  rw [isDegenerate_iff, isDegenerate_iff, h.cellMeasure_scaled hscaled hs hc,
    cellDiameter_scaled hs.le, mul_pow, mul_left_comm, mul_le_mul_iff_right₀ (pow_pos hs d)]

theorem exists_scale_degenerate (hd : 0 < d) (m : Mesh ℝ d) :
    ∃ s₀ > 0, ∀ s, 0 < s → s < s₀ → (m.scaled s).inspect.degenerate = m.cells.length := by
  obtain ⟨e, rfl⟩ := Nat.exists_eq_succ_of_ne_zero hd.ne'
  obtain ⟨s₀, hpos, hsmall⟩ := m.exists_small_scale
  refine ⟨s₀, hpos, fun s hs hlt => ?_⟩
  rw [degenerate_inspect]
  refine List.countP_eq_length.mpr fun c hc => isDegenerate_iff.mpr ?_
  rw [cellMeasure, Cell.measure_eq, cornerPoints_scaled,
    Cell.measureAbove_of_small epsilon_pos (hsmall s hs hlt c hc)]
  have hdiameter := (m.scaled s).cellDiameter_nonneg c
  rw [Nat.cast_zero] at hdiameter
  positivity

/-- At another scale all diameters are multiplied by the scale, and all measures by its power with
the cut-off for pivots divided by the scale.  If no pivot but zero is below the cut-off at either
scale, then the cut-off does not matter and the same cells are degenerate.  But at any scale that is
small enough for the mesh all cells are. -/
theorem inspect_scaled (m : Mesh ℝ d) :
    (∀ s, 0 < s →
      (∀ c, (m.scaled s).cellDiameter c = s * m.cellDiameter c ∧
        (m.scaled s).cellMeasure c =
          s ^ d * Cell.measureAbove (Scalar.epsilon / s) (m.cornerPoints c)) ∧
      (m.PivotsClear → (m.scaled s).PivotsClear →
        (∀ c ∈ m.cells, (m.scaled s).cellMeasure c = s ^ d * m.cellMeasure c) ∧
          (m.scaled s).inspect.degenerate = m.inspect.degenerate)) ∧
      (0 < d → ∃ s₀ > 0, ∀ s, 0 < s → s < s₀ →
        (m.scaled s).inspect.degenerate = m.cells.length) := by
  refine ⟨fun s hs => ⟨fun c => ⟨cellDiameter_scaled hs.le m c, cellMeasure_scaled hs m c⟩,
    fun h hscaled => ⟨fun c hc => ?_, ?_⟩⟩, fun hd => ?_⟩
  · exact h.cellMeasure_scaled hscaled hs hc
  · exact h.degenerate_scaled hscaled hs
  · exact m.exists_scale_degenerate hd

/-- A trapezoid whose pivots are all at least one. -/
noncomputable def trapezoid : Mesh ℝ 2 :=
  { vertices := #[.xy 1 1, .xy 1 (-1), .xy (-1) 0, .xy (-1) (-1)]
    cells := [#v[3, 1, 2, 0]]
    indicators := ∅ }

theorem pivotsClear_trapezoid : trapezoid.PivotsClear := by
  have hepsilon : (Scalar.epsilon : ℝ) ≤ 1 := by norm_num [Scalar.epsilon, Scalar.ratio]
  -- In both simplices the diagonal of the cell is the last row, and no other one begins larger.
  have hpair {a b : ℝ} (ha : |a| ≤ 2) (hb : 1 ≤ |b - a / 2 * 2|) :
      Elimination.PivotsClear (Scalar.epsilon : ℝ) 2 [[a, b], [2, 2]] := by
    have hrow : pivotRow [[a, b], [2, 2]] = 1 := by
      simp [pivotRow, Scalar.rank_isLE, Scalar.abs, ha]
    have hpivot : Elimination.pivot [[a, b], [2, 2]] = [2, 2] := by
      rw [Elimination.pivot, hrow]
      rfl
    have hcleared : Elimination.cleared [[a, b], [2, 2]] = [[b - a / 2 * 2]] := by
      rw [Elimination.cleared, hpivot, hrow]
      rfl
    refine Or.inr ⟨?_, ?_⟩
    · rw [hpivot]
      exact hepsilon.trans (by norm_num [Elimination.lead])
    · rw [hcleared]
      exact Or.inr ⟨hepsilon.trans hb, trivial⟩
  intro c hc axes haxes
  have hcell : c = #v[3, 1, 2, 0] := List.mem_singleton.mp hc
  have hall : Ordering.all 2 = [[1, 0], [0, 1]] := by decide
  have hpaths : Cell.path [1, 0] = [2, 3] ∧ Cell.path [0, 1] = [1, 3] := by decide
  have hdifference (x y : ℝ) : ((⟨#v[x, y]⟩ : Point ℝ 2) - ⟨#v[-1, -1]⟩).coords.toList =
      [x - -1, y - -1] := Vector.toList_zipWith
  have hrows : Cell.simplexRows (trapezoid.cornerPoints #v[3, 1, 2, 0]) [1, 0] = [[0, 1], [2, 2]] ∧
      Cell.simplexRows (trapezoid.cornerPoints #v[3, 1, 2, 0]) [0, 1] = [[2, 0], [2, 2]] := by
    norm_num [Cell.simplexRows, hpaths, cornerPoints, trapezoid, position, Point.xy, hdifference]
  rw [hall, List.mem_pair] at haxes
  rw [hcell]
  rcases haxes with rfl | rfl
  · rw [hrows.1]
    exact hpair (by norm_num) (by norm_num)
  · rw [hrows.2]
    exact hpair (by norm_num) (by norm_num)

theorem inspect_scaled_trapezoid :
    (0 : ℝ) < 3 ∧ trapezoid.PivotsClear ∧ (trapezoid.scaled 3).PivotsClear ∧
      (trapezoid.scaled 3).cellMeasure #v[3, 1, 2, 0] =
        3 ^ 2 * trapezoid.cellMeasure #v[3, 1, 2, 0] ∧
      (trapezoid.scaled 3).inspect.degenerate = trapezoid.inspect.degenerate ∧
      ∃ s₀ > 0, ∀ s, 0 < s → s < s₀ → (trapezoid.scaled s).inspect.degenerate = 1 := by
  have hscaled : (trapezoid.scaled 3).PivotsClear := pivotsClear_trapezoid.scaled (by norm_num)
  obtain ⟨hscales, hsmall⟩ := inspect_scaled trapezoid
  obtain ⟨hmeasure, hsame⟩ := (hscales 3 (by norm_num)).2 pivotsClear_trapezoid hscaled
  exact ⟨by norm_num, pivotsClear_trapezoid, hscaled, hmeasure _ List.mem_cons_self, hsame,
    hsmall (by decide)⟩

/-- A rectangle with sides of lengths three and four. -/
def plate : Mesh ℚ 2 :=
  { vertices := #[.xy 3 4, .xy 0 4, .xy 0 0, .xy 3 0]
    cells := [#v[2, 3, 1, 0]]
    indicators := ∅ }

/-- At a scale at which its sides are shorter than the cut-off it has no measure and is degenerate,
though its shape is the same. -/
theorem inspect_scaled_plate :
    plate.CellsValid ∧ plate.cellDiameter #v[2, 3, 1, 0] = 5 ∧
      plate.cellMeasure #v[2, 3, 1, 0] = 12 ∧ plate.inspect.degenerate = 0 ∧
      (plate.scaled (1 / 2 ^ 60)).cellDiameter #v[2, 3, 1, 0] = 5 / 2 ^ 60 ∧
      (plate.scaled (1 / 2 ^ 60)).cellMeasure #v[2, 3, 1, 0] = 0 ∧
      (plate.scaled (1 / 2 ^ 60)).inspect.degenerate = 1 := by
  decide +kernel

end Mesh
end HexMesh
