import Mathlib.Algebra.BigOperators.Group.List.Basic
import Mathlib.Tactic.NormNum
import HexMesh.Mesh.Inspection
import HexMesh.Proofs.Mesh.Elimination

/-!
Measures and diameters of cells in exact arithmetic.

The measure of a cell is a sum over the simplices along its main diagonal, with one elimination
for each of them.  As with elimination itself the cut-off for pivots is a parameter here.
-/

namespace HexMesh

open HexMesh.Cube

variable {K : Type} {d : Nat} [Field K] [LinearOrder K]

/-! ## Simplices of a cell -/

namespace Cell

variable {corners : Vector (Point K d) (cornerCount d)}

/-- The edges that leave the lowest corner for the other corners of a simplex. -/
def simplexRows (corners : Vector (Point K d) (cornerCount d)) (axes : List Nat) : List (List K) :=
  let corner (v : Nat) : Point K d := (corners[v]?).getD Point.origin
  (path axes).map fun v => (corner v - corner 0).coords.toList

/-- What a simplex adds to the measure, with a given cut-off for pivots. -/
def signedPart (cutoff : K) (corners : Vector (Point K d) (cornerCount d)) (axes : List Nat) : K :=
  Ordering.sign axes *
    (Elimination.eliminateAbove cutoff d 1 (simplexRows corners axes) / factorial d)

/-- The measure of a cell, with a given cut-off for pivots. -/
def measureAbove (cutoff : K) (corners : Vector (Point K d) (cornerCount d)) : K :=
  |((Ordering.all d).map (signedPart cutoff corners)).sum|

theorem measure_eq (corners : Vector (Point K d) (cornerCount d)) :
    measure corners = measureAbove Scalar.epsilon corners := by
  let corner (v : Nat) : Point K d := (corners[v]?).getD Point.origin
  have hpart (axes : List Nat) :
      Ordering.sign axes * simplexMeasure (corner 0) ((path axes).map corner) =
        signedPart Scalar.epsilon corners axes := by
    rw [simplexMeasure, Elimination.eliminate_eq, List.map_map, Nat.cast_one]
    rfl
  have htotal : (Ordering.all d).foldl (fun t axes => t + Ordering.sign axes *
      simplexMeasure (corner 0) ((path axes).map corner)) ((0 : Nat) : K) =
        ((Ordering.all d).map (signedPart Scalar.epsilon corners)).sum := by
    simp only [hpart]
    rw [List.sum_eq_foldl, List.foldl_map, Nat.cast_zero]
  exact congrArg (|·|) htotal

/-- No pivot that is met in any of the simplices is below the cut-off, unless it is zero. -/
def PivotsClear (cutoff : K) (corners : Vector (Point K d) (cornerCount d)) : Prop :=
  ∀ axes ∈ Ordering.all d, Elimination.PivotsClear cutoff d (simplexRows corners axes)

instance (cutoff : K) (corners : Vector (Point K d) (cornerCount d)) :
    Decidable (PivotsClear cutoff corners) :=
  inferInstanceAs (Decidable
    (∀ axes ∈ Ordering.all d, Elimination.PivotsClear cutoff d (simplexRows corners axes)))

variable [IsStrictOrderedRing K] {cutoff cutoff' : K}

theorem measureAbove_congr (hcutoff : 0 < cutoff) (hcutoff' : 0 < cutoff')
    (h : PivotsClear cutoff corners) (h' : PivotsClear cutoff' corners) :
    measureAbove cutoff corners = measureAbove cutoff' corners := by
  refine congrArg (|List.sum ·|) (List.map_congr_left fun axes haxes => ?_)
  rw [signedPart, signedPart,
    Elimination.eliminateAbove_congr hcutoff hcutoff' (h axes haxes) (h' axes haxes)]

/-- A cell that is too small for its pivots has no measure. -/
theorem measureAbove_of_small {e : Nat} {corners : Vector (Point K (e + 1)) (cornerCount (e + 1))}
    (hcutoff : 0 < cutoff)
    (h : ∀ axes ∈ Ordering.all (e + 1), ∀ row ∈ simplexRows corners axes,
      |Elimination.lead row| < cutoff) :
    measureAbove cutoff corners = 0 := by
  have hzero : ∀ x ∈ (Ordering.all (e + 1)).map (signedPart cutoff corners), x = 0 := by
    intro x hx
    obtain ⟨axes, haxes, rfl⟩ := List.mem_map.mp hx
    rw [signedPart, Elimination.eliminateAbove_of_small hcutoff (h axes haxes), zero_div, mul_zero]
  rw [measureAbove, List.sum_eq_zero hzero, abs_zero]

end Cell

/-! ## Cells of a mesh -/

namespace Mesh

/-- No pivot that is met in any cell is below the cut-off of the program, unless it is zero. -/
def PivotsClear (m : Mesh K d) : Prop :=
  ∀ c ∈ m.cells, Cell.PivotsClear Scalar.epsilon (m.cornerPoints c)

variable [SquareRoot K]

theorem cellDiameter_nonneg (m : Mesh K d) (c : Cell d) : ((0 : Nat) : K) ≤ m.cellDiameter c := by
  have hfold (vs : List (Cube.Corner d)) (g : Cube.Corner d → K) {x : K}
      (hx : ((0 : Nat) : K) ≤ x) :
      ((0 : Nat) : K) ≤ vs.foldl (fun longest v => Scalar.greatest longest (g v)) x := by
    induction vs generalizing x with
    | nil => exact hx
    | cons v rest ih => exact ih (hx.trans (le_max_left _ _))
  exact hfold _ _ le_rfl

omit [SquareRoot K] in
/-- In exact arithmetic there is no cell that is not looked at. -/
theorem filter_hasCoordinates (m : Mesh K d) : m.cells.filter m.hasCoordinates = m.cells :=
  List.filter_eq_self.mpr fun _ _ => List.all_eq_true.mpr fun _ _ => List.all_eq_true.mpr
    fun _ _ => rfl

theorem degenerate_inspect (m : Mesh K d) :
    m.inspect.degenerate = m.cells.countP m.isDegenerate := by
  show (m.cells.filter m.hasCoordinates).countP m.isDegenerate = _
  rw [filter_hasCoordinates]

theorem isDegenerate_iff {m : Mesh K d} {c : Cell d} :
    m.isDegenerate c = true ↔ m.cellMeasure c ≤ 1 / 10 ^ 10 * m.cellDiameter c ^ d := by
  have hpower (a : K) (n : Nat) : power a n = a ^ n := by
    fun_induction power a n with
    | case1 => rw [Nat.cast_one, pow_zero]
    | case2 => rw [pow_one]
    | case3 n ih => rw [ih, pow_succ' a (n + 1)]
  rw [isDegenerate, decide_eq_true_iff, hpower, Scalar.ratio]
  norm_num

end Mesh
end HexMesh
