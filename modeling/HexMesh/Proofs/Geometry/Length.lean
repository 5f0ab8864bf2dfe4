import Mathlib.Algebra.BigOperators.Fin
import Mathlib.Analysis.Real.Sqrt
import HexMesh.Geometry.Shape
import HexMesh.Proofs.Geometry.Average

/-!
Lengths of vectors in exact arithmetic.

A square root is asked for where a length is, and the reals have one.  There a ball puts a
point on its sphere, wherever it came from, unless it came from next to the center.
-/

namespace HexMesh
namespace Point

section Field

variable {K : Type} [Field K] [LinearOrder K] {d : Nat}

theorem add_sub_self (p q : Point K d) : p + q - p = q :=
  ext_get fun a => by rw [get_sub, get_add, add_sub_cancel_left]

theorem sum_eq (xs : List K) : Scalar.sum xs = xs.sum := by
  rw [Scalar.sum, Nat.cast_zero, neg_zero, List.sum_eq_foldl]

theorem normSquare_eq (p : Point K d) :
    p.normSquare = ((List.finRange d).map fun a => p.coords.get a ^ 2).sum := by
  rw [normSquare, dot, sum_eq]
  congr 1
  refine List.ext_getElem (by simp) fun i _ _ => ?_
  simp [sq, Vector.get]

theorem normSquare_scale (p : Point K d) (x : K) :
    (p.scale x).normSquare = x ^ 2 * p.normSquare := by
  rw [normSquare_eq, normSquare_eq, ← List.sum_map_mul_left]
  congr 1
  refine List.map_congr_left fun a _ => ?_
  rw [get_scale, mul_pow, mul_comm]

theorem distance_comm [SquareRoot K] (p q : Point K d) : p.distance q = q.distance p := by
  have hsquare : (p - q).normSquare = (q - p).normSquare := by
    rw [normSquare_eq, normSquare_eq]
    congr 1
    refine List.map_congr_left fun a _ => ?_
    rw [get_sub, get_sub, ← neg_sub, neg_sq]
  rw [distance, distance, norm, norm, hsquare]

theorem normSquare_nonneg [IsStrictOrderedRing K] (p : Point K d) : 0 ≤ p.normSquare := by
  rw [normSquare_eq]
  refine List.sum_nonneg fun x hx => ?_
  obtain ⟨a, -, rfl⟩ := List.mem_map.mp hx
  exact sq_nonneg _

theorem normSquare_eq_zero [IsStrictOrderedRing K] {p : Point K d} :
    p.normSquare = 0 ↔ p = origin := by
  rw [normSquare_eq]
  constructor
  · intro h
    refine ext_get fun a => ?_
    have hzero := List.all_zero_of_le_zero_le_of_sum_eq_zero
      (l := (List.finRange d).map fun a => p.coords.get a ^ 2) (by simp [sq_nonneg]) h
      (List.mem_map.mpr ⟨a, List.mem_finRange a, rfl⟩)
    rw [get_origin]
    exact (pow_eq_zero_iff two_ne_zero).mp hzero
  · rintro rfl
    simp [get_origin]

end Field

end Point

/-! ## Lengths of real vectors -/

noncomputable instance : SquareRoot ℝ := ⟨Real.sqrt⟩

variable {d : Nat}

/-- The distance is the Euclidean one. -/
theorem Point.distance_eq (p q : Point ℝ d) :
    p.distance q = √(∑ a, (p.coords.get a - q.coords.get a) ^ 2) := by
  show √(p - q).normSquare = _
  simp only [normSquare_eq, get_sub, Fin.sum_univ_def]

theorem Point.norm_nonneg (p : Point ℝ d) : 0 ≤ p.norm := Real.sqrt_nonneg _

theorem Point.norm_eq_zero {p : Point ℝ d} : p.norm = 0 ↔ p = origin :=
  (Real.sqrt_eq_zero p.normSquare_nonneg).trans normSquare_eq_zero

theorem Point.distance_self (p : Point ℝ d) : p.distance p = 0 :=
  norm_eq_zero.mpr (ext_get fun a => by rw [get_sub, sub_self, get_origin])

theorem Point.norm_scale (p : Point ℝ d) (x : ℝ) : (p.scale x).norm = |x| * p.norm := by
  show √(p.scale x).normSquare = |x| * √p.normSquare
  rw [normSquare_scale, Real.sqrt_mul (sq_nonneg x), Real.sqrt_sq_eq_abs]

/-- A point is moved to the sphere, or it is near the center. -/
theorem Shape.distance_project (center : Point ℝ d) (radius : ℝ) (p : Point ℝ d) :
    (project center radius p).distance center = |radius| ∨ p.distance center ≤ 1 / 10 ^ 12 := by
  have hthreshold : (Scalar.ratio 1 (Nat.pow 10 12) : ℝ) = 1 / 10 ^ 12 := by
    norm_num [Scalar.ratio]
  rcases le_or_gt (p.distance center) (1 / 10 ^ 12) with hnear | hfar
  · exact Or.inr hnear
  · refine Or.inl ?_
    have hfar : 1 / 10 ^ 12 < (p - center).norm := hfar
    have hlength : 0 < (p - center).norm := lt_trans (by positivity) hfar
    rw [project, hthreshold, if_pos hfar, Point.distance, Point.add_sub_self,
      Point.norm_scale, abs_div, abs_of_pos hlength, div_mul_cancel₀ _ hlength.ne']

end HexMesh
