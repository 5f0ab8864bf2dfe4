import Mathlib.Algebra.BigOperators.Group.List.Basic
import Mathlib.Algebra.Order.Field.Basic
import HexMesh.Geometry.Shape
import HexMesh.Proofs.Number.Ordered

/-!
Means of points in exact arithmetic.

A mean is taken coordinate by coordinate, so it does not depend on the order of the points.
Nor does anything that is found from a mean, such as the place on a ball.
-/

namespace HexMesh
namespace Point

variable {K : Type} {d : Nat}

theorem ext_get {p q : Point K d} (h : ∀ a, p.coords.get a = q.coords.get a) : p = q :=
  Point.ext (Vector.ext fun i hi => h ⟨i, hi⟩)

@[simp] theorem get_ofFn (f : Fin d → K) (a : Fin d) : (ofFn f).coords.get a = f a :=
  Vector.getElem_ofFn a.isLt

variable [Field K] [LinearOrder K]

theorem get_add (p q : Point K d) (a : Fin d) :
    (p + q).coords.get a = p.coords.get a + q.coords.get a :=
  Vector.getElem_zipWith a.isLt

theorem get_sub (p q : Point K d) (a : Fin d) :
    (p - q).coords.get a = p.coords.get a - q.coords.get a :=
  Vector.getElem_zipWith a.isLt

theorem get_origin (a : Fin d) : (origin : Point K d).coords.get a = 0 :=
  (Vector.getElem_replicate a.isLt).trans Nat.cast_zero

theorem get_scale (p : Point K d) (x : K) (a : Fin d) :
    (p.scale x).coords.get a = p.coords.get a * x :=
  Vector.getElem_map _ a.isLt

theorem get_foldl_add (ps : List (Point K d)) (p : Point K d) (a : Fin d) :
    (ps.foldl (· + ·) p).coords.get a = p.coords.get a + (ps.map (·.coords.get a)).sum := by
  induction ps generalizing p with
  | nil => rw [List.foldl_nil, List.map_nil, List.sum_nil, add_zero]
  | cons q rest ih => rw [List.foldl_cons, ih, get_add, List.map_cons, List.sum_cons, add_assoc]

/-- A coordinate of the mean is the mean of the coordinates. -/
theorem get_average (ps : List (Point K d)) (a : Fin d) :
    (average ps).coords.get a = (ps.map (·.coords.get a)).sum / ps.length := by
  have htotal := get_foldl_add ps origin a
  rw [get_origin, zero_add] at htotal
  unfold average
  cases ps with
  | nil => simpa using htotal
  | cons p rest =>
    rw [List.isEmpty_cons, if_neg Bool.false_ne_true, get_scale, htotal, div_eq_mul_inv]
    congr 1
    show ((1 : Nat) : K) / _ = _
    rw [Nat.cast_one, one_div]

theorem average_perm {ps qs : List (Point K d)} (h : ps.Perm qs) : average ps = average qs :=
  ext_get fun a => by rw [get_average, get_average, (h.map _).sum_eq, h.length_eq]

@[simp] theorem average_singleton (p : Point K d) : average [p] = p :=
  ext_get fun a => by
    rw [get_average, List.map_singleton, List.sum_singleton, List.length_singleton, Nat.cast_one,
      div_one]

/-- A mean does not change when every point is repeated equally often. -/
theorem average_flatten_replicate [IsStrictOrderedRing K] {n : Nat} (hn : n ≠ 0)
    (ps : List (Point K d)) : average (List.replicate n ps).flatten = average ps := by
  refine ext_get fun a => ?_
  have hcount : (n : K) ≠ 0 := Nat.cast_ne_zero.mpr hn
  simp only [get_average, List.map_flatten, List.sum_flatten, List.length_flatten,
    List.map_replicate, List.sum_replicate, nsmul_eq_mul, Nat.cast_mul]
  exact mul_div_mul_left _ _ hcount

end Point

namespace Shape

variable {K : Type} {d : Nat}

/-- The order in which the parents stand does not matter. -/
def Symmetric (s : Shape K d) : Prop := ∀ ps qs, ps.Perm qs → s.place ps = s.place qs

variable [Field K] [LinearOrder K]

theorem symmetric_flat : (flat : Shape K d).Symmetric := fun _ _ => Point.average_perm

/-- A ball looks at its parents' mean only. -/
theorem symmetric_ball [SquareRoot K] (center : Point K d) (radius : K) :
    (ball center radius).Symmetric :=
  fun _ _ h => congrArg (project center radius) (Point.average_perm h)

end Shape

end HexMesh
