import Mathlib.Algebra.Order.Field.Basic
import Mathlib.Data.List.Induction
import Mathlib.Tactic.Ring
import HexMesh.Mesh.Measure
import HexMesh.Proofs.Number.Ordered

/-!
Elimination and its cut-off.

A determinant is found by elimination, which takes the largest first entry for its pivot and gives
up at a pivot below a cut-off.  Here the cut-off is a parameter.  Multiplying all rows by a positive
number leaves the choice of every pivot as it is and is the same as dividing the cut-off, so that
what elimination finds is homogeneous only as long as no pivot passes the cut-off.
-/

namespace HexMesh
namespace Elimination

variable {K : Type}

section Scalar

variable [Scalar K]

/-- The first entry of a row. -/
def lead (row : List K) : K := row.headD ((0 : Nat) : K)

/-- The row that clears the first column of the others. -/
def pivot (rows : List (List K)) : List K := rows.getD (pivotRow rows) []

/-- The other rows without the first column, after it has been cleared. -/
def cleared (rows : List (List K)) : List (List K) :=
  (rows.set (pivotRow rows) (rows.headD [])).tail.map fun row =>
    List.zipWith (fun a p => a - lead row / lead (pivot rows) * p) row.tail (pivot rows).tail

/-- Elimination that gives up at a pivot below a given cut-off. -/
def eliminateAbove (cutoff : K) : Nat → K → List (List K) → K
  | 0, det, _ => det
  | n + 1, det, rows =>
    if Scalar.abs (lead (pivot rows)) < cutoff then ((0 : Nat) : K)
    else eliminateAbove cutoff n
      ((if pivotRow rows = 0 then det else -det) * lead (pivot rows)) (cleared rows)

theorem eliminate_eq (n : Nat) (det : K) (rows : List (List K)) :
    eliminate n det rows = eliminateAbove Scalar.epsilon n det rows := by
  induction n generalizing det rows with
  | zero => rfl
  | succ n ih =>
    rw [eliminateAbove, ← ih]
    rfl

end Scalar

variable [Field K] [LinearOrder K] {rows : List (List K)} {i : Nat}

/-! ## The choice of the pivot -/

/-- Row `i` is the last of those with the largest first entry. -/
def IsPivotRow (rows : List (List K)) (i : Nat) : Prop :=
  ∃ top, rows[i]? = some top ∧ ∀ j row, rows[j]? = some row →
    |lead row| ≤ |lead top| ∧ (|lead row| = |lead top| → j ≤ i)

theorem IsPivotRow.eq {i j : Nat} (hi : IsPivotRow rows i) (hj : IsPivotRow rows j) : i = j := by
  obtain ⟨top, htop, hmax⟩ := hi
  obtain ⟨top', htop', hmax'⟩ := hj
  have hsame : |lead top| = |lead top'| :=
    le_antisymm (hmax' i top htop).1 (hmax j top' htop').1
  exact le_antisymm ((hmax' i top htop).2 hsame) ((hmax j top' htop').2 hsame.symm)

/-- One step of the search for a pivot: of two equal candidates the later one is kept. -/
def better (best : Option (List K × Nat)) (candidate : List K × Nat) : Option (List K × Nat) :=
  match best with
  | none => some candidate
  | some (top, j) =>
    if (Scalar.rank (Scalar.abs (lead top)) (Scalar.abs (lead candidate.1))).isLE then
      some candidate
    else some (top, j)

theorem pivotRow_eq (rows : List (List K)) :
    pivotRow rows = (rows.zipIdx.foldl better none).elim 0 (·.2) := rfl

theorem exists_foldl_better (h : rows ≠ []) :
    ∃ top i, rows.zipIdx.foldl better none = some (top, i) ∧ rows[i]? = some top ∧
      ∀ j row, rows[j]? = some row →
        |lead row| ≤ |lead top| ∧ (|lead row| = |lead top| → j ≤ i) := by
  -- The search goes through the rows from the front, so one row more is one step at its end.
  induction rows using List.reverseRecOn with
  | nil => exact absurd rfl h
  | append_singleton rows last ih =>
    have hstep : (rows ++ [last]).zipIdx.foldl better none =
        better (rows.zipIdx.foldl better none) (last, rows.length) := by
      rw [List.zipIdx_append, List.foldl_append, Nat.zero_add]
      rfl
    have hend : (rows ++ [last])[rows.length]? = some last := by simp
    have hcases {j : Nat} {row : List K} (hrow : (rows ++ [last])[j]? = some row) :
        rows[j]? = some row ∨ j = rows.length ∧ row = last := by
      rcases Nat.lt_or_ge j rows.length with hj | hj
      · rw [List.getElem?_append_left hj] at hrow
        exact Or.inl hrow
      · rw [List.getElem?_append_right hj, List.getElem?_singleton] at hrow
        split at hrow
        · exact Or.inr ⟨by omega, (Option.some.inj hrow).symm⟩
        · cases hrow
    rcases eq_or_ne rows [] with hnil | hnil
    · subst hnil
      refine ⟨last, 0, rfl, rfl, fun j row hrow => ?_⟩
      obtain hnone | ⟨rfl, rfl⟩ := hcases hrow
      · cases hnone
      · exact ⟨le_rfl, fun _ => le_rfl⟩
    · obtain ⟨top, i, hfold, htop, hmax⟩ := ih hnil
      have hi : i < rows.length := (List.getElem?_eq_some_iff.mp htop).1
      by_cases hle : |lead top| ≤ |lead last|
      · refine ⟨last, rows.length, ?_, hend, fun j row hrow => ?_⟩
        · rw [hstep, hfold]
          exact if_pos (Scalar.rank_isLE.mpr hle)
        · obtain hold | ⟨rfl, rfl⟩ := hcases hrow
          · exact ⟨(hmax j row hold).1.trans hle,
              fun _ => (List.getElem?_eq_some_iff.mp hold).1.le⟩
          · exact ⟨le_rfl, fun _ => le_rfl⟩
      · refine ⟨top, i, ?_, ?_, fun j row hrow => ?_⟩
        · rw [hstep, hfold]
          exact if_neg fun hrank => hle (Scalar.rank_isLE.mp hrank)
        · rw [List.getElem?_append_left hi, htop]
        · obtain hold | ⟨rfl, rfl⟩ := hcases hrow
          · exact hmax j row hold
          · exact ⟨(not_le.mp hle).le, fun hsame => absurd hsame.ge hle⟩

theorem isPivotRow_pivotRow (h : rows ≠ []) : IsPivotRow rows (pivotRow rows) := by
  obtain ⟨top, i, hfold, hspec⟩ := exists_foldl_better h
  rw [pivotRow_eq, hfold]
  exact ⟨top, hspec⟩

theorem pivotRow_eq_iff (h : rows ≠ []) : pivotRow rows = i ↔ IsPivotRow rows i :=
  ⟨fun hi => hi ▸ isPivotRow_pivotRow h, fun hi => (isPivotRow_pivotRow h).eq hi⟩

/-- Every row begins with an entry that is at most the pivot. -/
theorem abs_lead_le_pivot {row : List K} (hrow : row ∈ rows) :
    |lead row| ≤ |lead (pivot rows)| := by
  obtain ⟨j, hj⟩ := List.mem_iff_getElem?.mp hrow
  obtain ⟨top, htop, hmax⟩ := isPivotRow_pivotRow (List.ne_nil_of_mem hrow)
  have hpivot : pivot rows = top := by
    rw [pivot, List.getD_eq_getElem?_getD, htop]
    rfl
  rw [hpivot]
  exact (hmax j row hj).1

/-! ## One step of elimination -/

variable {s cutoff : K}

theorem eliminateAbove_of_lt (h : |lead (pivot rows)| < cutoff) (n : Nat) (det : K) :
    eliminateAbove cutoff (n + 1) det rows = 0 := by
  rw [eliminateAbove]
  exact (if_pos h).trans Nat.cast_zero

theorem eliminateAbove_of_le (h : cutoff ≤ |lead (pivot rows)|) (n : Nat) (det : K) :
    eliminateAbove cutoff (n + 1) det rows = eliminateAbove cutoff n
      ((if pivotRow rows = 0 then det else -det) * lead (pivot rows)) (cleared rows) := by
  rw [eliminateAbove]
  exact if_neg h.not_gt

/-- Elimination multiplies the number that it starts with. -/
theorem eliminateAbove_mul_left (a : K) (n : Nat) (det : K) (rows : List (List K)) :
    eliminateAbove cutoff n (a * det) rows = a * eliminateAbove cutoff n det rows := by
  induction n generalizing det rows with
  | zero => rfl
  | succ n ih =>
    rcases lt_or_ge |lead (pivot rows)| cutoff with h | h
    · rw [eliminateAbove_of_lt h, eliminateAbove_of_lt h, mul_zero]
    · rw [eliminateAbove_of_le h, eliminateAbove_of_le h, ← ih]
      congr 1
      split <;> ring

/-- No pivot that elimination meets is below the cut-off, unless it is zero. -/
def PivotsClear (cutoff : K) : Nat → List (List K) → Prop
  | 0, _ => True
  | n + 1, rows => lead (pivot rows) = 0 ∨
      cutoff ≤ |lead (pivot rows)| ∧ PivotsClear cutoff n (cleared rows)

instance decidablePivotsClear (cutoff : K) :
    (n : Nat) → (rows : List (List K)) → Decidable (PivotsClear cutoff n rows)
  | 0, _ => isTrue trivial
  | n + 1, rows =>
    have := decidablePivotsClear cutoff n (cleared rows)
    inferInstanceAs (Decidable (lead (pivot rows) = 0 ∨
      cutoff ≤ |lead (pivot rows)| ∧ PivotsClear cutoff n (cleared rows)))

theorem PivotsClear.mono {cutoff' : K} (hle : cutoff' ≤ cutoff) {n : Nat} {rows : List (List K)}
    (h : PivotsClear cutoff n rows) : PivotsClear cutoff' n rows := by
  induction n generalizing rows with
  | zero => exact trivial
  | succ n ih => exact h.imp id fun ⟨hpivot, hrest⟩ => ⟨hle.trans hpivot, ih hrest⟩

variable [IsStrictOrderedRing K]

/-- Where all first entries are below the cut-off, there is no pivot. -/
theorem eliminateAbove_of_small (hcutoff : 0 < cutoff) (h : ∀ row ∈ rows, |lead row| < cutoff)
    (n : Nat) (det : K) : eliminateAbove cutoff (n + 1) det rows = 0 := by
  refine eliminateAbove_of_lt ?_ n det
  rw [pivot, List.getD_eq_getElem?_getD]
  cases hrow : rows[pivotRow rows]? with
  | none =>
    show |((0 : Nat) : K)| < cutoff
    rwa [Nat.cast_zero, abs_zero]
  | some row => exact h row (List.mem_of_getElem? hrow)

/-- Cut-offs that no pivot passes find the same. -/
theorem eliminateAbove_congr {cutoff' : K} (hcutoff : 0 < cutoff) (hcutoff' : 0 < cutoff')
    {n : Nat} {rows : List (List K)} (h : PivotsClear cutoff n rows)
    (h' : PivotsClear cutoff' n rows) (det : K) :
    eliminateAbove cutoff n det rows = eliminateAbove cutoff' n det rows := by
  induction n generalizing det rows with
  | zero => rfl
  | succ n ih =>
    -- At a pivot that is zero both give up, at any other one both go on.
    rcases h with hzero | ⟨hpivot, hrest⟩
    · rw [eliminateAbove_of_lt (by rwa [hzero, abs_zero]),
        eliminateAbove_of_lt (by rwa [hzero, abs_zero])]
    · have hne : lead (pivot rows) ≠ 0 := abs_pos.mp (hcutoff.trans_le hpivot)
      obtain ⟨hpivot', hrest'⟩ := h'.resolve_left hne
      rw [eliminateAbove_of_le hpivot, eliminateAbove_of_le hpivot', ih hrest hrest']

/-! ## Rows multiplied by a number -/

/-- Every entry multiplied by a number. -/
def multiply (s : K) (rows : List (List K)) : List (List K) := rows.map (List.map (· * s))

omit [IsStrictOrderedRing K] in
theorem lead_map (s : K) (row : List K) : lead (row.map (· * s)) = lead row * s := by
  cases row with
  | nil =>
    show ((0 : Nat) : K) = ((0 : Nat) : K) * s
    rw [Nat.cast_zero, zero_mul]
  | cons a rest => rfl

theorem pivotRow_multiply (hs : s ≠ 0) (rows : List (List K)) :
    pivotRow (multiply s rows) = pivotRow rows := by
  rcases eq_or_ne rows [] with rfl | h
  · rfl
  · obtain ⟨top, htop, hmax⟩ := isPivotRow_pivotRow h
    have hne : multiply s rows ≠ [] := List.map_eq_nil_iff.not.mpr h
    rw [pivotRow_eq_iff hne]
    refine ⟨top.map (· * s), by rw [multiply, List.getElem?_map, htop]; rfl, fun j row hrow => ?_⟩
    rw [multiply, List.getElem?_map, Option.map_eq_some_iff] at hrow
    obtain ⟨row, hrow, rfl⟩ := hrow
    have hpos : 0 < |s| := abs_pos.mpr hs
    rw [lead_map, lead_map, abs_mul, abs_mul, mul_le_mul_iff_left₀ hpos, mul_left_inj' hpos.ne']
    exact hmax j row hrow

theorem pivot_multiply (hs : s ≠ 0) (rows : List (List K)) :
    pivot (multiply s rows) = (pivot rows).map (· * s) := by
  rw [pivot, pivotRow_multiply hs, multiply, pivot, List.getD_eq_getElem?_getD,
    List.getD_eq_getElem?_getD, List.getElem?_map]
  cases rows[pivotRow rows]? <;> rfl

theorem cleared_multiply (hs : s ≠ 0) (rows : List (List K)) :
    cleared (multiply s rows) = multiply s (cleared rows) := by
  have hhead : (multiply s rows).headD [] = (rows.headD []).map (· * s) := by
    cases rows <;> rfl
  have hothers : ((multiply s rows).set (pivotRow rows) ((rows.headD []).map (· * s))).tail =
      multiply s (rows.set (pivotRow rows) (rows.headD [])).tail := by
    rw [multiply, multiply, ← List.map_set, List.map_tail]
  rw [cleared, pivotRow_multiply hs, pivot_multiply hs, hhead, hothers, cleared, multiply,
    multiply, List.map_map, List.map_map]
  refine List.map_congr_left fun row _ => ?_
  simp only [Function.comp_apply, lead_map, mul_div_mul_right _ _ hs, ← List.map_tail,
    List.zipWith_map, List.map_zipWith, sub_mul, mul_assoc]

/-- Multiplying all rows is the same as dividing the cut-off. -/
theorem eliminateAbove_multiply (hs : 0 < s) (n : Nat) (det : K) (rows : List (List K)) :
    eliminateAbove cutoff n det (multiply s rows) =
      s ^ n * eliminateAbove (cutoff / s) n det rows := by
  induction n generalizing det rows with
  | zero => rw [pow_zero, one_mul]; rfl
  | succ n ih =>
    have hlead : |lead (pivot (multiply s rows))| = |lead (pivot rows)| * s := by
      rw [pivot_multiply hs.ne', lead_map, abs_mul, abs_of_pos hs]
    rcases lt_or_ge |lead (pivot rows)| (cutoff / s) with h | h
    · rw [eliminateAbove_of_lt h, mul_zero]
      exact eliminateAbove_of_lt (hlead ▸ (lt_div_iff₀ hs).mp h) n det
    · rw [eliminateAbove_of_le h, eliminateAbove_of_le (hlead ▸ (div_le_iff₀ hs).mp h),
        pivot_multiply hs.ne', lead_map, pivotRow_multiply hs.ne', cleared_multiply hs.ne', ih,
        ← mul_assoc, mul_comm _ s, eliminateAbove_mul_left, pow_succ, mul_assoc]

theorem pivotsClear_multiply (hs : 0 < s) (n : Nat) (rows : List (List K)) :
    PivotsClear cutoff n (multiply s rows) ↔ PivotsClear (cutoff / s) n rows := by
  induction n generalizing rows with
  | zero => exact Iff.rfl
  | succ n ih =>
    rw [PivotsClear, PivotsClear, pivot_multiply hs.ne', lead_map, cleared_multiply hs.ne', ih,
      abs_mul, abs_of_pos hs, div_le_iff₀ hs, mul_eq_zero, or_iff_left hs.ne']

end Elimination
end HexMesh
