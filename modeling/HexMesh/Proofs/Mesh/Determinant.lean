import Mathlib.Data.List.GetD
import Mathlib.LinearAlgebra.Matrix.Determinant.Basic
import HexMesh.Proofs.Mesh.Elimination

/-!
Elimination finds the determinant.

A step puts some row first, clears the first column of the others with it and drops row and
column.  The determinant is multiplied by the entry that was dropped, with its sign changed
where rows were exchanged, and it does not matter which row was put first as long as that entry
is not zero.  The program makes one of these choices, and gives up where none is left, so its
result is the determinant unless the cut-off stops it at a pivot that is not zero.
-/

namespace HexMesh
namespace Elimination

variable {K : Type} {n i : Nat} {row top : List K} {rows others : List (List K)}

/-! ## Rows -/

/-- There are `n` rows with `n` entries each. -/
structure Square (n : Nat) (rows : List (List K)) : Prop where
  length : rows.length = n
  row_length : ∀ row ∈ rows, row.length = n

/-- The rows after row `i` and the first one have been exchanged. -/
def exchanged (i : Nat) (rows : List (List K)) : List (List K) :=
  rows.getD i [] :: (rows.set i (rows.headD [])).tail

theorem getD_exchanged (h : rows.length = n + 1) (hi : i < n + 1) (r : Fin (n + 1)) :
    (exchanged i rows).getD r [] =
      rows.getD (Equiv.swap (0 : Fin (n + 1)) ⟨i, hi⟩ r : Fin (n + 1)) [] := by
  cases r using Fin.cases with
  | zero =>
    rw [Equiv.swap_apply_left]
    rfl
  | succ s =>
    have hset : (exchanged i rows).getD s.succ [] =
        (rows.set i (rows.headD [])).getD s.succ [] := by
      rw [List.getD_eq_getElem?_getD, List.getD_eq_getElem?_getD, exchanged, Fin.val_succ,
        List.getElem?_cons_succ, List.getElem?_tail]
    rw [hset, List.getD_eq_getElem?_getD, List.getElem?_set]
    by_cases hsame : i = s.succ
    · have hplace : (⟨i, hi⟩ : Fin (n + 1)) = s.succ := Fin.ext hsame
      rw [if_pos hsame, if_pos (h ▸ hi), hplace, Equiv.swap_apply_right]
      cases rows <;> rfl
    · have hother : s.succ ≠ (⟨i, hi⟩ : Fin (n + 1)) := fun he => hsame (Fin.ext_iff.mp he).symm
      rw [if_neg hsame, Equiv.swap_apply_of_ne_of_ne s.succ_ne_zero hother,
        List.getD_eq_getElem?_getD]

theorem square_exchanged (h : Square (n + 1) rows) (hi : i < n + 1) :
    Square (n + 1) (exchanged i rows) := by
  have hlength : (exchanged i rows).length = n + 1 := by
    rw [exchanged, List.length_cons, List.length_tail, List.length_set, h.length,
      Nat.add_sub_cancel]
  refine ⟨hlength, fun row hrow => ?_⟩
  obtain ⟨r, hr, rfl⟩ := List.getElem_of_mem hrow
  have hplace := getD_exchanged h.length hi ⟨r, hlength ▸ hr⟩
  rw [List.getD_eq_getElem _ _ hr, List.getD_eq_getElem _ _ (h.length.symm ▸ Fin.isLt _)] at hplace
  rw [hplace]
  exact h.row_length _ (List.getElem_mem _)

/-! ## Rows as a matrix -/

variable [Field K] [LinearOrder K]

/-- The matrix with the given rows.  An entry that is missing is zero. -/
def toMatrix (n : Nat) (rows : List (List K)) : Matrix (Fin n) (Fin n) K :=
  Matrix.of fun r c => (rows.getD r []).getD c 0

omit [LinearOrder K] in
theorem toMatrix_apply (r c : Fin n) : toMatrix n rows r c = (rows.getD r []).getD c 0 := rfl

theorem lead_eq_getD (row : List K) : lead row = row.getD 0 0 := by
  cases row with
  | nil => exact Nat.cast_zero
  | cons a rest => rfl

theorem toMatrix_zero (r : Fin (n + 1)) : toMatrix (n + 1) rows r 0 = lead (rows.getD r []) := by
  rw [toMatrix_apply, lead_eq_getD, Fin.val_zero]

/-! ## One step -/

/-- The rows behind the first one without the first column, after it has been cleared. -/
def clear : List (List K) → List (List K)
  | [] => []
  | top :: others => others.map fun row =>
    List.zipWith (fun a p => a - lead row / lead top * p) row.tail top.tail

theorem cleared_eq (rows : List (List K)) :
    cleared rows = clear (exchanged (pivotRow rows) rows) := rfl

theorem det_exchanged (h : rows.length = n + 1) (hi : i < n + 1) :
    (toMatrix (n + 1) (exchanged i rows)).det =
      (if i = 0 then 1 else -1) * (toMatrix (n + 1) rows).det := by
  have hswap : toMatrix (n + 1) (exchanged i rows) =
      (toMatrix (n + 1) rows).submatrix (Equiv.swap 0 ⟨i, hi⟩) id := by
    ext r c
    rw [toMatrix_apply, getD_exchanged h hi, Matrix.submatrix_apply, toMatrix_apply, id]
  rw [hswap, Matrix.det_permute]
  by_cases hzero : i = 0
  · subst hzero
    rw [if_pos rfl, Fin.mk_zero, Equiv.swap_self, Equiv.Perm.sign_refl, Units.val_one,
      Int.cast_one]
  · have hne : (0 : Fin (n + 1)) ≠ ⟨i, hi⟩ := fun he => hzero (Fin.ext_iff.mp he).symm
    rw [if_neg hzero, Equiv.Perm.sign_swap hne, Units.val_neg, Units.val_one, Int.cast_neg,
      Int.cast_one]

theorem square_clear (h : Square (n + 1) (top :: others)) :
    Square n (clear (top :: others)) := by
  have htop : top.length = n + 1 := h.row_length top List.mem_cons_self
  refine ⟨?_, fun row hrow => ?_⟩
  · rw [clear, List.length_map]
    exact Nat.succ.inj h.length
  · rw [clear, List.mem_map] at hrow
    obtain ⟨row, hrow, rfl⟩ := hrow
    have hlength : row.length = n + 1 := h.row_length row (List.mem_cons_of_mem _ hrow)
    rw [List.length_zipWith, List.length_tail, List.length_tail, htop, hlength, Nat.min_self,
      Nat.add_sub_cancel]

theorem getD_zipWith_tail (hrow : row.length = n + 1) (htop : top.length = n + 1) (factor : K)
    (c : Fin n) :
    (List.zipWith (fun a p => a - factor * p) row.tail top.tail).getD c 0 =
      row.getD c.succ 0 - factor * top.getD c.succ 0 := by
  have hcrow : c.succ < row.length := hrow.symm ▸ c.succ.isLt
  have hctop : c.succ < top.length := htop.symm ▸ c.succ.isLt
  have hboth : c < (List.zipWith (fun a p => a - factor * p) row.tail top.tail).length := by
    rw [List.length_zipWith, List.length_tail, List.length_tail, hrow, htop, Nat.min_self]
    exact c.isLt
  rw [List.getD_eq_getElem _ _ hboth, List.getD_eq_getElem _ _ hcrow,
    List.getD_eq_getElem _ _ hctop, List.getElem_zipWith, List.getElem_tail,
    List.getElem_tail]
  rfl

theorem toMatrix_clear (h : Square (n + 1) (top :: others)) (r c : Fin n) :
    toMatrix n (clear (top :: others)) r c =
      toMatrix (n + 1) (top :: others) r.succ c.succ -
        toMatrix (n + 1) (top :: others) r.succ 0 / lead top *
          toMatrix (n + 1) (top :: others) 0 c.succ := by
  have hr : r < others.length := by
    have hlength : others.length = n := Nat.succ.inj h.length
    exact hlength ▸ r.isLt
  have hrow : (top :: others).getD r.succ [] = others[r] :=
    List.getD_eq_getElem _ _ (Nat.succ_lt_succ hr)
  have hclear : (clear (top :: others)).getD r [] = List.zipWith
      (fun a p => a - lead others[r] / lead top * p) others[r].tail top.tail := by
    rw [clear, List.getD_eq_getElem _ _ (by rwa [List.length_map]), List.getElem_map]
    rfl
  rw [toMatrix_zero, toMatrix_apply, toMatrix_apply, toMatrix_apply, hrow, hclear]
  exact getD_zipWith_tail (h.row_length _ (List.mem_cons_of_mem _ (List.getElem_mem hr)))
    (h.row_length _ List.mem_cons_self) _ c

theorem det_clear (h : Square (n + 1) (top :: others)) (hne : lead top ≠ 0) :
    (toMatrix (n + 1) (top :: others)).det =
      lead top * (toMatrix n (clear (top :: others))).det := by
  let B := toMatrix (n + 1) (top :: others)
  let factor : Fin (n + 1) → K := Fin.cases 0 fun r => -(B r.succ 0 / lead top)
  let A : Matrix (Fin (n + 1)) (Fin (n + 1)) K := Matrix.of fun r c => B r c + factor r * B 0 c
  have hdet : A.det = B.det :=
    Matrix.det_eq_of_forall_row_eq_smul_add_const factor 0 rfl fun _ _ => rfl
  have htop : B 0 0 = lead top := toMatrix_zero 0
  have hfirst : A 0 0 = lead top := by
    show B 0 0 + 0 * B 0 0 = _
    rw [zero_mul, add_zero, htop]
  have hbelow (r : Fin n) : A r.succ 0 = 0 := by
    show B r.succ 0 + -(B r.succ 0 / lead top) * B 0 0 = 0
    rw [htop, neg_mul, div_mul_cancel₀ _ hne, add_neg_cancel]
  have hrest : A.submatrix Fin.succ Fin.succ = toMatrix n (clear (top :: others)) := by
    ext r c
    rw [toMatrix_clear h, sub_eq_add_neg, ← neg_mul]
    rfl
  have hsum : A.det = A 0 0 * (A.submatrix Fin.succ Fin.succ).det := by
    rw [Matrix.det_succ_column_zero, Fin.sum_univ_succ, Finset.sum_eq_zero, add_zero, Fin.val_zero,
      pow_zero, one_mul]
    · rfl
    · intro r _
      rw [hbelow, mul_zero, zero_mul]
  rw [← hrest, ← hfirst, ← hsum]
  exact hdet.symm

/-! ## All steps -/

/-- Elimination can end with a number, with some row that begins with an entry other than zero
put first in each step.  There is no such row if and only if the elimination is stuck. -/
inductive Eliminates : Nat → List (List K) → K → Prop
  | done (rows : List (List K)) : Eliminates 0 rows 1
  | stuck {n : Nat} {rows : List (List K)} (h : ∀ row ∈ rows, lead row = 0) :
    Eliminates (n + 1) rows 0
  | step {n i : Nat} {rows : List (List K)} {x : K} (hi : i < rows.length)
    (hne : lead (rows.getD i []) ≠ 0) (hrest : Eliminates n (clear (exchanged i rows)) x) :
    Eliminates (n + 1) rows ((if i = 0 then 1 else -1) * lead (rows.getD i []) * x)

theorem Eliminates.eq_det {x : K} (h : Eliminates n rows x) (hrows : Square n rows) :
    x = (toMatrix n rows).det := by
  induction h with
  | done rows => exact Matrix.det_fin_zero.symm
  | @stuck n rows hzero =>
    refine (Matrix.det_eq_zero_of_column_eq_zero 0 fun r => ?_).symm
    rw [toMatrix_zero, List.getD_eq_getElem _ _ (hrows.length.symm ▸ r.isLt)]
    exact hzero _ (List.getElem_mem _)
  | @step n i rows x hi hne hrest ih =>
    have hi : i < n + 1 := hrows.length ▸ hi
    have hsquare := square_exchanged hrows hi
    have hsign : (if i = 0 then (1 : K) else -1) * (if i = 0 then 1 else -1) = 1 := by
      split <;> norm_num
    calc (if i = 0 then 1 else -1) * lead (rows.getD i []) * x
        = (if i = 0 then 1 else -1) * (toMatrix (n + 1) (exchanged i rows)).det := by
          rw [ih (square_clear hsquare), mul_assoc]
          exact congrArg _ (det_clear hsquare hne).symm
      _ = (toMatrix (n + 1) rows).det := by
          rw [det_exchanged hrows.length hi, ← mul_assoc, hsign, one_mul]

theorem exists_eliminates (hrows : Square n rows) : ∃ x, Eliminates n rows x := by
  induction n generalizing rows with
  | zero => exact ⟨1, Eliminates.done rows⟩
  | succ n ih =>
    by_cases hstuck : ∀ row ∈ rows, lead row = 0
    · exact ⟨0, Eliminates.stuck hstuck⟩
    · push Not at hstuck
      obtain ⟨row, hrow, hne⟩ := hstuck
      obtain ⟨i, hi, rfl⟩ := List.getElem_of_mem hrow
      obtain ⟨x, hx⟩ := ih (square_clear (square_exchanged hrows (hrows.length ▸ hi)))
      refine ⟨_, Eliminates.step hi ?_ hx⟩
      rwa [List.getD_eq_getElem _ _ hi]

variable {cutoff : K} [IsStrictOrderedRing K]

/-- The program chooses the largest entry.  Where no pivot but zero is below the cut-off, it
stops only when every choice would be stuck. -/
theorem eliminates_eliminateAbove (hcutoff : 0 < cutoff) (hrows : Square n rows)
    (h : PivotsClear cutoff n rows) : Eliminates n rows (eliminateAbove cutoff n 1 rows) := by
  induction n generalizing rows with
  | zero => exact Eliminates.done rows
  | succ n ih =>
    rcases h with hzero | ⟨hpivot, hrest⟩
    · rw [eliminateAbove_of_lt (by rwa [hzero, abs_zero])]
      refine Eliminates.stuck fun row hrow => abs_nonpos_iff.mp ?_
      exact (abs_lead_le_pivot hrow).trans (by rw [hzero, abs_zero])
    · have hne : lead (pivot rows) ≠ 0 := abs_pos.mp (hcutoff.trans_le hpivot)
      have hnil : rows ≠ [] := List.ne_nil_of_length_eq_add_one hrows.length
      obtain ⟨top, htop, -⟩ := isPivotRow_pivotRow hnil
      have hrow : pivotRow rows < rows.length := (List.getElem?_eq_some_iff.mp htop).1
      have hclear : Square n (cleared rows) := by
        rw [cleared_eq]
        exact square_clear (square_exchanged hrows (hrows.length ▸ hrow))
      have hstep : eliminateAbove cutoff (n + 1) 1 rows =
          (if pivotRow rows = 0 then 1 else -1) * lead (pivot rows) *
            eliminateAbove cutoff n 1 (cleared rows) := by
        rw [eliminateAbove_of_le hpivot, ← eliminateAbove_mul_left, mul_one]
      rw [hstep]
      exact Eliminates.step hrow hne (ih hclear hrest)

theorem eliminateAbove_eq_det (hcutoff : 0 < cutoff) (hrows : Square n rows)
    (h : PivotsClear cutoff n rows) : eliminateAbove cutoff n 1 rows = (toMatrix n rows).det :=
  (eliminates_eliminateAbove hcutoff hrows h).eq_det hrows

end Elimination
end HexMesh
