import Mathlib.Algebra.BigOperators.Fin
import Mathlib.Data.List.Permutation
import Mathlib.Data.Nat.Factorial.Basic
import Mathlib.GroupTheory.Perm.Fin
import HexMesh.Proofs.Number.Ordered
import HexMesh.Topology.Ordering

/-!
Orderings as permutations.

The orderings that are listed are the permutations of the list of the first numbers, each once.
An ordering of `0, …, n - 1` lists the values of a permutation.  Its inversions are the pairs
that the permutation turns around, so that its sign is that of the permutation.
-/

namespace HexMesh
namespace Ordering

variable {n : Nat} {p : List Nat}

/-! ## The orderings that are listed -/

theorem map_insertIdx_range (a : Nat) (rest : List Nat) :
    ((List.range (rest.length + 1)).map fun place => rest.insertIdx place a) =
      rest.permutations'Aux a := by
  refine List.ext_getElem (by simp) fun k hk hk' => ?_
  rw [List.getElem_map, List.getElem_range, List.getElem_permutations'Aux]

/-- The numbers are put in from the least to the largest. -/
theorem all_eq_permutations' (n : Nat) : all n = (List.range n).reverse.permutations' := by
  induction n with
  | zero => rfl
  | succ n ih =>
    rw [all, ih, List.range_succ, List.reverse_append, List.reverse_singleton,
      List.singleton_append, List.permutations']
    exact List.flatMap_congr fun rest _ => map_insertIdx_range n rest

theorem all_perm_permutations (n : Nat) :
    (all n).Perm (List.range n).reverse.permutations := by
  rw [all_eq_permutations']
  exact (List.permutations_perm_permutations' _).symm

theorem mem_all : p ∈ all n ↔ p.Perm (List.range n) := by
  rw [(all_perm_permutations n).mem_iff, List.mem_permutations]
  exact (List.reverse_perm _).congr_right p

theorem nodup_all (n : Nat) : (all n).Nodup :=
  (all_perm_permutations n).nodup_iff.mpr
    (List.nodup_permutations _ (List.nodup_reverse.mpr List.nodup_range))

theorem length_all (n : Nat) : (all n).length = n.factorial := by
  rw [(all_perm_permutations n).length_eq, List.length_permutations, List.length_reverse,
    List.length_range]

theorem length_of_mem_all (h : p ∈ all n) : p.length = n :=
  (mem_all.mp h).length_eq.trans List.length_range

/-! ## The ordering of a permutation -/

/-- The values of a permutation in order. -/
def ofPerm (σ : Equiv.Perm (Fin n)) : List Nat := List.ofFn fun k => (σ k : Nat)

theorem exists_ofPerm (h : p ∈ all n) : ∃ σ : Equiv.Perm (Fin n), ofPerm σ = p := by
  have hperm := mem_all.mp h
  have hlength := length_of_mem_all h
  have hlt (k : Fin n) : p[k] < n :=
    List.mem_range.mp (hperm.mem_iff.mp (List.getElem_mem (hlength.symm ▸ k.isLt)))
  have hinj : Function.Injective fun k : Fin n => (⟨p[k], hlt k⟩ : Fin n) := by
    intro k l hsame
    have hnodup : p.Nodup := hperm.nodup_iff.mpr List.nodup_range
    exact Fin.ext (hnodup.getElem_inj_iff.mp (Fin.mk.inj hsame))
  refine ⟨Equiv.ofBijective _ (Finite.injective_iff_bijective.mp hinj), ?_⟩
  refine List.ext_getElem (by rw [ofPerm, List.length_ofFn, hlength]) fun k hk hk' => ?_
  exact List.getElem_ofFn hk

/-- The first places hold what the permutation puts there. -/
theorem mem_take_ofPerm (σ : Equiv.Perm (Fin n)) (a k : Fin n) :
    a.val ∈ (ofPerm σ).take (k + 1) ↔ σ.symm a ≤ k := by
  rw [ofPerm, List.mem_take_iff_getElem]
  constructor
  · intro h
    obtain ⟨l, hl, hsame⟩ := h
    rw [List.getElem_ofFn] at hsame
    rw [← Fin.ext hsame, Equiv.symm_apply_apply]
    exact Fin.le_def.mpr (Nat.le_of_lt_succ (Nat.lt_of_lt_of_le hl (Nat.min_le_left _ _)))
  · intro h
    have hlt : (σ.symm a).val < min (k.val + 1) (List.ofFn fun k => (σ k : Nat)).length := by
      rw [List.length_ofFn]
      exact Nat.lt_min.mpr ⟨Nat.lt_succ_of_le h, (σ.symm a).isLt⟩
    refine ⟨σ.symm a, hlt, ?_⟩
    rw [List.getElem_ofFn]
    exact congrArg Fin.val (σ.apply_symm_apply a)

/-! ## Signs -/

theorem neg_one_pow_countP {α : Type} (q : α → Prop) [DecidablePred q] (l : List α) :
    (-1 : ℤ) ^ l.countP q = (l.map fun x => if q x then -1 else 1).prod := by
  induction l with
  | nil => rfl
  | cons x rest ih =>
    rw [List.countP_cons, List.map_cons, List.prod_cons, ← ih, pow_add, mul_comm]
    by_cases hx : q x
    · simp [hx]
    · simp [hx]

theorem neg_one_pow_inversions_ofFn (f : Fin n → Nat) :
    (-1 : ℤ) ^ inversions (List.ofFn f) =
      ∏ i, ∏ j ∈ Finset.Ioi i, if f j < f i then -1 else 1 := by
  induction n with
  | zero => rfl
  | succ n ih =>
    rw [List.ofFn_succ, inversions, pow_add, ih, neg_one_pow_countP, List.map_ofFn,
      List.prod_ofFn, Fin.prod_univ_succ, Fin.prod_Ioi_zero]
    simp only [Fin.prod_Ioi_succ, Function.comp_apply]

theorem neg_one_pow_inversions_ofPerm (σ : Equiv.Perm (Fin n)) :
    (-1 : ℤ) ^ inversions (ofPerm σ) = σ.sign := by
  rw [ofPerm, neg_one_pow_inversions_ofFn, σ.sign_eq_prod_prod_Ioi, Units.coe_prod]
  refine Finset.prod_congr rfl fun i _ => ?_
  rw [Units.coe_prod]
  refine Finset.prod_congr rfl fun j hj => ?_
  have hne : (σ i : Nat) ≠ σ j :=
    fun he => (Finset.mem_Ioi.mp hj).ne (σ.injective (Fin.ext he))
  rcases Nat.lt_or_gt_of_ne hne with hlt | hlt
  · rw [if_neg hlt.not_gt, if_pos (Fin.lt_def.mpr hlt), Units.val_one]
  · rw [if_pos hlt, if_neg fun h => hlt.not_gt (Fin.lt_def.mp h), Units.val_neg, Units.val_one]

/-- In any arithmetic the sign tells even from odd permutations. -/
theorem sign_ofPerm_eq_ite {K : Type} [Scalar K] (σ : Equiv.Perm (Fin n)) :
    (sign (ofPerm σ) : K) = if σ.sign = 1 then ((1 : Nat) : K) else -((1 : Nat) : K) := by
  have hparity : inversions (ofPerm σ) % 2 = 0 ↔ σ.sign = 1 := by
    have hne : (-1 : ℤ) ≠ 1 := by decide
    rw [← Nat.even_iff, ← neg_one_pow_eq_one_iff_even hne, neg_one_pow_inversions_ofPerm,
      Units.val_eq_one]
  rw [sign]
  exact if_congr hparity rfl rfl

variable {K : Type} [Field K] [LinearOrder K]

/-- The sign of an ordering is that of its permutation. -/
theorem sign_ofPerm (σ : Equiv.Perm (Fin n)) :
    (sign (ofPerm σ) : K) = ((σ.sign : ℤ) : K) := by
  rw [sign_ofPerm_eq_ite, Nat.cast_one]
  rcases Int.units_eq_one_or σ.sign with heven | hodd
  · rw [if_pos heven, heven, Units.val_one, Int.cast_one]
  · rw [if_neg (by rw [hodd]; decide), hodd, Units.val_neg, Units.val_one, Int.cast_neg,
      Int.cast_one]

end Ordering
end HexMesh
