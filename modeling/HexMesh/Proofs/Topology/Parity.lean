import HexMesh.Number.Binary64
import HexMesh.Proofs.Topology.Ordering

/-!
Even and odd orderings.

An exchange of two entries composes the permutation of an ordering with a transposition, so it
turns its sign around.  The exchange of one fixed pair of places leads from each ordering to
another one and back.  It pairs the even orderings with the odd ones, and there are as many of
these as of those as soon as there are two places.

Of the arithmetic only two facts about one are used: its negative differs from it, and negating
that leads back.  Binary64 numbers and all ordered fields have them.
-/

namespace HexMesh
namespace Ordering

variable {n : Nat} {p : List Nat}

/-! ## Exchanging two entries -/

theorem swap_ofPerm (σ : Equiv.Perm (Fin n)) (i j : Fin n) :
    (ofPerm σ).swap i j = ofPerm (σ * Equiv.swap i j) := by
  have hlength (τ : Equiv.Perm (Fin n)) : (ofPerm τ).length = n := List.length_ofFn
  have hentry (τ : Equiv.Perm (Fin n)) (k : Fin n) (hk : k < (ofPerm τ).length) :
      (ofPerm τ)[k.val] = τ k := List.getElem_ofFn hk
  refine List.ext_getElem (by rw [List.length_swap, hlength, hlength]) fun k hk hk' => ?_
  obtain ⟨k, rfl⟩ : ∃ l : Fin n, l.val = k := ⟨⟨k, hlength _ ▸ hk'⟩, rfl⟩
  rw [hentry, Equiv.Perm.mul_apply, Equiv.swap_apply_def]
  by_cases hi : k = i
  · subst hi
    rw [if_pos rfl, List.getElem_swap_left_of_lt (by rw [hlength]; exact j.isLt), hentry]
  · by_cases hj : k = j
    · subst hj
      rw [if_neg hi, if_pos rfl, List.getElem_swap_right, dif_pos (by rw [hlength]; exact i.isLt),
        hentry]
    · rw [if_neg hi, if_neg hj, List.getElem_swap_of_ne (Fin.val_ne_of_ne hi)
        (Fin.val_ne_of_ne hj), hentry]

theorem swap_mem_all (h : p ∈ all n) (i j : Nat) : p.swap i j ∈ all n :=
  mem_all.mpr ((List.swap_perm p i j).trans (mem_all.mp h))

/-- An exchange leads from each ordering to another one and back. -/
theorem map_swap_perm (n i j : Nat) : ((all n).map fun p => p.swap i j).Perm (all n) := by
  have hback (p : List Nat) : (p.swap i j).swap i j = p := List.swap_swap
  have hnodup : ((all n).map fun p => p.swap i j).Nodup := by
    refine (nodup_all n).map fun p q hsame => ?_
    rw [← hback p, hsame, hback]
  refine (List.perm_ext_iff_of_nodup hnodup (nodup_all n)).mpr fun p => ?_
  rw [List.mem_map]
  constructor
  · rintro ⟨q, hq, rfl⟩
    exact swap_mem_all hq i j
  · intro hp
    exact ⟨p.swap i j, swap_mem_all hp i j, hback p⟩

/-! ## Signs -/

variable {K : Type} [Scalar K]

theorem sign_swap (hback : -(-((1 : Nat) : K)) = ((1 : Nat) : K)) (hp : p ∈ all n) {i j : Fin n}
    (hij : i ≠ j) : (sign (p.swap i j) : K) = -sign p := by
  obtain ⟨σ, rfl⟩ := exists_ofPerm hp
  have hturned : (σ * Equiv.swap i j).sign = -σ.sign := by
    rw [Equiv.Perm.sign_mul, Equiv.Perm.sign_swap hij, mul_neg, mul_one]
  rw [swap_ofPerm, sign_ofPerm_eq_ite, sign_ofPerm_eq_ite, hturned]
  rcases Int.units_eq_one_or σ.sign with heven | hodd
  · rw [heven, if_pos rfl, if_neg (by decide)]
  · rw [hodd, if_pos (by decide), if_neg (by decide), hback]

theorem sign_swap_eq_one_iff (hne : -((1 : Nat) : K) ≠ ((1 : Nat) : K))
    (hback : -(-((1 : Nat) : K)) = ((1 : Nat) : K)) (hp : p ∈ all n) {i j : Fin n} (hij : i ≠ j) :
    (sign (p.swap i j) : K) = ((1 : Nat) : K) ↔ ¬(sign p : K) = ((1 : Nat) : K) := by
  rw [sign_swap hback hp hij, sign]
  split
  · exact ⟨fun h => absurd h hne, fun h => absurd rfl h⟩
  · exact ⟨fun _ => hne, fun _ => hback⟩

variable [DecidableEq K]

/-- Exchanging the first two entries pairs the even orderings with the odd ones. -/
theorem two_mul_countP_sign (hne : -((1 : Nat) : K) ≠ ((1 : Nat) : K))
    (hback : -(-((1 : Nat) : K)) = ((1 : Nat) : K)) (hn : 2 ≤ n) :
    2 * (all n).countP (fun p => (sign p : K) = ((1 : Nat) : K)) = n.factorial := by
  let even (p : List Nat) : Bool := (sign p : K) = ((1 : Nat) : K)
  let first : Fin n := ⟨0, by omega⟩
  let second : Fin n := ⟨1, by omega⟩
  have hij : first ≠ second := Fin.ne_of_val_ne Nat.zero_ne_one
  have hodd : (all n).countP even = (all n).countP fun p => ¬even p = true :=
    calc (all n).countP even
        = ((all n).map fun p => p.swap first second).countP even :=
          ((map_swap_perm n first second).countP_eq even).symm
      _ = (all n).countP fun p => even (p.swap first second) := List.countP_map
      _ = (all n).countP fun p => ¬even p = true := by
          refine List.countP_congr fun p hp => ?_
          simpa only [even, decide_eq_true_eq] using sign_swap_eq_one_iff hne hback hp hij
  have hsum := List.length_eq_countP_add_countP even (l := all n)
  rw [length_all, ← hodd] at hsum
  rw [hsum, two_mul]

/-- What is listed, with which signs: every ordering once, and half of them with either sign. -/
theorem signs_alternate (hne : -((1 : Nat) : K) ≠ ((1 : Nat) : K))
    (hback : -(-((1 : Nat) : K)) = ((1 : Nat) : K)) (n : Nat) :
    (all n).Nodup ∧ (all n).length = n.factorial ∧
    (∀ p, p ∈ all n ↔ p.Perm (List.range n)) ∧
    (∀ p ∈ all n, ∃ σ : Equiv.Perm (Fin n), ofPerm σ = p ∧
      (sign p : K) = if σ.sign = 1 then ((1 : Nat) : K) else -((1 : Nat) : K)) ∧
    (∀ p ∈ all n, ∀ i j : Fin n, i ≠ j →
      p.swap i j ∈ all n ∧ (sign (p.swap i j) : K) = -sign p) ∧
    (2 ≤ n → 2 * (all n).countP (fun p => (sign p : K) = ((1 : Nat) : K)) = n.factorial) := by
  refine ⟨nodup_all n, length_all n, fun _ => mem_all, fun p hp => ?_, fun p hp i j hij => ?_,
    two_mul_countP_sign hne hback⟩
  · obtain ⟨σ, rfl⟩ := exists_ofPerm hp
    exact ⟨σ, rfl, sign_ofPerm_eq_ite σ⟩
  · exact ⟨swap_mem_all hp i j, sign_swap hback hp hij⟩

theorem signs_alternate_four :
    -((1 : Nat) : Float) ≠ ((1 : Nat) : Float) ∧ -(-((1 : Nat) : Float)) = ((1 : Nat) : Float) ∧
      [2, 0, 3, 1] ∈ all 4 ∧ (0 : Fin 4) ≠ 3 ∧ 2 ≤ 4 ∧
      [1, 0, 3, 2] ∈ all 4 ∧ (sign [1, 0, 3, 2] : Float) = -sign [2, 0, 3, 1] ∧
      2 * (all 4).countP (fun p => (sign p : Float) = ((1 : Nat) : Float)) = 24 := by
  have hne : -((1 : Nat) : Float) ≠ ((1 : Nat) : Float) := by decide +kernel
  have hback : -(-((1 : Nat) : Float)) = ((1 : Nat) : Float) := by decide +kernel
  have hlisted : [2, 0, 3, 1] ∈ all 4 := by decide
  have hplaces : (0 : Fin 4) ≠ 3 := by decide
  have hn : 2 ≤ 4 := by decide
  obtain ⟨-, -, -, -, hswap, hhalf⟩ := signs_alternate hne hback 4
  exact ⟨hne, hback, hlisted, hplaces, hn, (hswap _ hlisted 0 3 hplaces).1,
    (hswap _ hlisted 0 3 hplaces).2, hhalf hn⟩

end Ordering
end HexMesh
