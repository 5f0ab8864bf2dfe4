import HexMesh.Proofs.Topology.Corner
import Mathlib.Algebra.BigOperators.Fin
import Mathlib.Data.Nat.Bitwise
import Mathlib.Data.Fintype.BigOperators

/-!
Incidence of corners, edges and faces, in any dimension.

The two faces of an axis share no corner and have all of them, so a corner lies on one of the
two, and so do both ends of an edge, unless the edge runs along that axis.  Faces are therefore
counted by axes.  Edges are counted by axes too, as the edges along an axis are the corners on
its low face.
-/

namespace HexMesh
namespace Cube

variable {d : Nat}

/-! ## Faces -/

theorem pairwise_faceCorners (d face : Nat) : (faceCorners d face).Pairwise (· < ·) :=
  (List.pairwise_lt_finRange _).filter _

/-- The two faces of an axis part the corners. -/
theorem faceCorners_append_perm (d axis : Nat) :
    (faceCorners d (2 * axis) ++ faceCorners d (2 * axis + 1)).Perm (corners d) := by
  have hacross : acrossFace (2 * axis) = 2 * axis + 1 := if_pos (Nat.mul_mod_right 2 axis)
  have hupper : faceCorners d (2 * axis + 1) = (corners d).filter fun v => !onFace (2 * axis) v :=
    List.filter_congr fun v _ => by rw [← hacross, onFace_acrossFace]
  rw [hupper]
  exact List.filter_append_perm _ _

/-- Faces are counted by the axes that they are orthogonal to. -/
theorem countP_faces (d : Nat) (p : Nat → Bool) : (List.range (faceCount d)).countP p =
    ∑ a : Fin d, ((p (sideFace a false)).toNat + (p (sideFace a true)).toNat) := by
  induction d with
  | zero => rfl
  | succ d ih =>
    have hfaces : faceCount (d + 1) = faceCount d + 1 + 1 := Nat.mul_succ 2 d
    have hlow : sideFace (Fin.last d) false = faceCount d := rfl
    have hhigh : sideFace (Fin.last d) true = faceCount d + 1 := rfl
    have hone (f : Nat) : [f].countP p = (p f).toNat := by
      rw [List.countP_singleton]
      cases p f <;> rfl
    rw [hfaces, List.range_succ, List.range_succ, List.countP_append, List.countP_append, hone,
      hone, ih, Fin.sum_univ_castSucc, hlow, hhigh, Nat.add_assoc]
    rfl

/-- A corner lies on one face of each axis. -/
theorem countP_onFace (v : Corner d) : (List.range (faceCount d)).countP (onFace · v) = d := by
  have hone (a : Fin d) :
      (onFace (sideFace a false) v).toNat + (onFace (sideFace a true) v).toNat = 1 := by
    rw [onFace_sideFace, onFace_sideFace]
    cases v.high a <;> rfl
  rw [countP_faces, Finset.sum_congr rfl fun a _ => hone a]
  simp

/-! ## Edges -/

namespace Corner

theorem lt_flip {v : Corner d} {a : Fin d} (h : v.high a = false) : v < v.flip a := by
  refine Nat.lt_of_testBit a.val h ((v.high_flip_self a).trans (by rw [h]; rfl)) fun i hi => ?_
  have hsame : (v.flip a).val.testBit i = v.val.testBit i := by
    show (v.val ^^^ 2 ^ a.val).testBit i = _
    rw [Nat.testBit_xor, Nat.testBit_two_pow_of_ne hi.ne, Bool.xor_false]
  exact hsame.symm

/-- The axes along which two corners lie on different sides. -/
def apart (v w : Corner d) : List (Fin d) :=
  (List.finRange d).filter fun a : Fin d => v.high a != w.high a

theorem mem_apart {v w : Corner d} {a : Fin d} : a ∈ v.apart w ↔ v.high a ≠ w.high a := by
  rw [apart, List.mem_filter, and_iff_right (List.mem_finRange a), bne_iff_ne]

theorem apart_eq_singleton_iff {v w : Corner d} {a : Fin d} : v.apart w = [a] ↔ w = v.flip a := by
  constructor
  · intro h
    refine ext_high fun b => ?_
    have hmem : v.high b ≠ w.high b ↔ b = a := by
      rw [← mem_apart, h, List.mem_singleton]
    rw [high_flip]
    by_cases hb : b = a
    · rw [if_pos hb]
      exact Bool.eq_not_of_ne (hmem.mpr hb).symm
    · rw [if_neg hb]
      exact (not_not.mp (hmem.not.mpr hb)).symm
  · rintro rfl
    refine List.perm_singleton.mp ((List.perm_ext_iff_of_nodup
      ((List.nodup_finRange d).filter _) (List.nodup_singleton a)).mpr fun b => ?_)
    rw [List.mem_singleton, ← apart, mem_apart, high_flip]
    by_cases hb : b = a
    · simp [hb]
    · simp [hb]

end Corner

/-- An edge joins two corners that are apart along one axis, the smaller one first. -/
theorem mem_edges_iff {v w : Corner d} : (v, w) ∈ edges d ↔ v < w ∧ (v.apart w).length = 1 := by
  rw [mem_edges, List.length_eq_one_iff]
  constructor
  · rintro ⟨a, ha, rfl⟩
    exact ⟨Corner.lt_flip ha, a, Corner.apart_eq_singleton_iff.mpr rfl⟩
  · rintro ⟨hlt, a, ha⟩
    obtain rfl := Corner.apart_eq_singleton_iff.mp ha
    refine ⟨a, Bool.eq_false_iff.mpr fun hhigh => ?_, rfl⟩
    have hlow : (v.flip a).high a = false := by
      rw [Corner.high_flip_self, hhigh]
      rfl
    have hback := Corner.lt_flip hlow
    rw [Corner.flip_flip] at hback
    exact lt_asymm hlt hback

theorem nodup_edges (d : Nat) : (edges d).Nodup := by
  refine List.nodup_flatMap.mpr ⟨fun v _ => ?_, ?_⟩
  · refine List.Nodup.map_on (fun a ha b hb he => ?_) ((List.nodup_finRange d).filter _)
    have hlow {a : Fin d} (ha : a ∈ (List.finRange d).filter fun a : Fin d => !v.high a) :
        v.high a = false := by
      simpa using (List.mem_filter.mp ha).2
    have hflip := (Prod.mk.inj he).2
    rw [Corner.raise_eq_flip (hlow ha), Corner.raise_eq_flip (hlow hb)] at hflip
    have hsame : v.apart (v.flip a) = [b] := Corner.apart_eq_singleton_iff.mpr hflip
    rw [Corner.apart_eq_singleton_iff.mpr rfl] at hsame
    exact List.singleton_inj.mp hsame
  · refine nodup_corners.imp fun hne => List.disjoint_left.mpr fun e hv hw => hne ?_
    obtain ⟨a, -, rfl⟩ := List.mem_map.mp hv
    obtain ⟨b, -, he⟩ := List.mem_map.mp hw
    exact (Prod.mk.inj he).1.symm

theorem countP_eq_sum_toNat {α : Type} (p : α → Bool) (xs : List α) :
    xs.countP p = (xs.map fun x => (p x).toNat).sum := by
  induction xs with
  | nil => rfl
  | cons x rest ih =>
    rw [List.countP_cons, List.map_cons, List.sum_cons, ih, Nat.add_comm]
    cases p x <;> rfl

theorem length_edges (d : Nat) : (edges d).length = d * cornerCount (d - 1) := by
  have hface (a : Fin d) : ∑ v : Corner d, (!v.high a).toNat = cornerCount (d - 1) := by
    have hcount : (corners d).countP (onFace (sideFace a false)) = cornerCount (d - 1) :=
      List.countP_eq_length_filter.trans (length_faceCorners (sideFace_lt a false))
    rw [← hcount, countP_eq_sum_toNat, Fin.sum_univ_def]
    refine congrArg List.sum (List.map_congr_left fun v _ => ?_)
    rw [onFace_sideFace, beq_false]
  have hedges (v : Corner d) : (((List.finRange d).filter fun a : Fin d => !v.high a).map
      fun a => (v, v.raise a)).length = ∑ a : Fin d, (!v.high a).toNat := by
    rw [List.length_map, ← List.countP_eq_length_filter, countP_eq_sum_toNat, Fin.sum_univ_def]
  calc (edges d).length = ∑ v : Corner d, ∑ a : Fin d, (!v.high a).toNat := by
        rw [edges, List.length_flatMap, Fin.sum_univ_def]
        exact congrArg List.sum (List.map_congr_left fun v _ => hedges v)
    _ = ∑ a : Fin d, ∑ v : Corner d, (!v.high a).toNat := Finset.sum_comm
    _ = d * cornerCount (d - 1) := by
        rw [Finset.sum_congr rfl fun a _ => hface a, Finset.sum_const, Finset.card_univ,
          Fintype.card_fin, smul_eq_mul]

/-- Of each axis but its own, one face has both ends of an edge. -/
theorem countP_onFace_both {v w : Corner d} (h : (v, w) ∈ edges d) :
    (List.range (faceCount d)).countP (fun f => onFace f v && onFace f w) = d - 1 := by
  obtain ⟨b, -, rfl⟩ := mem_edges.mp h
  have hone (a : Fin d) :
      (onFace (sideFace a false) v && onFace (sideFace a false) (v.flip b)).toNat +
        (onFace (sideFace a true) v && onFace (sideFace a true) (v.flip b)).toNat =
          if a ≠ b then 1 else 0 := by
    simp only [onFace_sideFace, Corner.high_flip]
    by_cases ha : a = b
    · cases v.high a <;> simp [ha]
    · cases v.high a <;> simp [ha]
  rw [countP_faces, Finset.sum_congr rfl fun a _ => hone a, Finset.sum_boole, Finset.filter_ne',
    Finset.card_erase_of_mem (Finset.mem_univ b), Finset.card_univ, Fintype.card_fin]
  rfl

/-- How corners, edges and faces of the cube lie on each other. -/
theorem incidence (d : Nat) :
    (∀ f < 2 * d, (faceCorners d f).length = 2 ^ (d - 1) ∧
      (faceCorners d f).Pairwise (· < ·)) ∧
    (∀ a < d, (faceCorners d (2 * a) ++ faceCorners d (2 * a + 1)).Perm (corners d)) ∧
    (∀ v : Corner d, (List.range (2 * d)).countP (fun f => v ∈ faceCorners d f) = d) ∧
    (edges d).length = d * 2 ^ (d - 1) ∧
    (∀ v w : Corner d, (edges d).count (v, w) =
      if v < w ∧ (List.finRange d).countP (fun a : Fin d => v.high a != w.high a) = 1
        then 1 else 0) ∧
    ∀ e ∈ edges d, (List.range (2 * d)).countP
      (fun f => e.1 ∈ faceCorners d f ∧ e.2 ∈ faceCorners d f) = d - 1 := by
  refine ⟨fun f hf => ⟨length_faceCorners hf, pairwise_faceCorners d f⟩,
    fun a _ => faceCorners_append_perm d a, fun v => ?_, length_edges d, fun v w => ?_,
    fun e he => ?_⟩
  · simp only [mem_faceCorners, Bool.decide_eq_true]
    exact countP_onFace v
  · rw [(nodup_edges d).count, List.countP_eq_length_filter]
    exact if_congr mem_edges_iff rfl rfl
  · simp only [mem_faceCorners, Bool.decide_and, Bool.decide_eq_true]
    exact countP_onFace_both he

theorem incidence_four :
    5 < 2 * 4 ∧ 2 < 4 ∧ ((⟨5, by decide⟩, ⟨13, by decide⟩) : Corner 4 × Corner 4) ∈ edges 4 ∧
      (faceCorners 4 5).length = 8 ∧ (faceCorners 4 5).Pairwise (· < ·) ∧
      (faceCorners 4 4 ++ faceCorners 4 5).Perm (corners 4) ∧
      (List.range 8).countP (fun f => (⟨5, by decide⟩ : Corner 4) ∈ faceCorners 4 f ∧
        (⟨13, by decide⟩ : Corner 4) ∈ faceCorners 4 f) = 3 := by
  have hface : 5 < 2 * 4 := by decide
  have haxis : 2 < 4 := by decide
  have hedge : ((⟨5, by decide⟩, ⟨13, by decide⟩) : Corner 4 × Corner 4) ∈ edges 4 := by decide
  obtain ⟨hfaces, hparts, -, -, -, hends⟩ := incidence 4
  exact ⟨hface, haxis, hedge, (hfaces 5 hface).1, (hfaces 5 hface).2, hparts 2 haxis,
    hends _ hedge⟩

end Cube
end HexMesh
