import HexMesh.Proofs.Topology.Corner
import Mathlib.Data.Fintype.EquivFin
import Mathlib.Data.List.Perm.Subperm
import Mathlib.Logic.Equiv.Defs

/-!
Symmetries of the cube.

A symmetry is a permutation of the corners that takes edges to edges; nothing is asked about
faces.  At each corner it says along which axis the image of an edge runs.  Across a square
this cannot change, because two corners that are two steps apart have only two common
neighbors, and so there is one permutation of the axes for all corners.  Whether the sides of
an axis are exchanged is then the same everywhere as well, which is why faces go to faces.
-/

namespace HexMesh
namespace Cube

variable {d : Nat}

/-! ## Steps between corners -/

namespace Corner

theorem flip_right_inj {v : Corner d} {a b : Fin d} : v.flip a = v.flip b ↔ a = b := by
  refine ⟨fun h => ?_, fun h => h ▸ rfl⟩
  by_contra hne
  have hhigh := v.high_flip_self a
  rw [h, high_flip_of_ne v hne] at hhigh
  cases hv : v.high a <;> rw [hv] at hhigh <;> cases hhigh

/-- Two corners that are two steps apart have only two common neighbors. -/
theorem eq_of_flip_flip_eq {v : Corner d} {a b a' b' : Fin d}
    (h : (v.flip a).flip b = (v.flip a').flip b') (hab : a ≠ b) (hne : a ≠ a') : b = a' := by
  by_contra hb
  have hleft : ((v.flip a).flip b).high a' = v.high a' := by
    rw [high_flip_of_ne _ (Ne.symm hb), high_flip_of_ne _ (Ne.symm hne)]
  -- So the second way takes back its first step, and the first way is a loop as well.
  have hback : b' = a' := by
    by_contra hb'
    rw [h, high_flip_of_ne _ (Ne.symm hb'), high_flip_self] at hleft
    cases hv : v.high a' <;> rw [hv] at hleft <;> cases hleft
  rw [hback, flip_flip] at h
  have hloop : v.flip a = v.flip b := by rw [← (v.flip a).flip_flip b, h]
  exact hab (flip_right_inj.mp hloop)

/-- What no step changes is the same at all corners. -/
theorem eq_of_flip_eq {α : Type} {f : Corner d → α} (h : ∀ v a, f (v.flip a) = f v)
    (v w : Corner d) : f v = f w := by
  -- One axis after the other, from the sides of `w` to those of `v`.
  have hpath : ∀ n ≤ d, f (ofHigh fun a => if a.val < n then v.high a else w.high a) = f w := by
    intro n
    induction n with
    | zero =>
      intro _
      congr 1
      exact ext_high fun a => by simp
    | succ n ih =>
      intro hn
      rw [← ih (Nat.le_of_succ_le hn)]
      by_cases hside : v.high n = w.high n
      · congr 1
        refine ext_high fun a => ?_
        rw [high_ofHigh, high_ofHigh]
        rcases Nat.lt_trichotomy a.val n with ha | ha | ha
        · rw [if_pos (Nat.lt_succ_of_lt ha), if_pos ha]
        · rw [if_pos (by omega), if_neg (by omega), ha, hside]
        · rw [if_neg (by omega), if_neg (by omega)]
      · rw [← h _ ⟨n, hn⟩]
        congr 1
        refine ext_high fun a => ?_
        rw [high_flip, high_ofHigh, high_ofHigh]
        by_cases ha : a = ⟨n, hn⟩
        · subst ha
          rw [if_pos rfl, if_pos (Nat.lt_succ_self n), if_neg (Nat.lt_irrefl n)]
          exact Bool.not_eq.mpr hside
        · have hne : a.val ≠ n := fun he => ha (Fin.ext he)
          rw [if_neg ha]
          exact if_congr (by omega) rfl rfl
  rw [← hpath d (Nat.le_refl d)]
  congr 1
  exact ext_high fun a => by rw [high_ofHigh, if_pos a.isLt]

end Corner

/-! ## Symmetries -/

/-- The permutation of the corners takes each edge to an edge, in either direction. -/
def IsSymmetry (s : Equiv.Perm (Corner d)) : Prop :=
  ∀ e ∈ edges d, (s e.1, s e.2) ∈ edges d ∨ (s e.2, s e.1) ∈ edges d

instance (s : Equiv.Perm (Corner d)) : Decidable (IsSymmetry s) :=
  inferInstanceAs (Decidable (∀ e ∈ edges d, (s e.1, s e.2) ∈ edges d ∨ (s e.2, s e.1) ∈ edges d))

/-- Turning the cube over along an axis. -/
def turn (a : Fin d) : Equiv.Perm (Corner d) :=
  Function.Involutive.toPerm (Corner.flip · a) (Corner.flip_flip · a)

@[simp] theorem turn_apply (a : Fin d) (v : Corner d) : turn a v = v.flip a := rfl

theorem isSymmetry_turn (a : Fin d) : IsSymmetry (turn a) := by
  rintro ⟨v, w⟩ he
  obtain ⟨b, hlow, rfl⟩ := mem_edges.mp he
  rw [turn_apply, turn_apply]
  by_cases hab : a = b
  · subst hab
    exact Or.inr (by rwa [Corner.flip_flip])
  · refine Or.inl (mem_edges.mpr ⟨b, ?_, Corner.flip_comm v b a⟩)
    rw [Corner.high_flip_of_ne v (Ne.symm hab), hlow]

namespace IsSymmetry

variable {s : Equiv.Perm (Corner d)}

theorem exists_flip (h : IsSymmetry s) (v : Corner d) (a : Fin d) :
    ∃ b, s (v.flip a) = (s v).flip b := by
  have hlow {u : Corner d} (hu : u.high a = false) : ∃ b, s (u.flip a) = (s u).flip b := by
    rcases h (u, u.flip a) (mem_edges.mpr ⟨a, hu, rfl⟩) with hedge | hedge
    · obtain ⟨b, -, hb⟩ := mem_edges.mp hedge
      exact ⟨b, hb⟩
    · obtain ⟨b, -, hb⟩ := mem_edges.mp hedge
      exact ⟨b, by rw [hb, Corner.flip_flip]⟩
  cases hv : v.high a with
  | false => exact hlow hv
  | true =>
    obtain ⟨b, hb⟩ := hlow (u := v.flip a) (by rw [Corner.high_flip_self, hv]; rfl)
    rw [Corner.flip_flip] at hb
    exact ⟨b, by rw [hb, Corner.flip_flip]⟩

/-- A symmetry permutes the axes, at every corner in the same way. -/
theorem exists_axes (h : IsSymmetry s) :
    ∃ axes : Equiv.Perm (Fin d), ∀ v a, s (v.flip a) = (s v).flip (axes a) := by
  choose axis haxis using h.exists_flip
  have hinjective (v : Corner d) : Function.Injective (axis v) := by
    intro a b he
    refine (Corner.flip_right_inj (v := v)).mp (s.injective ?_)
    rw [haxis, haxis, he]
  have hstep (v : Corner d) (b : Fin d) : axis (v.flip b) = axis v := by
    funext a
    by_cases hab : a = b
    · subst hab
      have hback := haxis (v.flip a) a
      rw [Corner.flip_flip, haxis v a] at hback
      rw [Corner.flip_comm] at hback
      have hloop : (s v).flip (axis v a) = (s v).flip (axis (v.flip a) a) := by
        rw [← Corner.flip_flip ((s v).flip (axis (v.flip a) a)) (axis v a), ← hback]
      exact (Corner.flip_right_inj.mp hloop).symm
    · -- Both ways around the square that the axes span at `v` end in the same corner.
      have hsquare : ((s v).flip (axis v b)).flip (axis (v.flip b) a) =
          ((s v).flip (axis v a)).flip (axis (v.flip a) b) := by
        rw [← haxis v b, ← haxis v a, ← haxis, ← haxis, Corner.flip_comm]
      refine Corner.eq_of_flip_flip_eq hsquare (fun he => ?_) fun he => hab (hinjective v he).symm
      have hloop : s ((v.flip b).flip a) = s v := by
        rw [haxis, haxis, ← he, Corner.flip_flip]
      have hback : v.flip b = v.flip a := by
        rw [← (v.flip b).flip_flip a, s.injective hloop]
      exact hab (Corner.flip_right_inj.mp hback).symm
  let low : Corner d := Corner.low d
  refine ⟨Equiv.ofBijective (axis low) (Finite.injective_iff_bijective.mp (hinjective low)),
    fun v a => ?_⟩
  rw [haxis, Corner.eq_of_flip_eq hstep v low]
  rfl

/-- The image of a face is a face. -/
theorem exists_face (h : IsSymmetry s) {face : Nat} (hface : face < faceCount d) :
    ∃ g < faceCount d, ∀ v, onFace g (s v) = onFace face v := by
  obtain ⟨axes, haxes⟩ := h.exists_axes
  let a := faceAxis hface
  -- Where the sides of the axis are exchanged, they are exchanged at every corner.
  have hstep (v : Corner d) (b : Fin d) : ((s (v.flip b)).high (axes a) ^^ (v.flip b).high a) =
      ((s v).high (axes a) ^^ v.high a) := by
    rw [haxes]
    by_cases hab : b = a
    · subst hab
      rw [Corner.high_flip_self, Corner.high_flip_self, Bool.not_xor_not]
    · rw [Corner.high_flip_of_ne _ fun he => hab (axes.injective he).symm,
        Corner.high_flip_of_ne _ (Ne.symm hab)]
  let exchanged := (s (Corner.low d)).high (axes a) ^^ (Corner.low d).high a
  refine ⟨sideFace (axes a) ((face % 2 == 1) ^^ exchanged), sideFace_lt _ _, fun v => ?_⟩
  have hv : ((s v).high (axes a) ^^ v.high a) = exchanged := Corner.eq_of_flip_eq
    (f := fun v => (s v).high (axes a) ^^ v.high a) hstep v (Corner.low d)
  rw [onFace_sideFace, ← hv]
  show _ = (v.high a == (face % 2 == 1))
  cases (s v).high (axes a) <;> cases v.high a <;> cases face % 2 == 1 <;> rfl

/-- A symmetry permutes the faces. -/
theorem exists_faces (h : IsSymmetry s) :
    ∃ move : Nat → Nat, ((List.range (faceCount d)).map move).Perm (List.range (faceCount d)) ∧
      ∀ face < faceCount d, ∀ v, onFace (move face) (s v) = onFace face v := by
  choose! move hlt honFace using fun face (hface : face < faceCount d) => h.exists_face hface
  refine ⟨move, ?_, honFace⟩
  have hnodup : ((List.range (faceCount d)).map move).Nodup := by
    refine List.nodup_range.map_on fun f hf g hg he => ?_
    have hf := List.mem_range.mp hf
    have hg := List.mem_range.mp hg
    exact eq_of_onFace hf hg fun v => by rw [← honFace f hf, ← honFace g hg, he]
  have hsub : (List.range (faceCount d)).map move ⊆ List.range (faceCount d) := by
    intro g hg
    obtain ⟨f, hf, rfl⟩ := List.mem_map.mp hg
    exact List.mem_range.mpr (hlt f (List.mem_range.mp hf))
  exact (List.subperm_of_subset hnodup hsub).perm_of_length_le (by simp)

/-- The corners of the image of a face are the images of its corners. -/
theorem perm_faceCorners {f g : Nat} (hface : ∀ v, onFace g (s v) = onFace f v) :
    ((faceCorners d f).map s).Perm (faceCorners d g) := by
  refine (List.perm_ext_iff_of_nodup ((nodup_faceCorners f).map s.injective)
    (nodup_faceCorners g)).mpr fun w => ?_
  rw [List.mem_map, mem_faceCorners]
  constructor
  · rintro ⟨v, hv, rfl⟩
    rw [hface]
    exact mem_faceCorners.mp hv
  · intro hw
    refine ⟨s.symm w, mem_faceCorners.mpr ?_, s.apply_symm_apply w⟩
    rwa [← hface, s.apply_symm_apply]

end IsSymmetry

end Cube
end HexMesh
