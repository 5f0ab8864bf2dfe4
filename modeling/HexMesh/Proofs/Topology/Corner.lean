import HexMesh.Topology.Cube
import Mathlib.Data.List.Nodup
import Mathlib.Data.Nat.Init

/-!
Corners of the cube as bit patterns.

A corner is decided by its sides along the axes, and every choice of sides is a
corner.  Moving a corner across one axis is an involution that exchanges the two
faces of this axis, which is why each of them holds half of all corners.
-/

namespace HexMesh
namespace Cube

variable {d : Nat}

namespace Corner

theorem ext_high {v w : Corner d} (h : ∀ a : Fin d, v.high a = w.high a) : v = w := by
  refine Fin.ext (Nat.eq_of_testBit_eq fun i => ?_)
  rcases Nat.lt_or_ge i d with hi | hi
  · exact h ⟨i, hi⟩
  · have hbound : cornerCount d ≤ 2 ^ i := Nat.pow_le_pow_right (by decide) hi
    rw [Nat.testBit_lt_two_pow (Nat.lt_of_lt_of_le v.isLt hbound),
      Nat.testBit_lt_two_pow (Nat.lt_of_lt_of_le w.isLt hbound)]

/-- The corner on given sides. -/
def ofHigh (f : Fin d → Bool) : Corner d := ⟨Nat.ofBits f, Nat.ofBits_lt_two_pow f⟩

@[simp] theorem high_ofHigh (f : Fin d → Bool) (a : Fin d) : (ofHigh f).high a = f a :=
  Nat.testBit_ofBits_lt f a.val a.isLt

theorem ext_toNat {v w : Corner d} (h : ∀ a : Fin d, (v.high a).toNat = (w.high a).toNat) :
    v = w := by
  refine ext_high fun a => ?_
  have ha := h a
  revert ha
  cases v.high a <;> cases w.high a <;> decide

/-- The corner on given sides, zero for the low one and one for the high one. -/
def ofSides (f : Fin d → Nat) : Corner d := ofHigh fun a => f a == 1

theorem toNat_high_ofSides {f : Fin d → Nat} {a : Fin d} (h : f a ≤ 1) :
    ((ofSides f).high a).toNat = f a := by
  rw [ofSides, high_ofHigh]
  rcases Nat.le_one_iff_eq_zero_or_eq_one.mp h with ha | ha <;> rw [ha] <;> rfl

/-- The same corner moved to the other side along an axis. -/
def flip (v : Corner d) (axis : Fin d) : Corner d :=
  ⟨v.val ^^^ Nat.pow 2 axis.val,
    Nat.xor_lt_two_pow v.isLt (Nat.pow_lt_pow_right (by decide) axis.isLt)⟩

theorem high_flip (v : Corner d) (axis b : Fin d) :
    (v.flip axis).high b = if b = axis then !v.high b else v.high b := by
  show (v.val ^^^ 2 ^ axis.val).testBit b = _
  rw [Nat.testBit_xor]
  by_cases hb : b = axis
  · subst hb
    rw [if_pos rfl, Nat.testBit_two_pow_self, Bool.xor_true]
    rfl
  · have hne : axis.val ≠ b.val := fun he => hb (Fin.ext he.symm)
    rw [if_neg hb, Nat.testBit_two_pow_of_ne hne, Bool.xor_false]
    rfl

@[simp] theorem high_flip_self (v : Corner d) (axis : Fin d) :
    (v.flip axis).high axis = !v.high axis := by
  rw [high_flip, if_pos rfl]

theorem high_flip_of_ne (v : Corner d) {axis b : Fin d} (h : b ≠ axis) :
    (v.flip axis).high b = v.high b := by
  rw [high_flip, if_neg h]

@[simp] theorem flip_flip (v : Corner d) (axis : Fin d) : (v.flip axis).flip axis = v := by
  apply ext_high
  intro b
  by_cases hb : b = axis
  · subst hb; simp
  · rw [high_flip_of_ne _ hb, high_flip_of_ne _ hb]

theorem flip_ne_self (v : Corner d) (a : Fin d) : v.flip a ≠ v := by
  intro h
  have hhigh := v.high_flip_self a
  rw [h] at hhigh
  cases hv : v.high a <;> rw [hv] at hhigh <;> cases hhigh

theorem flip_injective (axis : Fin d) : Function.Injective (flip · axis) := by
  intro v w he
  have hback := congrArg (flip · axis) he
  simpa using hback

theorem flip_comm (v : Corner d) (a b : Fin d) : (v.flip a).flip b = (v.flip b).flip a := by
  refine Fin.ext ?_
  show v.val ^^^ _ ^^^ _ = v.val ^^^ _ ^^^ _
  rw [Nat.xor_assoc, Nat.xor_assoc, Nat.xor_comm (Nat.pow 2 a.val)]

theorem raise_eq_flip {v : Corner d} {a : Fin d} (h : v.high a = false) :
    v.raise a = v.flip a := by
  refine ext_high fun b => ?_
  rw [high_flip]
  show (v.val ||| 2 ^ a.val).testBit b.val = _
  rw [Nat.testBit_or]
  by_cases hb : b = a
  · subst hb
    rw [if_pos rfl, Nat.testBit_two_pow_self, Bool.or_true, h]
    rfl
  · have hne : a.val ≠ b.val := fun he => hb (Fin.ext he.symm)
    rw [if_neg hb, Nat.testBit_two_pow_of_ne hne, Bool.or_false]
    rfl

/-- Half of all corners away is the other side of the last axis. -/
theorem across_eq_flip {e : Nat} (v : Corner (e + 1)) : v.across = v.flip (Fin.last e) := by
  have hhalf : cornerCount (e + 1) / 2 = 2 ^ e := by
    show 2 ^ (e + 1) / 2 = 2 ^ e
    omega
  refine ext_high fun a => ?_
  rw [high_flip]
  show ((v.val + cornerCount (e + 1) / 2) % 2 ^ (e + 1)).testBit a.val = _
  rw [hhalf, Nat.testBit_mod_two_pow, decide_eq_true a.isLt, Bool.true_and, Nat.add_comm]
  by_cases ha : a = Fin.last e
  · subst ha
    rw [if_pos rfl]
    exact Nat.testBit_two_pow_add_eq v.val e
  · rw [if_neg ha]
    exact Nat.testBit_two_pow_add_gt (Fin.val_lt_last ha) v.val

theorem high_rev (v : Corner d) (a : Fin d) : Corner.high (Fin.rev v) a = !v.high a := by
  show (2 ^ d - (v.val + 1)).testBit a = _
  rw [Nat.testBit_two_pow_sub_succ v.isLt]
  simp [high]

end Corner

theorem mem_edges {v w : Corner d} :
    (v, w) ∈ edges d ↔ ∃ a : Fin d, v.high a = false ∧ w = v.flip a := by
  simp only [edges, List.mem_flatMap, List.mem_map, List.mem_filter, List.mem_finRange,
    Prod.mk.injEq, Bool.not_eq_true']
  constructor
  · rintro ⟨_, -, a, ⟨-, ha⟩, rfl, rfl⟩
    exact ⟨a, ha, Corner.raise_eq_flip ha⟩
  · rintro ⟨a, ha, rfl⟩
    exact ⟨v, mem_corners v, a, ⟨trivial, ha⟩, rfl, Corner.raise_eq_flip ha⟩

/-! ## Faces -/

/-- The axis that a face is orthogonal to. -/
def faceAxis {face : Nat} (h : face < faceCount d) : Fin d :=
  ⟨face / 2, by unfold faceCount at h; omega⟩

theorem val_faceAxis {face : Nat} (h : face < faceCount d) : (faceAxis h).val = face / 2 := rfl

theorem onFace_iff {face : Nat} (h : face < faceCount d) (v : Corner d) :
    onFace face v = true ↔ v.high (faceAxis h) = (face % 2 == 1) :=
  beq_iff_eq

theorem exists_onFace {face : Nat} (h : face < faceCount d) :
    ∃ v : Corner d, onFace face v = true :=
  ⟨Corner.ofHigh fun _ => face % 2 == 1, (onFace_iff h _).mpr (Corner.high_ofHigh _ _)⟩

/-- The other face of the same axis. -/
def acrossFace (face : Nat) : Nat := if face % 2 = 0 then face + 1 else face - 1

theorem acrossFace_lt {face : Nat} (h : face < faceCount d) : acrossFace face < faceCount d := by
  unfold acrossFace faceCount at *
  split <;> omega

theorem acrossFace_ne (face : Nat) : acrossFace face ≠ face := by
  unfold acrossFace
  split <;> omega

theorem acrossFace_div (face : Nat) : acrossFace face / 2 = face / 2 := by
  unfold acrossFace
  split <;> omega

theorem acrossFace_mod (face : Nat) : acrossFace face % 2 + face % 2 = 1 := by
  unfold acrossFace
  split <;> omega

theorem onFace_acrossFace (face : Nat) (v : Corner d) :
    onFace (acrossFace face) v = !onFace face v := by
  unfold acrossFace onFace
  rcases Nat.mod_two_eq_zero_or_one face with h | h
  · have hdiv : (face + 1) / 2 = face / 2 := by omega
    have hmod : (face + 1) % 2 = 1 := by omega
    rw [if_pos h, hdiv, hmod, h]
    cases v.high (face / 2) <;> rfl
  · have hdiv : (face - 1) / 2 = face / 2 := by omega
    have hmod : (face - 1) % 2 = 0 := by omega
    rw [if_neg (by omega), hdiv, hmod, h]
    cases v.high (face / 2) <;> rfl

theorem onFace_flip {face : Nat} (h : face < faceCount d) (v : Corner d) :
    onFace face (v.flip (faceAxis h)) = !onFace face v := by
  show ((v.flip (faceAxis h)).high (faceAxis h) == _) = !(v.high (faceAxis h) == _)
  rw [Corner.high_flip_self]
  cases v.high (faceAxis h) <;> cases face % 2 == 1 <;> rfl

/-- The number of a face, by the axis to which it is orthogonal and the end of that axis. -/
def sideFace (axis : Fin d) (last : Bool) : Nat := 2 * axis + last.toNat

theorem sideFace_lt (axis : Fin d) (last : Bool) : sideFace axis last < faceCount d := by
  have haxis := axis.isLt
  have hlast := Bool.toNat_le last
  unfold sideFace faceCount
  omega

theorem sideFace_div (axis : Fin d) (last : Bool) : sideFace axis last / 2 = axis := by
  have hlast := Bool.toNat_le last
  unfold sideFace
  omega

theorem sideFace_mod (axis : Fin d) (last : Bool) : sideFace axis last % 2 = last.toNat := by
  have hlast := Bool.toNat_le last
  unfold sideFace
  omega

theorem acrossFace_sideFace (axis : Fin d) (last : Bool) :
    acrossFace (sideFace axis last) = sideFace axis !last := by
  rw [acrossFace, sideFace_mod]
  cases last <;> rfl

theorem onFace_sideFace (axis : Fin d) (last : Bool) (v : Corner d) :
    onFace (sideFace axis last) v = (v.high axis == last) := by
  rw [onFace, sideFace_div, sideFace_mod]
  cases last <;> rfl

/-- Faces with the same corners are the same. -/
theorem eq_of_onFace {f g : Nat} (hf : f < faceCount d) (hg : g < faceCount d)
    (h : ∀ v : Corner d, onFace f v = onFace g v) : f = g := by
  have haxis : faceAxis hf = faceAxis hg := by
    by_contra hne
    have hflip := h ((Corner.low d).flip (faceAxis hf))
    have hstay : onFace g ((Corner.low d).flip (faceAxis hf)) = onFace g (Corner.low d) := by
      show (((Corner.low d).flip (faceAxis hf)).high (faceAxis hg) == _) = _
      rw [Corner.high_flip_of_ne _ (Ne.symm hne)]
      rfl
    rw [onFace_flip hf, h, hstay] at hflip
    exact (Bool.not_eq_self _).mp hflip
  obtain ⟨v, hv⟩ := exists_onFace hf
  have hf' := (onFace_iff hf v).mp hv
  have hg' := (onFace_iff hg v).mp (h v ▸ hv)
  rw [← haxis, hf', beq_eq_beq] at hg'
  have hdiv : f / 2 = g / 2 := congrArg Fin.val haxis
  omega

theorem nodup_corners : (corners d).Nodup := List.nodup_finRange _

theorem nodup_faceCorners (face : Nat) : (faceCorners d face).Nodup := nodup_corners.filter _

theorem length_corners : (corners d).length = cornerCount d := List.length_finRange

/-- Moving across an axis exchanges the corners with and without a property that changes
there, so half of them have it. -/
theorem two_mul_countP_of_flip {vs : List (Corner d)} (hvs : vs.Nodup) {axis : Fin d}
    (hflip : ∀ v ∈ vs, v.flip axis ∈ vs) {p : Corner d → Bool}
    (hp : ∀ v, p (v.flip axis) = !p v) : 2 * vs.countP p = vs.length := by
  have hperm : (vs.map (Corner.flip · axis)).Perm vs := by
    refine (List.perm_ext_iff_of_nodup (hvs.map (Corner.flip_injective _)) hvs).mpr fun v => ?_
    rw [List.mem_map]
    constructor
    · intro h
      obtain ⟨w, hw, rfl⟩ := h
      exact hflip w hw
    · exact fun hv => ⟨v.flip axis, hflip v hv, Corner.flip_flip v axis⟩
  have hhalf : vs.countP p = vs.countP (fun v => ¬p v) := by
    rw [← hperm.countP_eq, List.countP_map]
    apply List.countP_congr
    intro v _
    rw [Function.comp_apply, hp v]
    simp
  have hsum := List.length_eq_countP_add_countP p (l := vs)
  omega

theorem two_mul_length_faceCorners {face : Nat} (h : face < faceCount d) :
    2 * (faceCorners d face).length = cornerCount d := by
  rw [faceCorners, ← List.countP_eq_length_filter, ← length_corners]
  exact two_mul_countP_of_flip nodup_corners (fun v _ => mem_corners (v.flip (faceAxis h)))
    (onFace_flip h)

theorem half_add_half (h : 0 < d) : cornerCount d / 2 + cornerCount d / 2 = cornerCount d := by
  obtain ⟨e, rfl⟩ : ∃ e, d = e + 1 := ⟨d - 1, by omega⟩
  have hdouble : cornerCount (e + 1) = 2 * cornerCount e := Nat.pow_succ'
  omega

theorem length_faceCorners {face : Nat} (h : face < faceCount d) :
    (faceCorners d face).length = cornerCount (d - 1) := by
  have hhalf := two_mul_length_faceCorners h
  unfold faceCount at h
  obtain ⟨e, rfl⟩ : ∃ e, d = e + 1 := ⟨d - 1, by omega⟩
  have hdouble : cornerCount (e + 1) = 2 * cornerCount e := Nat.pow_succ'
  rw [Nat.add_sub_cancel]
  omega

end Cube
end HexMesh
