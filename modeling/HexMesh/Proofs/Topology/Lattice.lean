import HexMesh.Proofs.Topology.Corner

/-!
Points of the halving lattice and the pieces of the cube around them.

A lattice point is decided by its digits, and it is the meeting point of a child
with one of the corners of that child.  The piece in whose middle the point lies
is then spanned by the child's own corner and the corner of the child, which is
`supports_childPoint`.  Among the pieces at one child, containment is therefore a
statement about single corners.
-/

namespace HexMesh
namespace Cube

variable {d : Nat}

/-! ## Digits -/

/-- The number with given digits in base three, the first axis lowest. -/
def ofDigits (f : Fin d → Nat) : Nat :=
  (List.finRange d).foldl (fun n a => n + f a * Nat.pow 3 a.val) 0

theorem ofDigits_succ (f : Fin (d + 1) → Nat) :
    ofDigits f = ofDigits (fun a => f a.castSucc) + f (Fin.last d) * Nat.pow 3 d := by
  rw [ofDigits, List.finRange_succ_last, List.foldl_append, List.foldl_map]
  rfl

theorem ofDigits_lt {f : Fin d → Nat} (h : ∀ a, f a < 3) : ofDigits f < latticeCount d := by
  induction d with
  | zero => exact Nat.one_pos
  | succ d ih =>
    have hlow : ofDigits (fun a => f a.castSucc) < 3 ^ d := ih fun a => h a.castSucc
    have hlast : f (Fin.last d) * 3 ^ d ≤ 2 * 3 ^ d :=
      Nat.mul_le_mul_right _ (Nat.le_of_lt_succ (h (Fin.last d)))
    rw [ofDigits_succ]
    show _ + f (Fin.last d) * 3 ^ d < 3 ^ (d + 1)
    rw [Nat.pow_succ]
    omega

theorem latticeDigit_ofDigits {f : Fin d → Nat} (h : ∀ a, f a < 3) (a : Fin d) :
    latticeDigit (ofDigits f) a = f a := by
  induction d with
  | zero => exact a.elim0
  | succ d ih =>
    rw [ofDigits_succ]
    show (ofDigits (fun a => f a.castSucc) + f (Fin.last d) * 3 ^ d) / 3 ^ a.val % 3 = f a
    have hlow : ofDigits (fun a => f a.castSucc) < 3 ^ d := ofDigits_lt fun a => h a.castSucc
    cases a using Fin.lastCases with
    | last =>
      rw [Fin.val_last, Nat.add_mul_div_right _ _ (Nat.pow_pos (by decide)),
        Nat.div_eq_of_lt hlow, Nat.zero_add, Nat.mod_eq_of_lt (h _)]
    | cast a =>
      -- The last digit adds a multiple of three to the quotient by a lower power.
      have hsplit : 3 ^ d = 3 ^ (d - a.val - 1) * 3 * 3 ^ a.val := by
        rw [← Nat.pow_succ, ← Nat.pow_add]
        congr 1
        omega
      rw [Fin.val_castSucc, hsplit, ← Nat.mul_assoc,
        Nat.add_mul_div_right _ _ (Nat.pow_pos (by decide)),
        ← Nat.mul_assoc, Nat.add_mul_mod_self_right]
      exact ih (fun a => h a.castSucc) a

theorem latticeDigit_lt (p a : Nat) : latticeDigit p a < 3 := Nat.mod_lt _ (by decide)

theorem latticePoint_ext {p q : Nat} (hp : p < latticeCount d) (hq : q < latticeCount d)
    (h : ∀ a : Fin d, latticeDigit p a = latticeDigit q a) : p = q := by
  have hmod : ∀ e, e ≤ d → p % 3 ^ e = q % 3 ^ e := by
    intro e
    induction e with
    | zero => intro _; rw [Nat.pow_zero, Nat.mod_one, Nat.mod_one]
    | succ e ih =>
      intro he
      have hdigit : p / 3 ^ e % 3 = q / 3 ^ e % 3 := h ⟨e, he⟩
      rw [Nat.pow_succ, Nat.mod_mul, Nat.mod_mul, ih (Nat.le_of_succ_le he), hdigit]
  have hpmod : p % 3 ^ d = p := Nat.mod_eq_of_lt hp
  have hqmod : q % 3 ^ d = q := Nat.mod_eq_of_lt hq
  rw [← hpmod, ← hqmod]
  exact hmod d (Nat.le_refl d)

/-! ## Lattice points as meeting points -/

theorem sides_lt (child v : Corner d) (a : Fin d) :
    (child.high a).toNat + (v.high a).toNat < 3 := by
  have hchild := Bool.toNat_lt (child.high a)
  have hv := Bool.toNat_lt (v.high a)
  omega

theorem childPoint_lt (child v : Corner d) : childPoint child v < latticeCount d :=
  ofDigits_lt (sides_lt child v)

@[simp] theorem latticeDigit_childPoint (child v : Corner d) (a : Fin d) :
    latticeDigit (childPoint child v) a = (child.high a).toNat + (v.high a).toNat :=
  latticeDigit_ofDigits (sides_lt child v) a

/-- The piece around a lattice point holds the corners on the sides that the digits
leave open. -/
theorem supports_iff {p : Nat} {v : Corner d} :
    supports p v = true ↔
      ∀ a : Fin d, latticeDigit p a = 1 ∨ latticeDigit p a = 2 * (v.high a).toNat := by
  rw [supports, List.all_eq_true]
  refine ⟨fun h a => ?_, fun h a _ => ?_⟩
  · have ha := h a (List.mem_finRange a)
    have hlt := latticeDigit_lt p a
    generalize latticeDigit p a = digit at ha hlt ⊢
    match digit, hlt with
    | 0, _ =>
      have hv : v.high a = false := by simpa using ha
      rw [hv]
      exact Or.inr rfl
    | 1, _ => exact Or.inl rfl
    | 2, _ =>
      have hv : v.high a = true := by simpa using ha
      rw [hv]
      exact Or.inr rfl
  · have ha := h a
    cases hv : v.high a <;> rw [hv] at ha <;> rcases ha with ha | ha <;> simp [ha]

/-- The piece around the point where a child meets one of its corners is spanned by the
two corners. -/
theorem supports_childPoint {child v w : Corner d} :
    supports (childPoint child v) w = true ↔
      ∀ a : Fin d, w.high a = child.high a ∨ w.high a = v.high a := by
  rw [supports_iff]
  apply forall_congr'
  intro a
  rw [latticeDigit_childPoint]
  cases child.high a <;> cases v.high a <;> cases w.high a <;> decide

theorem supports_childPoint_left (child v : Corner d) :
    supports (childPoint child v) child = true :=
  supports_childPoint.mpr fun _ => Or.inl rfl

theorem supports_childPoint_right (child v : Corner d) :
    supports (childPoint child v) v = true :=
  supports_childPoint.mpr fun _ => Or.inr rfl

/-- Of two pieces at one child, the first lies in the second as soon as the corner that
spans it does. -/
theorem supports_childPoint_trans {child u v w : Corner d}
    (hv : supports (childPoint child v) u = true) (hw : supports (childPoint child w) v = true) :
    supports (childPoint child w) u = true := by
  rw [supports_childPoint] at hv hw ⊢
  intro a
  rcases hv a with hu | hu
  · exact Or.inl hu
  · rw [hu]
    exact hw a

/-- Seen from a child, the corners of a piece are those between its nearest and its
farthest corner. -/
theorem supports_childPoint_between {child near far w : Corner d}
    (h : supports (childPoint child far) near = true) :
    supports (childPoint near far) w = true ↔
      supports (childPoint child w) near = true ∧ supports (childPoint child far) w = true := by
  rw [supports_childPoint] at h
  rw [supports_childPoint, supports_childPoint, supports_childPoint, ← forall_and]
  apply forall_congr'
  intro a
  have ha := h a
  revert ha
  cases child.high a <;> cases near.high a <;> cases far.high a <;> cases w.high a <;> decide

/-- Every piece has a nearest and a farthest corner as seen from a child, and it is spanned
by the two. -/
theorem exists_near_far {p : Nat} (hp : p < latticeCount d) (child : Corner d) :
    ∃ near far, childPoint near far = p ∧ supports (childPoint child far) near = true := by
  refine ⟨Corner.ofHigh fun a =>
      if latticeDigit p a = 1 then child.high a else latticeDigit p a == 2,
    Corner.ofHigh fun a => if latticeDigit p a = 1 then !child.high a else latticeDigit p a == 2,
    latticePoint_ext (childPoint_lt _ _) hp fun a => ?_, supports_childPoint.mpr fun a => ?_⟩
  · rw [latticeDigit_childPoint, Corner.high_ofHigh, Corner.high_ofHigh]
    have hlt := latticeDigit_lt p a
    generalize latticeDigit p a = digit at hlt ⊢
    match digit, hlt with
    | 0, _ => rfl
    | 1, _ => cases child.high a <;> rfl
    | 2, _ => rfl
  · rw [Corner.high_ofHigh, Corner.high_ofHigh]
    by_cases ha : latticeDigit p a = 1
    · rw [if_pos ha]
      exact Or.inl rfl
    · rw [if_neg ha, if_neg ha]
      exact Or.inr rfl

theorem exists_childPoint {p : Nat} (hp : p < latticeCount d) {child : Corner d}
    (h : supports p child = true) : ∃ v, childPoint child v = p := by
  refine ⟨Corner.ofHigh fun a =>
    if latticeDigit p a = 1 then !child.high a else child.high a, ?_⟩
  apply latticePoint_ext (childPoint_lt _ _) hp
  intro a
  rw [latticeDigit_childPoint, Corner.high_ofHigh]
  rcases supports_iff.mp h a with ha | ha
  · rw [if_pos ha, ha]
    cases child.high a <;> rfl
  · rw [ha]
    cases child.high a <;> rfl

theorem exists_supports {p : Nat} : ∃ v : Corner d, supports p v = true := by
  refine ⟨Corner.ofHigh fun a => latticeDigit p a == 2, supports_iff.mpr fun a => ?_⟩
  rw [Corner.high_ofHigh]
  have hlt := latticeDigit_lt p a
  generalize latticeDigit p a = digit at hlt ⊢
  match digit, hlt with
  | 0, _ => right; rfl
  | 1, _ => left; rfl
  | 2, _ => right; rfl

theorem mem_latticeCorners {p : Nat} {v : Corner d} :
    v ∈ latticeCorners d p ↔ supports p v = true := by
  simp [latticeCorners, mem_corners]

theorem nodup_latticeCorners (p : Nat) : (latticeCorners d p).Nodup := nodup_corners.filter _

/-- Along an axis where the point is in the middle, the piece has corners on both sides. -/
theorem supports_flip {p : Nat} {a : Fin d} (ha : latticeDigit p a = 1) {v : Corner d}
    (hv : supports p v = true) : supports p (v.flip a) = true := by
  refine supports_iff.mpr fun b => ?_
  by_cases hb : b = a
  · exact Or.inl (hb ▸ ha)
  · rw [Corner.high_flip_of_ne v hb]
    exact supports_iff.mp hv b

/-- On average the corners of a piece lie where the point is along every axis. -/
theorem two_mul_countP_high (p : Nat) (a : Fin d) :
    2 * (latticeCorners d p).countP (·.high a) =
      latticeDigit p a * (latticeCorners d p).length := by
  have hside {v : Corner d} (hv : v ∈ latticeCorners d p) :=
    supports_iff.mp (mem_latticeCorners.mp hv)
  have hlt := latticeDigit_lt p a
  have hcases : latticeDigit p a = 0 ∨ latticeDigit p a = 1 ∨ latticeDigit p a = 2 := by omega
  rcases hcases with hp | hp | hp
  · rw [hp, Nat.zero_mul, List.countP_eq_zero.mpr fun v hv hhigh => ?_]
    have ha := hside hv a
    rw [hp, hhigh] at ha
    exact absurd ha (by decide)
  · rw [hp, Nat.one_mul]
    exact two_mul_countP_of_flip (nodup_latticeCorners p)
      (fun v hv => mem_latticeCorners.mpr (supports_flip hp (mem_latticeCorners.mp hv)))
      fun v => v.high_flip_self a
  · rw [hp, List.countP_eq_length.mpr fun v hv => ?_]
    have ha := hside hv a
    rw [hp] at ha
    revert ha
    cases v.high a <;> decide

/-! ## How many corners a piece has -/

/-- The axes along which a lattice point lies in the middle, as many as its piece has
dimensions. -/
def openAxes (d p : Nat) : List (Fin d) := (List.finRange d).filter fun a => latticeDigit p a == 1

theorem mem_openAxes {p : Nat} {a : Fin d} : a ∈ openAxes d p ↔ latticeDigit p a = 1 := by
  simp [openAxes]

theorem nodup_openAxes (d p : Nat) : (openAxes d p).Nodup := (List.nodup_finRange d).filter _

/-- A point that lies in the middle nowhere is a corner. -/
theorem length_latticeCorners_of_closed {p : Nat} (h : openAxes d p = []) :
    (latticeCorners d p).length = 1 := by
  obtain ⟨v, hv⟩ := exists_supports (d := d) (p := p)
  have hside {w : Corner d} (hw : supports p w = true) (a : Fin d) :
      latticeDigit p a = 2 * (w.high a).toNat := by
    refine (supports_iff.mp hw a).resolve_left fun ha => ?_
    have hmem := mem_openAxes.mpr ha
    rw [h] at hmem
    cases hmem
  have hcorner : (latticeCorners d p).Perm [v] := by
    refine (List.perm_ext_iff_of_nodup (nodup_latticeCorners p) (List.nodup_singleton v)).mpr
      fun w => ?_
    rw [mem_latticeCorners, List.mem_singleton]
    refine ⟨fun hw => Corner.ext_toNat fun a => ?_, fun hw => hw ▸ hv⟩
    have hwa := hside hw a
    have hva := hside hv a
    omega
  exact hcorner.length_eq

/-- The point moved to the high side of an axis. -/
def highSide (p : Nat) (a : Fin d) : Nat :=
  ofDigits fun b : Fin d => if b = a then 2 else latticeDigit p b

theorem latticeDigit_highSide (p : Nat) (a b : Fin d) :
    latticeDigit (highSide p a) b = if b = a then 2 else latticeDigit p b := by
  refine latticeDigit_ofDigits (f := fun b : Fin d => if b = a then 2 else latticeDigit p b)
    (fun b => ?_) b
  split
  · decide
  · exact latticeDigit_lt p b

theorem openAxes_highSide (p : Nat) (a : Fin d) :
    openAxes d (highSide p a) = (openAxes d p).erase a := by
  rw [(nodup_openAxes d p).erase_eq_filter, openAxes, openAxes, List.filter_filter]
  refine List.filter_congr fun b _ => ?_
  rw [latticeDigit_highSide]
  by_cases hb : b = a
  · simp [hb]
  · simp [hb]

/-- Half of the corners stay around a point that is moved out of the middle. -/
theorem latticeCorners_highSide {p : Nat} {a : Fin d} (ha : latticeDigit p a = 1) :
    latticeCorners d (highSide p a) = (latticeCorners d p).filter (·.high a) := by
  rw [latticeCorners, latticeCorners, List.filter_filter]
  refine List.filter_congr fun v _ => Bool.eq_iff_iff.mpr ?_
  rw [Bool.and_eq_true, supports_iff, supports_iff]
  constructor
  · intro h
    have hside (b : Fin d) := latticeDigit_highSide p a b ▸ h b
    refine ⟨?_, fun b => ?_⟩
    · have hhigh := hside a
      rw [if_pos rfl] at hhigh
      cases hv : v.high a with
      | false =>
        rw [hv] at hhigh
        exact absurd hhigh (by decide)
      | true => rfl
    · by_cases hb : b = a
      · exact Or.inl (hb ▸ ha)
      · have hsame := hside b
        rwa [if_neg hb] at hsame
  · rintro ⟨hhigh, h⟩ b
    rw [latticeDigit_highSide]
    by_cases hb : b = a
    · rw [hb, hhigh]
      exact Or.inr (if_pos rfl)
    · rw [if_neg hb]
      exact h b

theorem length_latticeCorners (d p : Nat) :
    (latticeCorners d p).length = cornerCount (openAxes d p).length := by
  generalize hn : (openAxes d p).length = n
  induction n generalizing p with
  | zero => exact length_latticeCorners_of_closed (List.length_eq_zero_iff.mp hn)
  | succ n ih =>
    obtain ⟨a, ha⟩ := List.exists_mem_of_length_pos (l := openAxes d p) (by omega)
    have hmiddle := mem_openAxes.mp ha
    have hhalf := two_mul_countP_high p a
    rw [hmiddle, Nat.one_mul, List.countP_eq_length_filter,
      ← latticeCorners_highSide hmiddle] at hhalf
    rw [← hhalf, ih (highSide p a)]
    · exact Nat.pow_succ'.symm
    · rw [openAxes_highSide, List.length_erase_of_mem ha, hn]
      rfl

/-- The piece around the middle of an edge is the edge. -/
theorem latticeCorners_edge {e : Corner d × Corner d} (he : e ∈ edges d) :
    (latticeCorners d (childPoint e.1 e.2)).Perm [e.1, e.2] := by
  obtain ⟨v, w⟩ := e
  obtain ⟨a, -, rfl⟩ := mem_edges.mp he
  have hne : v ∉ [v.flip a] := fun h => v.flip_ne_self a (List.mem_singleton.mp h).symm
  refine (List.perm_ext_iff_of_nodup (nodup_latticeCorners _)
    (List.nodup_cons.mpr ⟨hne, List.nodup_singleton _⟩)).mpr fun w => ?_
  rw [mem_latticeCorners, supports_childPoint, List.mem_pair]
  constructor
  · intro h
    have hother (b : Fin d) (hb : b ≠ a) : w.high b = v.high b := by
      have hside := h b
      rwa [Corner.high_flip_of_ne v hb, or_self] at hside
    rcases h a with ha | ha
    · refine Or.inl (Corner.ext_high fun b => ?_)
      by_cases hb : b = a
      · rw [hb, ha]
      · exact hother b hb
    · refine Or.inr (Corner.ext_high fun b => ?_)
      by_cases hb : b = a
      · rw [hb, ha]
      · rw [hother b hb, Corner.high_flip_of_ne v hb]
  · rintro (rfl | rfl) b
    · exact Or.inl rfl
    · exact Or.inr rfl

/-- A piece with two corners is an edge. -/
theorem exists_edge_of_length_two {p : Nat} (hp : p < latticeCount d)
    (h : (latticeCorners d p).length = 2) : ∃ e ∈ edges d, childPoint e.1 e.2 = p := by
  have hone : (openAxes d p).length = 1 := by
    rw [length_latticeCorners] at h
    exact (Nat.pow_right_inj (by decide)).mp h
  obtain ⟨a, ha⟩ := List.length_eq_one_iff.mp hone
  have hopen {b : Fin d} : latticeDigit p b = 1 ↔ b = a := by
    rw [← mem_openAxes, ha, List.mem_singleton]
  let v : Corner d := Corner.ofHigh fun b => latticeDigit p b == 2
  have hhigh (b : Fin d) : v.high b = (latticeDigit p b == 2) := Corner.high_ofHigh _ b
  refine ⟨(v, v.flip a), mem_edges.mpr ⟨a, ?_, rfl⟩,
    latticePoint_ext (childPoint_lt _ _) hp fun b => ?_⟩
  · rw [hhigh, hopen.mpr rfl]
    rfl
  · rw [latticeDigit_childPoint]
    by_cases hb : b = a
    · rw [hb, Corner.high_flip_self, hhigh, hopen.mpr rfl]
      rfl
    · rw [Corner.high_flip_of_ne _ hb, hhigh]
      have hne : latticeDigit p b ≠ 1 := fun h => hb (hopen.mp h)
      have hlt := latticeDigit_lt p b
      generalize latticeDigit p b = digit at hne hlt ⊢
      match digit, hlt with
      | 0, _ => rfl
      | 1, _ => exact absurd rfl hne
      | 2, _ => rfl

/-! ## Lattice points on faces -/

theorem latticeOnFace_iff {face p : Nat} :
    latticeOnFace face p = true ↔ latticeDigit p (face / 2) = 2 * (face % 2) := beq_iff_eq

theorem latticeOnFace_childPoint {face : Nat} (h : face < faceCount d) (child v : Corner d) :
    latticeOnFace face (childPoint child v) = true ↔
      onFace face child = true ∧ onFace face v = true := by
  rw [latticeOnFace_iff, onFace_iff h, onFace_iff h]
  show latticeDigit (childPoint child v) (faceAxis h) = _ ↔ _
  rw [latticeDigit_childPoint]
  rcases Nat.mod_two_eq_zero_or_one face with hs | hs <;> rw [hs] <;>
    cases child.high (faceAxis h) <;> cases v.high (faceAxis h) <;> decide

theorem onFace_of_supports {face p : Nat} (h : face < faceCount d)
    (hp : latticeOnFace face p = true) {v : Corner d} (hv : supports p v = true) :
    onFace face v = true := by
  rw [latticeOnFace_iff] at hp
  rw [onFace_iff h]
  have ha : latticeDigit p (face / 2) = 1 ∨
      latticeDigit p (face / 2) = 2 * (v.high (face / 2)).toNat :=
    supports_iff.mp hv (faceAxis h)
  show v.high (face / 2) = _
  rw [hp] at ha
  revert ha
  rcases Nat.mod_two_eq_zero_or_one face with hs | hs <;> rw [hs] <;>
    cases v.high (face / 2) <;> decide

/-- A piece lies on a face if all its corners do. -/
theorem latticeOnFace_of_subset {face p : Nat} (h : face < faceCount d)
    (hsub : latticeCorners d p ⊆ faceCorners d face) : latticeOnFace face p = true := by
  have hon {v : Corner d} (hv : supports p v = true) : v.high (faceAxis h) = (face % 2 == 1) :=
    (onFace_iff h v).mp (mem_faceCorners.mp (hsub (mem_latticeCorners.mpr hv)))
  obtain ⟨v, hv⟩ := exists_supports (d := d) (p := p)
  rcases supports_iff.mp hv (faceAxis h) with ha | ha
  · have hflip := hon (supports_flip ha hv)
    rw [Corner.high_flip_self, hon hv] at hflip
    exact ((Bool.not_eq_self _).mp hflip).elim
  · rw [hon hv, val_faceAxis] at ha
    rw [latticeOnFace_iff, ha]
    rcases Nat.mod_two_eq_zero_or_one face with hs | hs <;> rw [hs] <;> rfl

/-- The faces take all pieces but the one in the middle. -/
theorem length_openAxes_lt_iff {p : Nat} :
    (openAxes d p).length < d ↔ ∃ face < faceCount d, latticeOnFace face p = true := by
  have hclosed : (openAxes d p).length < d ↔ ∃ a : Fin d, latticeDigit p a ≠ 1 := by
    have hexists := List.length_filter_lt_length_iff_exists
      (p := fun a : Fin d => latticeDigit p a == 1) (l := List.finRange d)
    simpa [openAxes] using hexists
  rw [hclosed]
  constructor
  · rintro ⟨a, ha⟩
    refine ⟨sideFace a (latticeDigit p a == 2), sideFace_lt _ _, latticeOnFace_iff.mpr ?_⟩
    rw [sideFace_div, sideFace_mod]
    have hlt := latticeDigit_lt p a
    generalize latticeDigit p a = digit at ha hlt ⊢
    match digit, hlt with
    | 0, _ => rfl
    | 1, _ => exact absurd rfl ha
    | 2, _ => rfl
  · rintro ⟨face, hface, hon⟩
    have hdigit := latticeOnFace_iff.mp hon
    refine ⟨faceAxis hface, ?_⟩
    rw [val_faceAxis]
    omega

theorem supports_childPoint_rev (child w : Corner d) :
    supports (childPoint child child.rev) w = true := by
  rw [supports_childPoint]
  intro a
  rw [Corner.high_rev]
  cases child.high a <;> cases w.high a <;> decide

/-- The corner straight across a face from one of its corners. -/
def acrossOnFace {face : Nat} (h : face < faceCount d) (v : Corner d) : Corner d :=
  Corner.flip v.rev (faceAxis h)

theorem high_acrossOnFace {face : Nat} (h : face < faceCount d) (v : Corner d) (a : Fin d) :
    (acrossOnFace h v).high a = if a = faceAxis h then v.high a else !v.high a := by
  rw [acrossOnFace, Corner.high_flip, Corner.high_rev, Bool.not_not]

theorem onFace_acrossOnFace {face : Nat} (h : face < faceCount d) {v : Corner d}
    (hv : onFace face v = true) : onFace face (acrossOnFace h v) = true := by
  rw [onFace_iff h] at hv ⊢
  rw [high_acrossOnFace, if_pos rfl, hv]

theorem supports_acrossOnFace {face : Nat} (h : face < faceCount d) {v w : Corner d}
    (hv : onFace face v = true) :
    supports (childPoint v (acrossOnFace h v)) w = true ↔ onFace face w = true := by
  rw [onFace_iff h] at hv ⊢
  rw [supports_childPoint]
  constructor
  · intro hw
    have ha := hw (faceAxis h)
    rwa [high_acrossOnFace, if_pos rfl, or_self, hv] at ha
  · intro hw a
    rw [high_acrossOnFace]
    by_cases ha : a = faceAxis h
    · rw [ha, hw, hv]
      exact Or.inl rfl
    · rw [if_neg ha]
      cases v.high a <;> cases w.high a <;> decide

/-- A child and its neighbor across an axis meet corners of one and the same side at the
same points. -/
theorem childPoint_flip {face : Nat} (h : face < faceCount d) {child v : Corner d}
    (hchild : onFace face child = false) (hv : onFace face v = true) :
    childPoint (child.flip (faceAxis h)) (v.flip (faceAxis h)) = childPoint child v := by
  apply latticePoint_ext (childPoint_lt _ _) (childPoint_lt _ _)
  intro a
  rw [latticeDigit_childPoint, latticeDigit_childPoint]
  by_cases ha : a = faceAxis h
  · have hne : child.high a ≠ v.high a := by
      subst ha
      rw [(onFace_iff h v).mp hv]
      intro he
      rw [(onFace_iff h child).mpr he] at hchild
      exact Bool.noConfusion hchild
    subst ha
    rw [Corner.high_flip_self, Corner.high_flip_self]
    revert hne
    cases child.high (faceAxis h) <;> cases v.high (faceAxis h) <;> decide
  · rw [Corner.high_flip_of_ne _ ha, Corner.high_flip_of_ne _ ha]

end Cube
end HexMesh
