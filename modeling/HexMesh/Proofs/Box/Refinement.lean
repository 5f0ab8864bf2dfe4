import Mathlib.Algebra.Field.Rat
import Mathlib.Algebra.Order.Ring.Rat
import Mathlib.Tactic.FieldSimp
import Mathlib.Tactic.LinearCombination
import HexMesh.Proofs.Box.Boundary
import HexMesh.Proofs.Number.Rational
import HexMesh.Proofs.Refinement.Halving

/-!
Refining the mesh of a box.

The pieces of a grid lie at all places in half steps, and these are the places of the grid
points of the box with twice as many cells along each axis.  So the finer grid halves the
coarser one, and by induction `n` refinements multiply the repetitions by `2 ^ n`.
-/

namespace HexMesh

open HexMesh.Cube

namespace Box

variable {K : Type} {d : Nat} {b : Box K d}

/-- The same box with each cell cut into `n` parts along every axis. -/
def subdivide (b : Box K d) (n : Nat) : Box K d :=
  { b with repetitions := b.repetitions.map (n * ·) }

theorem get_repetitions_subdivide (b : Box K d) (n : Nat) (a : Fin d) :
    (b.subdivide n).repetitions.get a = n * b.repetitions.get a := Vector.getElem_map _ a.isLt

theorem subdivide_one (b : Box K d) : b.subdivide 1 = b := by
  have hone : b.repetitions.map (1 * ·) = b.repetitions := by
    refine Vector.ext fun i hi => ?_
    rw [Vector.getElem_map, Nat.one_mul]
  rw [subdivide, hone]

theorem subdivide_subdivide (b : Box K d) (m n : Nat) :
    (b.subdivide m).subdivide n = b.subdivide (m * n) := by
  rw [subdivide, subdivide, subdivide, Vector.map_map]
  congr 2
  funext r
  show n * (m * r) = m * n * r
  rw [← Nat.mul_assoc, Nat.mul_comm n]

/-! ## Children of the coarser cells -/

/-- The piece in whose middle a grid point of the halved box lies. -/
def halfSite (b : Box K d) (u : Nat) : Key :=
  b.piece fun a => (b.subdivide 2).pointIndex a u

/-- The cell that contains a cell of the halved box. -/
def halfParent (b : Box K d) (j : Nat) : Nat :=
  b.cellAt fun a => (b.subdivide 2).cellIndex a j / 2

/-- Where a cell of the halved box lies in the cell that contains it. -/
def halfChild (b : Box K d) (j : Nat) : Corner d :=
  Corner.ofSides fun a => (b.subdivide 2).cellIndex a j % 2

theorem halfIndex_lt {j : Nat} (hj : j < (b.subdivide 2).cellCount) (a : Fin d) :
    (b.subdivide 2).cellIndex a j / 2 < b.repetitions.get a := by
  have hindex := cellIndex_lt hj a
  rw [get_repetitions_subdivide] at hindex
  omega

theorem halfParent_lt {j : Nat} (hj : j < (b.subdivide 2).cellCount) :
    b.halfParent j < b.cellCount := cellAt_lt (halfIndex_lt hj)

theorem cellIndex_halfParent {j : Nat} (hj : j < (b.subdivide 2).cellCount) (a : Fin d) :
    b.cellIndex a (b.halfParent j) = (b.subdivide 2).cellIndex a j / 2 :=
  cellIndex_cellAt (halfIndex_lt hj) a

theorem high_halfChild (j : Nat) (a : Fin d) :
    ((b.halfChild j).high a).toNat = (b.subdivide 2).cellIndex a j % 2 :=
  Corner.toNat_high_ofSides (by omega)

theorem bijOn_halfSite (b : Box K d) :
    Set.BijOn b.halfSite (Set.Iio (b.subdivide 2).pointCount)
      {k | ∃ y : Fin d → Nat, (∀ a, y a ≤ 2 * b.repetitions.get a) ∧ b.piece y = k} := by
  have hbound (u : Nat) (a : Fin d) :
      (b.subdivide 2).pointIndex a u ≤ 2 * b.repetitions.get a := by
    rw [← get_repetitions_subdivide]
    exact pointIndex_le _ a u
  refine ⟨fun u _ => ⟨_, hbound u, rfl⟩, fun u hu v hv he => ?_, fun k hk => ?_⟩
  · exact ext_pointIndex hu hv (congrFun (piece_inj (hbound u) (hbound v) he))
  · obtain ⟨y, hy, rfl⟩ := hk
    have hy' (a : Fin d) : y a ≤ (b.subdivide 2).repetitions.get a := by
      rw [get_repetitions_subdivide]
      exact hy a
    refine ⟨(b.subdivide 2).pointAt y, pointAt_lt hy', ?_⟩
    rw [halfSite]
    congr 1
    funext a
    exact pointIndex_pointAt hy' a

theorem bijOn_halfParent (b : Box K d) :
    Set.BijOn (fun j => b.halfParent j * cornerCount d + b.halfChild j)
      (Set.Iio (b.subdivide 2).cellCount) (Set.Iio (b.cellCount * cornerCount d)) := by
  refine ⟨fun j hj => ?_, fun i hi j hj he => ?_, fun t ht => ?_⟩
  · exact block_lt (halfParent_lt hj) (b.halfChild j).isLt
  · obtain ⟨hparent, hchild⟩ := block_inj (b.halfChild i).isLt (b.halfChild j).isLt he
    refine ext_cellIndex hi hj fun a => ?_
    have hdiv := congrArg (b.cellIndex a) hparent
    have hmod := congrArg (fun v : Corner d => (v.high a).toNat) (Fin.ext hchild)
    simp only [cellIndex_halfParent hi, cellIndex_halfParent hj] at hdiv
    simp only [high_halfChild] at hmod
    omega
  · obtain ⟨i, hi, v, rfl⟩ : ∃ i < b.cellCount, ∃ v : Corner d, i * cornerCount d + v = t :=
      exists_block ht
    have hhigh (a : Fin d) := Bool.toNat_le (v.high a)
    obtain ⟨x, hplace⟩ : ∃ x : Fin d → Nat, ∀ a,
        x a = 2 * b.cellIndex a i + (v.high a).toNat := ⟨_, fun _ => rfl⟩
    have hx (a : Fin d) : x a < (b.subdivide 2).repetitions.get a := by
      have hindex := cellIndex_lt hi a
      have ha := hhigh a
      rw [get_repetitions_subdivide, hplace]
      omega
    have hj := cellAt_lt hx
    have hparent : b.halfParent ((b.subdivide 2).cellAt x) = i := by
      refine ext_cellIndex (halfParent_lt hj) hi fun a => ?_
      have ha := hhigh a
      rw [cellIndex_halfParent hj, cellIndex_cellAt hx, hplace]
      omega
    have hchild : b.halfChild ((b.subdivide 2).cellAt x) = v := by
      refine Corner.ext_toNat fun a => ?_
      have ha := hhigh a
      rw [high_halfChild, cellIndex_cellAt hx, hplace]
      omega
    refine ⟨_, hj, ?_⟩
    show b.halfParent _ * cornerCount d + b.halfChild _ = i * cornerCount d + v
    rw [hparent, hchild]

/-- A corner of a finer cell lies in the middle of a piece of the coarser cell. -/
theorem halfSite_get_cell {j : Nat} (hj : j < (b.subdivide 2).cellCount) (v : Corner d) :
    b.halfSite (((b.subdivide 2).cell j).get v) =
      (b.cell (b.halfParent j)).latticeKey (childPoint (b.halfChild j) v) := by
  rw [latticeKey_cell (halfParent_lt hj), halfSite]
  congr 1
  funext a
  rw [get_cell, pointIndex_cornerNumber hj, cellIndex_halfParent hj, latticeDigit_childPoint,
    high_halfChild]
  omega

/-- A face on a side of the box is part of a coarser face there. -/
theorem AtEnd.half {j face : Nat} (h : (b.subdivide 2).AtEnd j face)
    (hj : j < (b.subdivide 2).cellCount) (hface : face < faceCount d) :
    onFace face (b.halfChild j) = true ∧ b.AtEnd (b.halfParent j) face := by
  have hend (a : Fin d) (ha : a.val = face / 2) :
      (b.subdivide 2).cellIndex a j % 2 = face % 2 ∧
        (b.subdivide 2).cellIndex a j / 2 + face % 2 = face % 2 * b.repetitions.get a := by
    have hindex := h a ha
    rw [get_repetitions_subdivide] at hindex
    rcases Nat.mod_two_eq_zero_or_one face with hs | hs <;> rw [hs] at hindex ⊢ <;> omega
  constructor
  · have hhigh := (hend (faceAxis hface) (val_faceAxis hface)).1
    rw [← high_halfChild] at hhigh
    rw [onFace_iff hface]
    revert hhigh
    rcases Nat.mod_two_eq_zero_or_one face with hs | hs <;> rw [hs] <;>
      cases (b.halfChild j).high (faceAxis hface) <;> decide
  · intro a ha
    rw [cellIndex_halfParent hj]
    exact (hend a ha).2

/-! ## Positions -/

theorem sum_map_high [Field K] (vs : List (Corner d)) (a : Fin d) (x y : K) :
    (vs.map fun v => x + y * ((v.high a).toNat : K)).sum =
      vs.length * x + vs.countP (·.high a) * y := by
  induction vs with
  | nil => simp
  | cons v rest ih =>
    rw [List.map_cons, List.sum_cons, ih, List.length_cons, List.countP_cons]
    cases v.high a <;> simp <;> ring

variable [Field K] [LinearOrder K] [IsStrictOrderedRing K]

/-- The mean of the corners of a piece lies at the place of the piece. -/
theorem get_average_latticeKey {i : Nat} (hi : i < b.cellCount) {p : Nat} (a : Fin d) :
    (Point.average (((b.cell i).latticeKey p).map b.point)).coords.get a =
      b.low.coords.get a + (b.high.coords.get a - b.low.coords.get a) *
        ((2 * b.cellIndex a i + latticeDigit p a : Nat) : K) /
          ((2 * b.repetitions.get a : Nat) : K) := by
  have hperm : (((b.cell i).latticeKey p).map b.point).Perm
      ((latticeCorners d p).map fun v => b.point (b.cornerNumber i v)) := by
    have hkey := (Key.ofList_perm ((latticeCorners d p).map (b.cell i).get)).map b.point
    rw [List.map_map] at hkey
    refine hkey.trans (List.Perm.of_eq (List.map_congr_left fun v _ => ?_))
    rw [Function.comp_apply, get_cell]
  have hpos : 0 < b.repetitions.get a := Nat.zero_lt_of_lt (cellIndex_lt hi a)
  have hlength : 0 < (latticeCorners d p).length := by
    obtain ⟨v, hv⟩ := exists_supports (d := d) (p := p)
    exact List.length_pos_of_mem (mem_latticeCorners.mpr hv)
  have hcount : (2 : K) * (latticeCorners d p).countP (·.high a) =
      latticeDigit p a * (latticeCorners d p).length := by
    exact_mod_cast two_mul_countP_high p a
  have hcorner : (fun v : Corner d => (b.point (b.cornerNumber i v)).coords.get a) = fun v =>
      (b.low.coords.get a + (b.high.coords.get a - b.low.coords.get a) *
        (b.cellIndex a i : K) / (b.repetitions.get a : K)) +
      ((b.high.coords.get a - b.low.coords.get a) / (b.repetitions.get a : K)) *
        ((v.high a).toNat : K) := by
    funext v
    rw [get_point, pointIndex_cornerNumber hi]
    push_cast
    ring
  rw [Point.average_perm hperm, Point.get_average, List.map_map, List.length_map]
  show ((latticeCorners d p).map fun v : Corner d =>
    (b.point (b.cornerNumber i v)).coords.get a).sum / _ = _
  rw [hcorner, sum_map_high]
  have hrepetitions : (b.repetitions.get a : K) ≠ 0 := Nat.cast_ne_zero.mpr hpos.ne'
  have hnumber : ((latticeCorners d p).length : K) ≠ 0 := Nat.cast_ne_zero.mpr hlength.ne'
  have htwo : (2 : K) ≠ 0 := two_ne_zero
  push_cast
  field_simp
  linear_combination (b.high.coords.get a - b.low.coords.get a) * hcount

theorem point_subdivide (h : ∀ a, 0 < b.repetitions.get a) (u : Nat) :
    (b.subdivide 2).point u = Point.average ((b.halfSite u).map b.point) := by
  have hbound (a : Fin d) : (b.subdivide 2).pointIndex a u ≤ 2 * b.repetitions.get a := by
    rw [← get_repetitions_subdivide]
    exact pointIndex_le _ a u
  obtain ⟨i, hi, p, -, hkey⟩ := exists_latticeKey h hbound
  have hplace := hkey
  rw [latticeKey_cell hi] at hplace
  have hindex := congrFun (piece_inj (fun a => ?_) hbound hplace)
  · refine Point.ext_get fun a => ?_
    rw [halfSite, ← hkey, get_average_latticeKey hi, get_point, ← hindex a,
      get_repetitions_subdivide]
    rfl
  · have hcell := cellIndex_lt hi a
    have hdigit := latticeDigit_lt p a
    omega

/-! ## Refinement -/

theorem halves_mesh (h : ∀ a, 0 < b.repetitions.get a) (colored : Bool) :
    (b.mesh colored).Halves ((b.subdivide 2).mesh colored) b.halfSite b.halfParent b.halfChild where
  sites := by
    have hsites : (b.mesh colored).sites =
        {k | ∃ y : Fin d → Nat, (∀ a, y a ≤ 2 * b.repetitions.get a) ∧ b.piece y = k} :=
      Set.ext fun k => (Mesh.mem_sites_iff (b.cellsValid_mesh colored)
        (verticesUsed_mesh h)).trans (isPiece_mesh h)
    rw [hsites, size_vertices_mesh]
    exact b.bijOn_halfSite
  position u hu := by
    rw [size_vertices_mesh] at hu
    rw [position_mesh hu, point_subdivide h]
    refine congrArg Point.average (List.map_congr_left fun v hv => ?_)
    exact (position_mesh (mem_piece.mp hv).1).symm
  cells := by
    rw [length_cells_mesh, length_cells_mesh]
    exact b.bijOn_halfParent
  corners j c' hc' := by
    have hj := (List.getElem?_eq_some_iff.mp hc').1
    rw [length_cells_mesh] at hj
    rw [getElem?_cells_mesh hj, Option.some_inj] at hc'
    subst hc'
    exact ⟨_, getElem?_cells_mesh (halfParent_lt hj), halfSite_get_cell hj⟩
  boundary x hx := by
    obtain ⟨hcell, hface, hend, hindicator⟩ := mem_boundaryFaces_mesh.mp hx
    obtain ⟨hon, hparent⟩ := hend.half hcell hface
    exact ⟨hon, mem_boundaryFaces_mesh.mpr ⟨halfParent_lt hcell, hface, hparent, hindicator⟩⟩
  shapes := by rw [shapes_mesh, shapes_mesh]

/-- Refining the mesh of a box is the same as starting with more cells. -/
theorem alike_refine_mesh (hd : d ≤ 3) (h : ∀ a, 0 < b.repetitions.get a)
    (colored : Bool) (n : Nat) :
    ((b.mesh colored).refine n).Alike ((b.subdivide (2 ^ n)).mesh colored) := by
  induction n with
  | zero =>
    rw [pow_zero, subdivide_one]
    exact Mesh.Alike.refl _
  | succ n ih =>
    let fine := b.subdivide (2 ^ n)
    have hfine (a : Fin d) : 0 < fine.repetitions.get a := by
      rw [get_repetitions_subdivide]
      exact Nat.mul_pos (Nat.two_pow_pos n) (h a)
    have hshapes : ((b.mesh colored).refine n).shapes = ∅ := by
      rw [Mesh.shapes_refine, shapes_mesh]
    rw [Mesh.refine_succ, pow_succ, ← subdivide_subdivide]
    have hhalf := (halves_mesh hfine colored).relabels hd (fine.regular_mesh colored)
      (cellsValid_mesh _ colored) (fine.shapes_mesh colored)
    exact (ih.refineOnce hd ((b.regular_mesh colored).refine n) (fine.regular_mesh colored)
      hshapes).trans ⟨_, _, hhalf.symm (cellsValid_mesh _ colored)⟩

end Box

namespace Mesh

variable {K : Type} [Field K] [LinearOrder K] [IsStrictOrderedRing K] {d : Nat}

/-- A box that is refined `n` times is the box with `2 ^ n` times as many cells along each axis:
both have the same vertices in the same places, the same cells with their corners in the same
order and the same indicators on the boundary, up to the numbers of vertices and cells. -/
theorem box_refine (hd : 0 < d) (hd3 : d ≤ 3) {repetitions : Vector Nat d} {p q : Point K d}
    (hrepetitions : ∀ a, 0 < repetitions.get a) (hextent : ∀ a, p.coords.get a ≠ q.coords.get a)
    (colorize : Bool) (n : Nat) :
    ∃ coarse fine, box repetitions p q colorize = .ok coarse ∧
      box (repetitions.map (2 ^ n * ·)) p q colorize = .ok fine ∧
      (coarse.refine n).Alike fine := by
  let b := Box.ofCorners repetitions p q
  have hfine (a : Fin d) : 0 < (repetitions.map (2 ^ n * ·)).get a :=
    Nat.lt_of_lt_of_eq (Nat.mul_pos (Nat.two_pow_pos n) (hrepetitions a))
      (b.get_repetitions_subdivide (2 ^ n) a).symm
  exact ⟨_, _, box_eq hd hd3 hrepetitions hextent colorize, box_eq hd hd3 hfine hextent colorize,
    b.alike_refine_mesh hd3 hrepetitions colorize n⟩

theorem box_refine_brick :
    0 < 3 ∧ 3 ≤ 3 ∧ (∀ a, 0 < (#v[2, 1, 3] : Vector Nat 3).get a) ∧
      (∀ a, (Point.xyz 0 1 5 : Point ℚ 3).coords.get a ≠
        (Point.xyz 2 0 7 : Point ℚ 3).coords.get a) ∧
      ∃ coarse fine, box #v[2, 1, 3] (Point.xyz 0 1 5 : Point ℚ 3) (.xyz 2 0 7) true = .ok coarse ∧
        box #v[8, 4, 12] (Point.xyz 0 1 5 : Point ℚ 3) (.xyz 2 0 7) true = .ok fine ∧
        (coarse.refine 2).Alike fine := by
  have hrepetitions : ∀ a, 0 < (#v[2, 1, 3] : Vector Nat 3).get a := by decide
  have hextent : ∀ a, (Point.xyz 0 1 5 : Point ℚ 3).coords.get a ≠
      (Point.xyz 2 0 7 : Point ℚ 3).coords.get a := by decide +kernel
  have hfine : (#v[2, 1, 3] : Vector Nat 3).map (2 ^ 2 * ·) = #v[8, 4, 12] := by decide +kernel
  exact ⟨by decide, by decide, hrepetitions, hextent,
    hfine ▸ box_refine (by decide) (by decide) hrepetitions hextent true 2⟩

end Mesh
end HexMesh
