import Mathlib.Algebra.Order.Field.Basic
import HexMesh.Proofs.Box.Grid
import HexMesh.Proofs.Geometry.Average
import HexMesh.Proofs.Refinement.Boundary

/-!
The mesh of a box and its boundary.

A face has places like every other piece, even along the axis to which it is orthogonal
and odd along the others.  So only the neighbor across this axis can have the same face,
and there is none exactly at the ends of the axis.
-/

namespace HexMesh

open HexMesh.Cube

namespace Box

variable {K : Type} {d : Nat} {b : Box K d}

/-! ## Places of faces -/

/-- The places of a face of a cell, in half steps. -/
def facePlace (b : Box K d) (i face : Nat) (a : Fin d) : Nat :=
  2 * b.cellIndex a i + if a.val = face / 2 then 2 * (face % 2) else 1

/-- The face lies on a side of the box: its cell is the first one or the last one along the
axis to which the face is orthogonal. -/
def AtEnd (b : Box K d) (i face : Nat) : Prop :=
  ∀ a : Fin d, a.val = face / 2 → b.cellIndex a i + face % 2 = face % 2 * b.repetitions.get a

variable {i j face f g : Nat}

theorem facePlace_axis (h : face < faceCount d) :
    b.facePlace i face (faceAxis h) = 2 * (b.cellIndex (faceAxis h) i + face % 2) := by
  rw [facePlace, if_pos (val_faceAxis h), Nat.mul_add]

theorem facePlace_of_ne (h : face < faceCount d) {a : Fin d} (ha : a ≠ faceAxis h) :
    b.facePlace i face a = 2 * b.cellIndex a i + 1 := by
  have hne : a.val ≠ face / 2 := fun he => ha (Fin.ext he)
  rw [facePlace, if_neg hne]

theorem facePlace_le (hi : i < b.cellCount) (a : Fin d) :
    b.facePlace i face a ≤ 2 * b.repetitions.get a := by
  have hindex := cellIndex_lt hi a
  rw [facePlace]
  split <;> omega

theorem faceKey_cell (hi : i < b.cellCount) (h : face < faceCount d) :
    (b.cell i).faceKey face = b.piece (b.facePlace i face) := by
  obtain ⟨v, hv⟩ := exists_onFace h
  rw [← Cell.latticeKey_acrossOnFace _ h hv, latticeKey_cell hi]
  congr 1
  funext a
  rw [latticeDigit_childPoint, high_acrossOnFace]
  by_cases ha : a = faceAxis h
  · subst ha
    rw [facePlace_axis, if_pos rfl, (onFace_iff h v).mp hv, Nat.mul_add]
    rcases Nat.mod_two_eq_zero_or_one face with hs | hs <;> rw [hs] <;> rfl
  · rw [facePlace_of_ne h ha, if_neg ha]
    cases v.high a <;> rfl

/-- The places of a face tell the axis to which it is orthogonal: only along this axis they are
even. -/
theorem eq_or_eq_acrossFace (hf : f < faceCount d) (h : b.facePlace j g = b.facePlace i f) :
    g = f ∨ g = acrossFace f := by
  have ha := congrFun h (faceAxis hf)
  have haxis : g / 2 = f / 2 := by
    rw [facePlace_axis, facePlace] at ha
    by_contra hne
    rw [if_neg fun he => hne (he.symm.trans (val_faceAxis hf))] at ha
    omega
  unfold acrossFace
  split <;> omega

theorem eq_of_facePlace_face_eq (hi : i < b.cellCount) (hj : j < b.cellCount)
    (h : b.facePlace j f = b.facePlace i f) : j = i :=
  ext_cellIndex hj hi fun a =>
    Nat.eq_of_mul_eq_mul_left Nat.two_pos (Nat.add_right_cancel (congrFun h a))

/-- Faces on one side of the box are told apart by their places. -/
theorem eq_of_facePlace_eq (hi : i < b.cellCount) (hj : j < b.cellCount) (hf : f < faceCount d)
    (hend : b.AtEnd i f) (h : b.facePlace j g = b.facePlace i f) : j = i ∧ g = f := by
  have hface : g = f := by
    refine (eq_or_eq_acrossFace hf h).resolve_right fun hg => ?_
    -- A neighbor across the side would lie outside the box.
    have ha := congrFun h (faceAxis hf)
    have hlow := hend (faceAxis hf) rfl
    have hindex := cellIndex_lt hj (faceAxis hf)
    have hmod := acrossFace_mod f
    rw [hg, facePlace_axis, facePlace, acrossFace_div, if_pos (val_faceAxis hf)] at ha
    rcases Nat.mod_two_eq_zero_or_one f with hs | hs <;> rw [hs] at ha hlow hmod <;> omega
  subst hface
  exact ⟨eq_of_facePlace_face_eq hi hj h, rfl⟩

/-- A face inside the box is a face of two cells. -/
theorem exists_neighbor (hi : i < b.cellCount) (hf : f < faceCount d) (h : ¬b.AtEnd i f) :
    ∃ j < b.cellCount, b.facePlace j (acrossFace f) = b.facePlace i f := by
  have hinner : b.cellIndex (faceAxis hf) i + f % 2 ≠ f % 2 * b.repetitions.get (faceAxis hf) := by
    intro hend
    refine h fun a ha => ?_
    have haxis : a = faceAxis hf := Fin.ext ha
    rw [haxis]
    exact hend
  let x : Fin d → Nat := Function.update (b.cellIndex · i) (faceAxis hf)
    (b.cellIndex (faceAxis hf) i + 2 * (f % 2) - 1)
  have haxis : x (faceAxis hf) = b.cellIndex (faceAxis hf) i + 2 * (f % 2) - 1 :=
    Function.update_self ..
  have hrest {a : Fin d} (ha : a ≠ faceAxis hf) : x a = b.cellIndex a i :=
    Function.update_of_ne ha ..
  have hx (a : Fin d) : x a < b.repetitions.get a := by
    have hindex := cellIndex_lt hi a
    by_cases ha : a = faceAxis hf
    · subst ha
      rw [haxis]
      rcases Nat.mod_two_eq_zero_or_one f with hs | hs <;> rw [hs] at hinner ⊢ <;> omega
    · rw [hrest ha]
      exact hindex
  have hacross := acrossFace_mod f
  refine ⟨b.cellAt x, cellAt_lt hx, funext fun a => ?_⟩
  rw [facePlace, cellIndex_cellAt hx, acrossFace_div]
  by_cases ha : a = faceAxis hf
  · subst ha
    rw [facePlace_axis, haxis, if_pos (val_faceAxis hf)]
    rcases Nat.mod_two_eq_zero_or_one f with hs | hs <;> rw [hs] at hinner hacross ⊢ <;> omega
  · have hne : a.val ≠ f / 2 := fun he => ha (Fin.ext he)
    rw [facePlace_of_ne hf ha, hrest ha, if_neg hne]

/-- The pieces of a face are those within its extent. -/
theorem mem_facePieces_cell (hi : i < b.cellCount) (h : face < faceCount d) {k : Key} :
    k ∈ (b.cell i).facePieces face ↔ ∃ y : Fin d → Nat,
      (∀ a, b.facePlace i face a - b.facePlace i face a % 2 ≤ y a ∧
        y a ≤ b.facePlace i face a + b.facePlace i face a % 2) ∧ b.piece y = k := by
  constructor
  · intro hk
    obtain ⟨p, -, hon, rfl⟩ := hk
    refine ⟨_, fun a => ?_, (latticeKey_cell hi p).symm⟩
    have hdigit := latticeDigit_lt p a
    by_cases ha : a = faceAxis h
    · have hon : latticeDigit p (faceAxis h) = 2 * (face % 2) := latticeOnFace_iff.mp hon
      subst ha
      rw [facePlace_axis]
      omega
    · rw [facePlace_of_ne h ha]
      omega
  · intro hk
    obtain ⟨y, hy, rfl⟩ := hk
    have haxis := hy (faceAxis h)
    rw [facePlace_axis] at haxis
    have hbetween (a : Fin d) : 2 * b.cellIndex a i ≤ y a ∧ y a ≤ 2 * b.cellIndex a i + 2 := by
      by_cases ha : a = faceAxis h
      · subst ha
        omega
      · have hrest := hy a
        rw [facePlace_of_ne h ha] at hrest
        omega
    have hdigit (a : Fin d) : y a - 2 * b.cellIndex a i < 3 := by
      have ha := hbetween a
      omega
    refine ⟨ofDigits fun a => y a - 2 * b.cellIndex a i, ofDigits_lt hdigit, ?_, ?_⟩
    · rw [latticeOnFace_iff]
      show latticeDigit _ (faceAxis h) = _
      rw [latticeDigit_ofDigits hdigit]
      omega
    · rw [latticeKey_cell hi]
      congr 1
      funext a
      have ha := hbetween a
      rw [latticeDigit_ofDigits hdigit]
      omega

end Box

/-! ## Coloring -/

namespace Mesh

variable {K : Type} {d : Nat} {m : Mesh K d} {k : Key}

theorem colorize_indicators (m : Mesh K d) :
    m.colorize.indicators = (m.outerFaces.map fun f => (f.2, f.1.face.toUInt32)).foldl
      (fun t e => t.insert e.1 e.2) m.indicators := by
  rw [List.foldl_map]
  rfl

theorem getElem?_indicators_colorize {r : FaceRef} (h : m.IsOuter r k)
    (hempty : m.indicators = ∅) : m.colorize.indicators[k]? = some r.face.toUInt32 := by
  rw [colorize_indicators, hempty]
  refine KeyMap.getElem?_foldl_insert_of_agree Std.ExtTreeMap.getElem?_empty (fun i hi => ?_)
    fun i hi => ?_
  · obtain ⟨⟨s, l⟩, hs, he⟩ := List.mem_map.mp hi
    obtain ⟨rfl, rfl⟩ := Prod.mk.inj he
    rw [h.2 s (mem_outerFaces.mp hs).1]
  · cases hi
    exact List.mem_map.mpr ⟨(r, k), mem_outerFaces.mpr h, rfl⟩

theorem getElem?_indicators_colorize_eq_none (h : ∀ r, ¬m.IsOuter r k)
    (hempty : m.indicators = ∅) : m.colorize.indicators[k]? = none := by
  rw [colorize_indicators, KeyMap.getElem?_foldl_insert_of_ne, hempty,
    Std.ExtTreeMap.getElem?_empty]
  intro e he hk
  obtain ⟨⟨r, l⟩, hr, rfl⟩ := List.mem_map.mp he
  exact h r (hk ▸ mem_outerFaces.mp hr)

theorem indicatorsOuter_colorize (hempty : m.indicators = ∅) : m.colorize.IndicatorsOuter := by
  intro k
  rw [Std.ExtTreeMap.mem_iff_isSome_getElem?]
  by_cases h : ∃ r, m.IsOuter r k
  · obtain ⟨r, hr⟩ := h
    rw [getElem?_indicators_colorize hr hempty]
    exact iff_of_true rfl ⟨r, hr⟩
  · rw [getElem?_indicators_colorize_eq_none (not_exists.mp h) hempty]
    exact iff_of_false Bool.false_ne_true h

end Mesh

/-! ## The mesh of a box -/

namespace Box

variable {K : Type} {d : Nat} {b : Box K d} {colored : Bool} {r : FaceRef} {k : Key} [Scalar K]

/-- The mesh of a box, with or without an indicator for each side. -/
def mesh (b : Box K d) (colored : Bool) : Mesh K d :=
  if colored then (Mesh.ofBox b).colorize else Mesh.ofBox b

theorem cells_mesh (b : Box K d) (colored : Bool) :
    (b.mesh colored).cells = (List.range b.cellCount).map b.cell := by
  cases colored <;> rfl

theorem vertices_mesh (b : Box K d) (colored : Bool) :
    (b.mesh colored).vertices = (Array.range b.pointCount).map b.point := by
  cases colored <;> rfl

theorem shapes_mesh (b : Box K d) (colored : Bool) : (b.mesh colored).shapes = ∅ := by
  cases colored <;> rfl

theorem size_vertices_mesh (b : Box K d) (colored : Bool) :
    (b.mesh colored).vertices.size = b.pointCount := by
  rw [vertices_mesh, Array.size_map, Array.size_range]

theorem getElem?_vertices_mesh {u : Nat} (hu : u < b.pointCount) :
    (b.mesh colored).vertices[u]? = some (b.point u) := by
  rw [vertices_mesh, Array.getElem?_map, Array.getElem?_range, if_pos hu]
  rfl

theorem position_mesh {u : Nat} (hu : u < b.pointCount) :
    (b.mesh colored).position u = b.point u := by
  rw [Mesh.position, getElem?_vertices_mesh hu]
  rfl

theorem length_cells_mesh (b : Box K d) (colored : Bool) :
    (b.mesh colored).cells.length = b.cellCount := by
  rw [cells_mesh, List.length_map, List.length_range]

theorem getElem?_cells_mesh {i : Nat} (hi : i < b.cellCount) :
    (b.mesh colored).cells[i]? = some (b.cell i) := by
  rw [cells_mesh, List.getElem?_map, List.getElem?_range hi]
  rfl

theorem mem_cells_mesh {c : Cell d} :
    c ∈ (b.mesh colored).cells ↔ ∃ i < b.cellCount, b.cell i = c := by
  rw [cells_mesh, List.mem_map]
  simp only [List.mem_range]

theorem indicatorsOuter_mesh (b : Box K d) : (b.mesh true).IndicatorsOuter :=
  Mesh.indicatorsOuter_colorize rfl

theorem hasFace_mesh :
    (b.mesh colored).HasFace r k ↔
      r.cell < b.cellCount ∧ r.face < faceCount d ∧ b.piece (b.facePlace r.cell r.face) = k := by
  constructor
  · intro h
    obtain ⟨c, hc, hface, rfl⟩ := h
    have hcell := (List.getElem?_eq_some_iff.mp hc).1
    rw [length_cells_mesh] at hcell
    rw [getElem?_cells_mesh hcell, Option.some_inj] at hc
    subst hc
    exact ⟨hcell, hface, (faceKey_cell hcell hface).symm⟩
  · intro h
    obtain ⟨hcell, hface, rfl⟩ := h
    exact ⟨b.cell r.cell, getElem?_cells_mesh hcell, hface, faceKey_cell hcell hface⟩

theorem isOuter_mesh :
    (b.mesh colored).IsOuter r k ↔
      r.cell < b.cellCount ∧ r.face < faceCount d ∧ b.AtEnd r.cell r.face ∧
        b.piece (b.facePlace r.cell r.face) = k := by
  constructor
  · intro h
    obtain ⟨hface, honly⟩ := h
    obtain ⟨hcell, hlt, rfl⟩ := hasFace_mesh.mp hface
    refine ⟨hcell, hlt, ?_, rfl⟩
    by_contra hinner
    obtain ⟨i, hi, hplace⟩ := exists_neighbor hcell hlt hinner
    have hsame := honly ⟨i, acrossFace r.face⟩
      (hasFace_mesh.mpr ⟨hi, acrossFace_lt hlt, congrArg b.piece hplace⟩)
    exact acrossFace_ne r.face (congrArg FaceRef.face hsame)
  · intro h
    obtain ⟨hcell, hlt, hend, rfl⟩ := h
    refine ⟨hasFace_mesh.mpr ⟨hcell, hlt, rfl⟩, fun s hs => ?_⟩
    obtain ⟨hscell, -, hkey⟩ := hasFace_mesh.mp hs
    obtain ⟨hsame, hface⟩ := eq_of_facePlace_eq hcell hscell hlt hend
      (piece_inj (facePlace_le hscell) (facePlace_le hcell) hkey)
    exact FaceRef.mk.injEq .. ▸ ⟨hsame, hface⟩

theorem indicator_mesh (h : (b.mesh colored).IsOuter r k) :
    (b.mesh colored).indicator k = if colored then r.face.toUInt32 else 0 := by
  cases colored with
  | false => exact Std.ExtTreeMap.getD_empty
  | true =>
    have hstored : (b.mesh true).indicators[k]? = some r.face.toUInt32 :=
      Mesh.getElem?_indicators_colorize (m := Mesh.ofBox b) h rfl
    rw [Mesh.indicator, Std.ExtTreeMap.getD_eq_getD_getElem?, hstored]
    rfl

/-- The boundary of the mesh consists of the faces on the sides of the box. -/
theorem mem_boundaryFaces_mesh {x : BoundaryFace} :
    x ∈ (b.mesh colored).boundaryFaces ↔
      x.cell < b.cellCount ∧ x.face < faceCount d ∧ b.AtEnd x.cell x.face ∧
        x.indicator = if colored then x.face.toUInt32 else 0 := by
  rw [Mesh.mem_boundaryFaces]
  constructor
  · intro h
    obtain ⟨k, houter, hindicator⟩ := h
    obtain ⟨hcell, hface, hend, -⟩ := isOuter_mesh.mp houter
    exact ⟨hcell, hface, hend, hindicator ▸ indicator_mesh houter⟩
  · intro h
    obtain ⟨hcell, hface, hend, hindicator⟩ := h
    have houter : (b.mesh colored).IsOuter x.toFaceRef (b.piece (b.facePlace x.cell x.face)) :=
      isOuter_mesh.mpr ⟨hcell, hface, hend, rfl⟩
    exact ⟨_, houter, (indicator_mesh houter).trans hindicator.symm⟩

theorem of_box_eq_ok {repetitions : Vector Nat d} {p q : Point K d} {m : Mesh K d}
    (h : Mesh.box repetitions p q colored = .ok m) :
    (ofCorners repetitions p q).fault? = none ∧ m = (ofCorners repetitions p q).mesh colored := by
  unfold Mesh.box at h
  dsimp only at h
  split at h
  · cases h
  next hfault =>
    split at h
    · cases h
    · cases h
      exact ⟨hfault, rfl⟩

/-! ## Regularity -/

theorem cellsValid_mesh (b : Box K d) (colored : Bool) : (b.mesh colored).CellsValid := by
  intro c hc u hu
  obtain ⟨i, hi, rfl⟩ := mem_cells_mesh.mp hc
  obtain ⟨v, rfl⟩ := Cell.mem_toList_iff.mp hu
  rw [size_vertices_mesh, get_cell]
  exact cornerNumber_lt hi v

theorem cellsDistinct_mesh (b : Box K d) (colored : Bool) : (b.mesh colored).CellsDistinct := by
  intro c hc
  obtain ⟨i, hi, rfl⟩ := mem_cells_mesh.mp hc
  exact nodup_cell hi

theorem isPiece_mesh (h : ∀ a, 0 < b.repetitions.get a) :
    (b.mesh colored).IsPiece k ↔
      ∃ y : Fin d → Nat, (∀ a, y a ≤ 2 * b.repetitions.get a) ∧ b.piece y = k := by
  constructor
  · intro hk
    obtain ⟨c, hc, p, -, rfl⟩ := hk
    obtain ⟨i, hi, rfl⟩ := mem_cells_mesh.mp hc
    refine ⟨_, fun a => ?_, (latticeKey_cell hi p).symm⟩
    have hindex := cellIndex_lt hi a
    have hdigit := latticeDigit_lt p a
    omega
  · intro hk
    obtain ⟨y, hy, rfl⟩ := hk
    obtain ⟨i, hi, p, hp, hkey⟩ := exists_latticeKey h hy
    exact ⟨b.cell i, mem_cells_mesh.mpr ⟨i, hi, rfl⟩, p, hp, hkey⟩

theorem verticesUsed_mesh (h : ∀ a, 0 < b.repetitions.get a) :
    (b.mesh colored).VerticesUsed := by
  intro u hu
  rw [size_vertices_mesh] at hu
  obtain ⟨i, hi, p, -, hkey⟩ := exists_latticeKey (y := fun a => 2 * b.pointIndex a u) h
    fun a => Nat.mul_le_mul_left 2 (b.pointIndex_le a u)
  have hmem : u ∈ (b.cell i).latticeKey p := by
    rw [hkey, mem_piece]
    exact ⟨hu, fun a => Or.inl (Nat.mul_div_cancel_left _ Nat.two_pos).symm⟩
  obtain ⟨v, -, rfl⟩ := Cell.mem_latticeKey.mp hmem
  exact ⟨b.cell i, mem_cells_mesh.mpr ⟨i, hi, rfl⟩, Cell.get_mem _ v⟩

theorem piecesConform_mesh (b : Box K d) (colored : Bool) : (b.mesh colored).PiecesConform := by
  intro c hc e he f hf g hg hkeys
  obtain ⟨i, hi, rfl⟩ := mem_cells_mesh.mp hc
  obtain ⟨j, hj, rfl⟩ := mem_cells_mesh.mp he
  rw [faceKey_cell hi hf, faceKey_cell hj hg] at hkeys
  have hplace := piece_inj (facePlace_le hi) (facePlace_le hj) hkeys
  refine Set.ext fun k => ?_
  rw [mem_facePieces_cell hi hf, mem_facePieces_cell hj hg, hplace]

theorem regular_mesh (b : Box K d) (colored : Bool) : (b.mesh colored).Regular := by
  refine ⟨b.cellsValid_mesh colored, b.cellsDistinct_mesh colored, fun hd => ?_⟩
  subst hd
  exact (b.piecesConform_mesh colored).facesConform

end Box

/-! ## Boxes that have a mesh -/

section Exact

variable {K : Type} [Field K] [LinearOrder K] {d : Nat}

theorem Box.get_point (b : Box K d) (u : Nat) (a : Fin d) :
    (b.point u).coords.get a = b.low.coords.get a +
      (b.high.coords.get a - b.low.coords.get a) * (b.pointIndex a u : K) /
        (b.repetitions.get a : K) := Point.get_ofFn _ a

theorem Box.low_lt_high_ofCorners {repetitions : Vector Nat d} {p q : Point K d} {a : Fin d}
    (h : p.coords.get a ≠ q.coords.get a) :
    (ofCorners repetitions p q).low.coords.get a <
      (ofCorners repetitions p q).high.coords.get a := by
  simp only [ofCorners, Point.get_ofFn, decide_eq_true_eq]
  split
  next hlt => exact hlt
  next hge => exact lt_of_le_of_ne (not_lt.mp hge) h

variable [IsStrictOrderedRing K]

theorem Box.fault?_eq_none_iff {b : Box K d} :
    b.fault? = none ↔
      (∀ a, 0 < b.repetitions.get a) ∧ ∀ a, b.low.coords.get a < b.high.coords.get a := by
  have hrepetitions : (List.finRange d).find? (fun a => b.repetitions.get a == 0) = none ↔
      ∀ a, 0 < b.repetitions.get a := by
    simp [List.find?_eq_none, Nat.pos_iff_ne_zero]
  have hextent : (List.finRange d).find?
      (fun a => decide (b.high.coords.get a - b.low.coords.get a ≤ ((0 : Nat) : K))) = none ↔
      ∀ a, b.low.coords.get a < b.high.coords.get a := by
    simp [List.find?_eq_none]
  rw [← hrepetitions, ← hextent, fault?]
  cases (List.finRange d).find? fun a => b.repetitions.get a == 0 with
  | some a => simp
  | none =>
    cases (List.finRange d).find? fun a =>
        decide (b.high.coords.get a - b.low.coords.get a ≤ ((0 : Nat) : K)) with
    | some a => simp
    | none => exact iff_of_true rfl ⟨rfl, rfl⟩

/-- A box with cells and with an extent along every axis has a mesh. -/
theorem Mesh.box_eq (hd : 0 < d) (hd3 : d ≤ 3) {repetitions : Vector Nat d} {p q : Point K d}
    (hrepetitions : ∀ a, 0 < repetitions.get a) (hextent : ∀ a, p.coords.get a ≠ q.coords.get a)
    (colored : Bool) :
    box repetitions p q colored = .ok ((Box.ofCorners repetitions p q).mesh colored) := by
  have hfault : (Box.ofCorners repetitions p q).fault? = none :=
    Box.fault?_eq_none_iff.mpr ⟨hrepetitions, fun a => Box.low_lt_high_ofCorners (hextent a)⟩
  unfold box
  dsimp only
  rw [hfault]
  show (if d = 0 ∨ 3 < d then _ else _) = _
  rw [if_neg (by omega)]
  rfl

/-- A box with its lower corner first is the box between its own corners. -/
theorem Box.box_eq_mesh (b : Box K d) (hd : 0 < d) (hd3 : d ≤ 3)
    (hrepetitions : ∀ a, 0 < b.repetitions.get a)
    (hextent : ∀ a, b.low.coords.get a < b.high.coords.get a) (colored : Bool) :
    Mesh.box b.repetitions b.low b.high colored = .ok (b.mesh colored) := by
  have hcorners : ofCorners b.repetitions b.low b.high = b := by
    obtain ⟨repetitions, low, high⟩ := b
    have hswap (a : Fin d) : ¬high.coords.get a < low.coords.get a := (hextent a).not_gt
    rw [ofCorners, Box.mk.injEq]
    refine ⟨rfl, Point.ext_get fun a => ?_, Point.ext_get fun a => ?_⟩ <;> rw [Point.get_ofFn] <;>
      exact if_neg (by simpa using hswap a)
  rw [Mesh.box_eq hd hd3 hrepetitions (fun a => (hextent a).ne), hcorners]

end Exact
end HexMesh
