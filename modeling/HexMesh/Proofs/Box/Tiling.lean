import Mathlib.Algebra.BigOperators.Fin
import Mathlib.Data.Fintype.BigOperators
import HexMesh.Proofs.Box.Gluing

/-!
The mesh of a box fills the box, cell by cell.

Every grid point between the two corners is one vertex and every place for a cell is taken
once.  A face is orthogonal to one axis; it has no neighbor when its cell is the first or the
last one along that axis, and exactly one otherwise.  So a side of the box has as many faces as
there are places along the other axes.  Which corner comes first along an axis does not matter.
-/

namespace HexMesh

open HexMesh.Cube

variable {K : Type} {d : Nat}

/-! ## Places and their number -/

theorem Radix.weight_eq_prod (radix : Vector Nat d) : weight radix d = ∏ a, radix.get a := by
  have hlist : radix.toList = List.ofFn radix.get := by
    refine List.ext_getElem (by simp) fun n hn _ => ?_
    rw [List.getElem_ofFn, Vector.getElem_toList]
    rfl
  rw [weight, List.take_of_length_le (by simp), ← List.prod_eq_foldl, hlist, List.prod_ofFn]

namespace Box

theorem cellCount_eq (b : Box K d) : b.cellCount = ∏ a, b.repetitions.get a :=
  Radix.weight_eq_prod b.repetitions

theorem pointCount_eq (b : Box K d) : b.pointCount = ∏ a, (b.repetitions.get a + 1) := by
  rw [pointCount, stride_eq, Radix.weight_eq_prod]
  exact Finset.prod_congr rfl fun a _ => b.get_pointRadix a

/-- Where a cell lies along the axes. -/
def cellPlace (b : Box K d) (i : Nat) (a : Fin d) : Nat := b.cellIndex a i

theorem bijOn_cellPlace (b : Box K d) :
    Set.BijOn b.cellPlace (Set.Iio b.cellCount) {x | ∀ a, x a < b.repetitions.get a} :=
  ⟨fun _ hi a => cellIndex_lt hi a, fun _ hi _ hj h => ext_cellIndex hi hj (congrFun h),
    fun _ hx => ⟨b.cellAt _, cellAt_lt hx, funext (cellIndex_cellAt hx)⟩⟩

/-- The place of the first or of the last cell along an axis. -/
def endPlace (b : Box K d) (axis : Fin d) (last : Bool) : Nat :=
  if last then b.repetitions.get axis - 1 else 0

theorem atEnd_sideFace {b : Box K d} {i : Nat} {axis : Fin d} {last : Bool}
    (h : 0 < b.repetitions.get axis) :
    b.AtEnd i (sideFace axis last) ↔ b.cellPlace i axis = b.endPlace axis last := by
  have haxis : b.AtEnd i (sideFace axis last) ↔
      b.cellPlace i axis + last.toNat = last.toNat * b.repetitions.get axis := by
    rw [AtEnd, sideFace_div, sideFace_mod]
    exact ⟨fun hend => hend axis rfl, fun hend a ha => Fin.ext ha ▸ hend⟩
  rw [haxis, endPlace]
  cases last with
  | false => simp
  | true =>
    rw [if_pos rfl, Bool.toNat_true, Nat.one_mul]
    omega

/-- There is one cell at the end of an axis for each choice of places along the other axes. -/
theorem card_endCells (b : Box K d) (h : ∀ a, 0 < b.repetitions.get a) (axis : Fin d)
    (last : Bool) :
    {i ∈ Finset.range b.cellCount | b.cellPlace i axis = b.endPlace axis last}.card =
      ∏ a ∈ Finset.univ.erase axis, b.repetitions.get a := by
  let places (a : Fin d) : Finset Nat :=
    if a = axis then {b.endPlace axis last} else Finset.range (b.repetitions.get a)
  have hend : b.endPlace axis last < b.repetitions.get axis := by
    have haxis := h axis
    unfold endPlace
    split <;> omega
  have hplaces {x : Fin d → Nat} (hx : x ∈ Fintype.piFinset places) :
      (∀ a, x a < b.repetitions.get a) ∧ x axis = b.endPlace axis last := by
    have haxis : x axis = b.endPlace axis last := by
      simpa [places] using Fintype.mem_piFinset.mp hx axis
    refine ⟨fun a => ?_, haxis⟩
    by_cases ha : a = axis
    · rwa [ha, haxis]
    · simpa [places, ha] using Fintype.mem_piFinset.mp hx a
  calc {i ∈ Finset.range b.cellCount | b.cellPlace i axis = b.endPlace axis last}.card
      = (Fintype.piFinset places).card := by
        refine Finset.card_nbij' b.cellPlace b.cellAt (fun i hi => ?_) (fun x hx => ?_)
          (fun i hi => ?_) fun x hx => ?_
        · obtain ⟨hi, haxis⟩ := Finset.mem_filter.mp hi
          refine Fintype.mem_piFinset.mpr fun a => ?_
          by_cases ha : a = axis
          · subst ha
            simpa [places] using haxis
          · have hlt : b.cellPlace i a < b.repetitions.get a :=
              cellIndex_lt (Finset.mem_range.mp hi) a
            simpa [places, ha] using hlt
        · obtain ⟨hlt, haxis⟩ := hplaces hx
          refine Finset.mem_filter.mpr ⟨Finset.mem_range.mpr (cellAt_lt hlt), ?_⟩
          exact (cellIndex_cellAt hlt axis).trans haxis
        · have hi : i < b.cellCount := Finset.mem_range.mp (Finset.mem_filter.mp hi).1
          exact ext_cellIndex (cellAt_lt (cellIndex_lt hi)) hi (cellIndex_cellAt (cellIndex_lt hi))
        · exact funext (cellIndex_cellAt (hplaces hx).1)
    _ = ∏ a ∈ Finset.univ.erase axis, b.repetitions.get a := by
        rw [Fintype.card_piFinset, ← Finset.mul_prod_erase _ _ (Finset.mem_univ axis)]
        have haxis : (places axis).card = 1 := by simp [places]
        rw [haxis, Nat.one_mul]
        refine Finset.prod_congr rfl fun a ha => ?_
        simp [places, Finset.ne_of_mem_erase ha]

/-! ## Faces inside and on the sides -/

section Sides

variable {b : Box K d} {colored : Bool} {i f : Nat} [Scalar K]

/-- A face inside the box is the opposite face of one other cell, and of no further one. -/
theorem exists_shared (hi : i < b.cellCount) (hf : f < faceCount d) (h : ¬b.AtEnd i f) :
    ∃ j, j ≠ i ∧ ∃ k, ∀ r, (b.mesh colored).HasFace r k ↔
      r = ⟨i, f⟩ ∨ r = ⟨j, acrossFace f⟩ := by
  obtain ⟨j, hj, hplace⟩ := exists_neighbor hi hf h
  have hne : j ≠ i := by
    -- Along its axis a cell has different places on its two ends.
    intro he
    have haxis := congrFun hplace (faceAxis hf)
    have hmod := acrossFace_mod f
    rw [he, facePlace_axis, facePlace, acrossFace_div, if_pos (val_faceAxis hf)] at haxis
    omega
  refine ⟨j, hne, b.piece (b.facePlace i f), fun r => ?_⟩
  obtain ⟨t, g⟩ := r
  rw [hasFace_mesh]
  constructor
  · intro hr
    obtain ⟨ht, -, hkey⟩ := hr
    have hsame := piece_inj (facePlace_le ht) (facePlace_le hi) hkey
    rcases eq_or_eq_acrossFace hf hsame with rfl | rfl
    · exact Or.inl (eq_of_facePlace_face_eq hi ht hsame ▸ rfl)
    · exact Or.inr (eq_of_facePlace_face_eq hj ht (hsame.trans hplace.symm) ▸ rfl)
  · intro hr
    rcases hr with hr | hr <;> cases hr
    · exact ⟨hi, hf, rfl⟩
    · exact ⟨hj, acrossFace_lt hf, congrArg b.piece hplace⟩

theorem exists_mem_boundaryFaces (hi : i < b.cellCount) (hf : f < faceCount d) :
    (∃ x ∈ (b.mesh colored).boundaryFaces, x.toFaceRef = ⟨i, f⟩) ↔ b.AtEnd i f := by
  constructor
  · intro h
    obtain ⟨x, hx, href⟩ := h
    obtain ⟨-, -, hend, -⟩ := mem_boundaryFaces_mesh.mp hx
    rwa [href] at hend
  · intro h
    let x : BoundaryFace := ⟨⟨i, f⟩, if colored then f.toUInt32 else 0⟩
    exact ⟨x, mem_boundaryFaces_mesh.mpr ⟨hi, hf, h, rfl⟩, rfl⟩

/-- With colors a side has its own number as its indicator, and as many faces as there are cells
at that end of the axis. -/
theorem countP_side (hd : d ≤ 3) (h : ∀ a, 0 < b.repetitions.get a) (axis : Fin d)
    (last : Bool) :
    (b.mesh true).boundaryFaces.countP (·.indicator = (sideFace axis last).toUInt32) =
      ∏ a ∈ Finset.univ.erase axis, b.repetitions.get a := by
  have hcolor {f : Nat} (hf : f < faceCount d)
      (hsame : f.toUInt32 = (sideFace axis last).toUInt32) : f = sideFace axis last := by
    have hside := sideFace_lt axis last
    unfold faceCount at hf hside
    have hnat := congrArg UInt32.toNat hsame
    simp only [Nat.toUInt32_eq, UInt32.toNat_ofNat'] at hnat
    omega
  have hmem {x : BoundaryFace} :
      x ∈ (b.mesh true).boundaryFaces.filter (·.indicator = (sideFace axis last).toUInt32) ↔
        x.cell < b.cellCount ∧ b.cellPlace x.cell axis = b.endPlace axis last ∧
          x.face = sideFace axis last ∧ x.indicator = (sideFace axis last).toUInt32 := by
    rw [List.mem_filter, mem_boundaryFaces_mesh, decide_eq_true_eq, if_pos rfl]
    constructor
    · intro hx
      obtain ⟨⟨hcell, hface, hend, hown⟩, hindicator⟩ := hx
      have hsame := hcolor hface (hown ▸ hindicator)
      rw [hsame, atEnd_sideFace (h axis)] at hend
      exact ⟨hcell, hend, hsame, hindicator⟩
    · intro hx
      obtain ⟨hcell, hend, hface, hindicator⟩ := hx
      rw [hface, atEnd_sideFace (h axis)]
      exact ⟨⟨hcell, sideFace_lt axis last, hend, hindicator⟩, hindicator⟩
  rw [← b.card_endCells h axis last, List.countP_eq_length_filter,
    ← List.toFinset_card_of_nodup ((Mesh.nodup_boundaryFaces _).filter _)]
  refine Finset.card_nbij' (·.cell)
    (fun i => ⟨⟨i, sideFace axis last⟩, (sideFace axis last).toUInt32⟩) (fun x hx => ?_)
    (fun i hi => ?_) (fun x hx => ?_) fun i _ => rfl
  · obtain ⟨hcell, hend, -, -⟩ := hmem.mp (List.mem_toFinset.mp hx)
    exact Finset.mem_filter.mpr ⟨Finset.mem_range.mpr hcell, hend⟩
  · obtain ⟨hi, hend⟩ := Finset.mem_filter.mp hi
    exact List.mem_toFinset.mpr (hmem.mpr ⟨Finset.mem_range.mp hi, hend, rfl, rfl⟩)
  · obtain ⟨⟨cell, face⟩, indicator⟩ := x
    obtain ⟨-, -, hface, hindicator⟩ := hmem.mp (List.mem_toFinset.mp hx)
    rw [BoundaryFace.mk.injEq, FaceRef.mk.injEq]
    exact ⟨⟨rfl, hface.symm⟩, hindicator.symm⟩

end Sides
end Box

/-! ## Corners of the box -/

/-- The point with the coordinates of the first point along some axes exchanged for those of
the second one. -/
def Point.exchange (along : Fin d → Bool) (p q : Point K d) : Point K d :=
  ofFn fun a => if along a then q.coords.get a else p.coords.get a

section Exact

variable [Field K] [LinearOrder K] {repetitions : Vector Nat d} {p q : Point K d}

/-- The point that many cells away from the lower ends of the axes, where each axis is cut into
equal cells between the coordinates of two points. -/
def Point.onGrid (repetitions : Vector Nat d) (p q : Point K d) (x : Fin d → Nat) : Point K d :=
  ofFn fun a =>
    let low := min (p.coords.get a) (q.coords.get a)
    let high := max (p.coords.get a) (q.coords.get a)
    low + (high - low) * (x a : K) / (repetitions.get a : K)

namespace Box

theorem get_low_ofCorners (repetitions : Vector Nat d) (p q : Point K d) (a : Fin d) :
    (ofCorners repetitions p q).low.coords.get a = min (p.coords.get a) (q.coords.get a) := by
  simp only [ofCorners, Point.get_ofFn, decide_eq_true_eq]
  split
  next hlt => exact (min_eq_right hlt.le).symm
  next hge => exact (min_eq_left (not_lt.mp hge)).symm

theorem get_high_ofCorners (repetitions : Vector Nat d) (p q : Point K d) (a : Fin d) :
    (ofCorners repetitions p q).high.coords.get a = max (p.coords.get a) (q.coords.get a) := by
  simp only [ofCorners, Point.get_ofFn, decide_eq_true_eq]
  split
  next hlt => exact (max_eq_left hlt.le).symm
  next hge => exact (max_eq_right (not_lt.mp hge)).symm

/-- It does not matter which of the two corners has the lower coordinate along an axis. -/
theorem ofCorners_exchange (repetitions : Vector Nat d) (p q : Point K d)
    (along : Fin d → Bool) :
    ofCorners repetitions (p.exchange along q) (q.exchange along p) =
      ofCorners repetitions p q := by
  have hends (a : Fin d) :
      min ((p.exchange along q).coords.get a) ((q.exchange along p).coords.get a) =
          min (p.coords.get a) (q.coords.get a) ∧
        max ((p.exchange along q).coords.get a) ((q.exchange along p).coords.get a) =
          max (p.coords.get a) (q.coords.get a) := by
    rw [Point.exchange, Point.exchange, Point.get_ofFn, Point.get_ofFn]
    cases along a with
    | false => exact ⟨rfl, rfl⟩
    | true => exact ⟨min_comm _ _, max_comm _ _⟩
  have hlow : (ofCorners repetitions (p.exchange along q) (q.exchange along p)).low =
      (ofCorners repetitions p q).low := Point.ext_get fun a => by
    rw [get_low_ofCorners, get_low_ofCorners, (hends a).1]
  have hhigh : (ofCorners repetitions (p.exchange along q) (q.exchange along p)).high =
      (ofCorners repetitions p q).high := Point.ext_get fun a => by
    rw [get_high_ofCorners, get_high_ofCorners, (hends a).2]
  exact congrArg₂ (Box.mk repetitions) hlow hhigh

theorem point_ofCorners (repetitions : Vector Nat d) (p q : Point K d) (u : Nat) :
    (ofCorners repetitions p q).point u =
      .onGrid repetitions p q ((ofCorners repetitions p q).pointIndex · u) := by
  refine Point.ext_get fun a => ?_
  rw [get_point, get_low_ofCorners, get_high_ofCorners, Point.onGrid, Point.get_ofFn]
  rfl

variable [IsStrictOrderedRing K]

theorem spacing_pos {b : Box K d} {a : Fin d} (h : 0 < b.repetitions.get a)
    (hextent : b.low.coords.get a < b.high.coords.get a) : 0 < b.spacing a :=
  div_pos (sub_pos.mpr hextent) (Nat.cast_pos.mpr h)

/-- The vertices lie at different grid points, one at each. -/
theorem bijOn_position_ofCorners (colored : Bool) (hrepetitions : ∀ a, 0 < repetitions.get a)
    (hextent : ∀ a, p.coords.get a ≠ q.coords.get a) :
    Set.InjOn (Point.onGrid repetitions p q) {x | ∀ a, x a ≤ repetitions.get a} ∧
      Set.BijOn ((ofCorners repetitions p q).mesh colored).position
        (Set.Iio (ofCorners repetitions p q).pointCount)
        (Point.onGrid repetitions p q '' {x | ∀ a, x a ≤ repetitions.get a}) := by
  set b := ofCorners repetitions p q with hb
  have hspacing (a : Fin d) : 0 < b.spacing a :=
    spacing_pos (hrepetitions a) (low_lt_high_ofCorners (hextent a))
  have hinj {u v : Nat} (hu : u < b.pointCount) (hv : v < b.pointCount)
      (h : b.point u = b.point v) : u = v := by
    refine eq_of_near hspacing hu hv fun a => ?_
    rw [h, sub_self, abs_zero]
  have hat {x : Fin d → Nat} (hx : ∀ a, x a ≤ repetitions.get a) :
      b.point (b.pointAt x) = .onGrid repetitions p q x := by
    rw [hb, point_ofCorners]
    exact congrArg _ (funext (pointIndex_pointAt hx))
  constructor
  · intro x hx y hy h
    replace hx : ∀ a, x a ≤ b.repetitions.get a := hx
    replace hy : ∀ a, y a ≤ b.repetitions.get a := hy
    have hsame := hinj (pointAt_lt hx) (pointAt_lt hy) ((hat hx).trans (h.trans (hat hy).symm))
    funext a
    calc x a = b.pointIndex a (b.pointAt x) := (pointIndex_pointAt hx a).symm
      _ = b.pointIndex a (b.pointAt y) := by rw [hsame]
      _ = y a := pointIndex_pointAt hy a
  · refine ⟨fun u hu => ?_, fun u hu v hv h => ?_, fun y hy => ?_⟩
    · rw [position_mesh hu, hb, point_ofCorners]
      exact Set.mem_image_of_mem _ fun a => pointIndex_le _ a u
    · rw [position_mesh hu, position_mesh hv] at h
      exact hinj hu hv h
    · obtain ⟨x, hx, rfl⟩ := hy
      have hlt : b.pointAt x < b.pointCount := pointAt_lt hx
      exact ⟨b.pointAt x, hlt, (position_mesh hlt).trans (hat hx)⟩

end Box

/-! ## The mesh of a box -/

namespace Mesh

/-- The mesh fills the box between two corners with the given numbers of cells along the axes.
Each cell has a place of its own, and all places are taken. -/
structure Tiles (m : Mesh K d) (repetitions : Vector Nat d) (p q : Point K d)
    (place : Nat → Fin d → Nat) : Prop where
  vertexCount : m.vertices.size = ∏ a, (repetitions.get a + 1)
  /-- Different places along the axes are different grid points. -/
  points : Set.InjOn (Point.onGrid repetitions p q) {x | ∀ a, x a ≤ repetitions.get a}
  /-- Each grid point is the position of exactly one vertex. -/
  vertices : Set.BijOn m.position (Set.Iio m.vertices.size)
    (Point.onGrid repetitions p q '' {x | ∀ a, x a ≤ repetitions.get a})
  cellCount : m.cells.length = ∏ a, repetitions.get a
  /-- Each place for a cell is the place of exactly one cell. -/
  cells : Set.BijOn place (Set.Iio m.cells.length) {x | ∀ a, x a < repetitions.get a}
  cellsValid : m.CellsValid
  cellsDistinct : m.CellsDistinct
  /-- The corners of a cell are the grid points around its place. -/
  corners : ∀ i c, m.cells[i]? = some c → ∀ v : Corner d, m.position (c.get v) =
    .onGrid repetitions p q fun a => place i a + (v.high a).toNat
  /-- The faces at the boundary are those of the first and the last cells along an axis. -/
  boundary : ∀ i < m.cells.length, ∀ axis last,
    (∃ x ∈ m.boundaryFaces, x.toFaceRef = ⟨i, sideFace axis last⟩) ↔
      place i axis = if last then repetitions.get axis - 1 else 0
  /-- Every other face is the opposite face of one other cell and belongs to no further one. -/
  inside : ∀ i < m.cells.length, ∀ axis last,
    place i axis ≠ (if last then repetitions.get axis - 1 else 0) →
      ∃ j ≠ i, ∃ k, ∀ r, m.HasFace r k ↔
        r = ⟨i, sideFace axis last⟩ ∨ r = ⟨j, sideFace axis !last⟩

variable [IsStrictOrderedRing K]

theorem tiles_ofCorners (hrepetitions : ∀ a, 0 < repetitions.get a)
    (hextent : ∀ a, p.coords.get a ≠ q.coords.get a) (colored : Bool) :
    ((Box.ofCorners repetitions p q).mesh colored).Tiles repetitions p q
      (Box.ofCorners repetitions p q).cellPlace where
  vertexCount := (Box.size_vertices_mesh _ _).trans (Box.pointCount_eq _)
  points := (Box.bijOn_position_ofCorners colored hrepetitions hextent).1
  vertices := by
    rw [Box.size_vertices_mesh]
    exact (Box.bijOn_position_ofCorners colored hrepetitions hextent).2
  cellCount := (Box.length_cells_mesh _ _).trans (Box.cellCount_eq _)
  cells := by
    rw [Box.length_cells_mesh]
    exact Box.bijOn_cellPlace _
  cellsValid := Box.cellsValid_mesh _ _
  cellsDistinct := Box.cellsDistinct_mesh _ _
  corners i c hc v := by
    have hi := (List.getElem?_eq_some_iff.mp hc).1
    rw [Box.length_cells_mesh] at hi
    rw [Box.getElem?_cells_mesh hi, Option.some_inj] at hc
    subst hc
    rw [Box.get_cell, Box.position_mesh (Box.cornerNumber_lt hi v), Box.point_ofCorners]
    exact congrArg _ (funext (Box.pointIndex_cornerNumber hi v))
  boundary i hi axis last := by
    rw [Box.length_cells_mesh] at hi
    rw [Box.exists_mem_boundaryFaces hi (sideFace_lt axis last)]
    exact Box.atEnd_sideFace (hrepetitions axis)
  inside i hi axis last hplace := by
    rw [Box.length_cells_mesh] at hi
    rw [← acrossFace_sideFace]
    exact Box.exists_shared hi (sideFace_lt axis last)
      fun hend => hplace ((Box.atEnd_sideFace (hrepetitions axis)).mp hend)

/-- The mesh of a box fills it with its cells and has one vertex at each grid point.  With colors
each side has its number as the indicator of all its faces, as many as there are places along the
other axes.  Coordinates of the corners may be exchanged along any axes. -/
theorem box_tiles (hd : 0 < d) (hd3 : d ≤ 3) (hrepetitions : ∀ a, 0 < repetitions.get a)
    (hextent : ∀ a, p.coords.get a ≠ q.coords.get a) (colorize : Bool) :
    ∃ m place, box repetitions p q colorize = .ok m ∧ m.Tiles repetitions p q place ∧
      (colorize = true → ∀ axis last,
        m.boundaryFaces.countP (·.indicator = (sideFace axis last).toUInt32) =
          ∏ a ∈ Finset.univ.erase axis, repetitions.get a) ∧
      ∀ along, box repetitions (p.exchange along q) (q.exchange along p) colorize = .ok m := by
  have hbox := box_eq hd hd3 hrepetitions hextent colorize
  refine ⟨_, _, hbox, tiles_ofCorners hrepetitions hextent colorize, fun hcolor axis last => ?_,
    fun along => ?_⟩
  · rw [hcolor]
    exact Box.countP_side hd3 hrepetitions axis last
  · rw [← hbox]
    unfold box
    rw [Box.ofCorners_exchange]

theorem box_tiles_brick :
    0 < 3 ∧ 3 ≤ 3 ∧ (∀ a, 0 < (#v[2, 1, 3] : Vector Nat 3).get a) ∧
      (∀ a, (Point.xyz 0 1 5 : Point ℚ 3).coords.get a ≠
        (Point.xyz 2 0 7 : Point ℚ 3).coords.get a) ∧
      ∃ m place, box #v[2, 1, 3] (Point.xyz 0 1 5 : Point ℚ 3) (.xyz 2 0 7) true = .ok m ∧
        m.Tiles #v[2, 1, 3] (.xyz 0 1 5) (.xyz 2 0 7) place ∧
        m.boundaryFaces.countP (·.indicator = 3) = 6 ∧
        box #v[2, 1, 3] (Point.xyz 0 0 5 : Point ℚ 3) (.xyz 2 1 7) true = .ok m := by
  have hrepetitions : ∀ a, 0 < (#v[2, 1, 3] : Vector Nat 3).get a := by decide
  have hextent : ∀ a, (Point.xyz 0 1 5 : Point ℚ 3).coords.get a ≠
      (Point.xyz 2 0 7 : Point ℚ 3).coords.get a := by decide +kernel
  obtain ⟨m, place, hm, htiles, hcount, hexchange⟩ :=
    box_tiles (by decide) (by decide) hrepetitions hextent true
  have hsecond : ∏ a ∈ Finset.univ.erase 1, (#v[2, 1, 3] : Vector Nat 3).get a = 6 := by
    decide +kernel
  have hp : (Point.xyz 0 1 5 : Point ℚ 3).exchange (· == 1) (.xyz 2 0 7) = .xyz 0 0 5 :=
    Point.ext_get (by decide +kernel)
  have hq : (Point.xyz 2 0 7 : Point ℚ 3).exchange (· == 1) (.xyz 0 1 5) = .xyz 2 1 7 :=
    Point.ext_get (by decide +kernel)
  have hswapped := hexchange (· == 1)
  rw [hp, hq] at hswapped
  exact ⟨by decide, by decide, hrepetitions, hextent, m, place, hm, htiles,
    (hcount rfl 1 true).trans hsecond, hswapped⟩

end Mesh
end Exact
end HexMesh
