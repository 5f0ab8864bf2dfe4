import Mathlib.Algebra.Field.Rat
import Mathlib.Algebra.Order.Ring.Rat
import Mathlib.Tactic.Linarith
import Mathlib.Tactic.Ring
import HexMesh.Proofs.Box.Boundary
import HexMesh.Proofs.Identification.Places
import HexMesh.Proofs.Mesh.Constructions
import HexMesh.Proofs.Number.Rational

/-!
Gluing boxes at a common side.

Both boxes are parts of the box that they fill together: a grid point of a part lies at a
grid point of the whole, a few cells further along the axis for the second part, and so do
the corners of a cell.  As grid points are further apart than the tolerance, gluing leaves
one vertex at each grid point of the whole.
-/

namespace HexMesh

open HexMesh.Cube

namespace Box

variable {K : Type} {d : Nat} {b c u : Box K d} {offset : Fin d → Nat} {i t : Nat} {axis : Fin d}

/-! ## Two boxes in one -/

/-- The box from the first one to the second one, with the cells of both along an axis. -/
def join (b c : Box K d) (axis : Fin d) : Box K d where
  repetitions := Vector.ofFn fun a =>
    if a = axis then b.repetitions.get a + c.repetitions.get a else b.repetitions.get a
  low := b.low
  high := c.high

theorem get_repetitions_join_self (b c : Box K d) (axis : Fin d) :
    (b.join c axis).repetitions.get axis = b.repetitions.get axis + c.repetitions.get axis :=
  (Vector.getElem_ofFn axis.isLt).trans (if_pos rfl)

theorem get_repetitions_join_of_ne (b c : Box K d) {axis a : Fin d} (h : a ≠ axis) :
    (b.join c axis).repetitions.get a = b.repetitions.get a :=
  (Vector.getElem_ofFn a.isLt).trans (if_neg h)

/-- Where the second box begins in the joint one. -/
def joinOffset (b : Box K d) (axis a : Fin d) : Nat := if a = axis then b.repetitions.get a else 0

theorem joinOffset_self (b : Box K d) (axis : Fin d) :
    b.joinOffset axis axis = b.repetitions.get axis := if_pos rfl

theorem joinOffset_le {x : Fin d → Nat} (h : b.repetitions.get axis ≤ x axis) (a : Fin d) :
    b.joinOffset axis a ≤ x a := by
  rw [joinOffset]
  split
  next he => exact he ▸ h
  next => exact Nat.zero_le _

/-- The cell of the whole that is a cell of a part. -/
def partCell (u c : Box K d) (offset : Fin d → Nat) (i : Nat) : Nat :=
  u.cellAt fun a => offset a + c.cellIndex a i

/-- The cell of the joint box that is a cell of the first or, behind them, of the second one. -/
def joinCell (b c : Box K d) (axis : Fin d) (t : Nat) : Nat :=
  if t < b.cellCount then (b.join c axis).partCell b (fun _ => 0) t
  else (b.join c axis).partCell c (b.joinOffset axis) (t - b.cellCount)

theorem joinCell_left (ht : t < b.cellCount) :
    b.joinCell c axis t = (b.join c axis).partCell b (fun _ => 0) t := if_pos ht

theorem joinCell_right (b c : Box K d) (axis : Fin d) (t : Nat) :
    b.joinCell c axis (b.cellCount + t) = (b.join c axis).partCell c (b.joinOffset axis) t := by
  rw [joinCell, if_neg (Nat.not_lt.mpr (Nat.le_add_right _ _)), Nat.add_sub_cancel_left]

section Parts

variable [Scalar K]

/-- How long a cell is along an axis. -/
def spacing (b : Box K d) (a : Fin d) : K :=
  (b.high.coords.get a - b.low.coords.get a) / ((b.repetitions.get a : Nat) : K)

/-- The second box begins with the side where the first one ends along an axis, and its cells are
as long there.  Along the other axes both have the same extent and are cut alike. -/
structure Adjoins (b c : Box K d) (axis : Fin d) : Prop where
  repetitions : ∀ a, a ≠ axis → c.repetitions.get a = b.repetitions.get a
  low : ∀ a, a ≠ axis → c.low.coords.get a = b.low.coords.get a
  high : ∀ a, a ≠ axis → c.high.coords.get a = b.high.coords.get a
  side : c.low.coords.get axis = b.high.coords.get axis
  spacing : c.spacing axis = b.spacing axis

theorem Adjoins.joinOffset_add (h : b.Adjoins c axis) (a : Fin d) :
    b.joinOffset axis a + c.repetitions.get a = (b.join c axis).repetitions.get a := by
  by_cases ha : a = axis
  · rw [ha, joinOffset_self, get_repetitions_join_self]
  · rw [joinOffset, if_neg ha, Nat.zero_add, h.repetitions a ha, get_repetitions_join_of_ne b c ha]

/-- The grid of one box is a stretch of the grid of another one, that many cells in. -/
structure Part (c u : Box K d) (offset : Fin d → Nat) : Prop where
  fits : ∀ a, offset a + c.repetitions.get a ≤ u.repetitions.get a
  spacing : ∀ a, c.spacing a = u.spacing a
  low : ∀ a, c.low.coords.get a = u.low.coords.get a + u.spacing a * ((offset a : Nat) : K)

theorem Part.cell_lt (h : c.Part u offset) (hi : i < c.cellCount) (a : Fin d) :
    offset a + c.cellIndex a i < u.repetitions.get a := by
  have hfits := h.fits a
  have hindex := cellIndex_lt hi a
  omega

theorem Part.partCell_lt (h : c.Part u offset) (hi : i < c.cellCount) :
    u.partCell c offset i < u.cellCount := cellAt_lt (h.cell_lt hi)

theorem Part.cellIndex_partCell (h : c.Part u offset) (hi : i < c.cellCount) (a : Fin d) :
    u.cellIndex a (u.partCell c offset i) = offset a + c.cellIndex a i :=
  cellIndex_cellAt (h.cell_lt hi) a

theorem Part.partCell_inj (h : c.Part u offset) {j : Nat} (hi : i < c.cellCount)
    (hj : j < c.cellCount) (he : u.partCell c offset i = u.partCell c offset j) : i = j := by
  refine ext_cellIndex hi hj fun a => ?_
  have hindex := congrArg (u.cellIndex a) he
  rw [h.cellIndex_partCell hi, h.cellIndex_partCell hj] at hindex
  exact Nat.add_left_cancel hindex

/-- A cell of the whole within the stretch is a cell of the part. -/
theorem Part.exists_cell (h : c.Part u offset) (hi : i < u.cellCount)
    (hlow : ∀ a, offset a ≤ u.cellIndex a i)
    (hhigh : ∀ a, u.cellIndex a i < offset a + c.repetitions.get a) :
    ∃ j < c.cellCount, u.partCell c offset j = i := by
  have hx (a : Fin d) : u.cellIndex a i - offset a < c.repetitions.get a := by
    have ha := hlow a
    have hb := hhigh a
    omega
  have hj := cellAt_lt hx
  refine ⟨_, hj, ext_cellIndex (h.partCell_lt hj) hi fun a => ?_⟩
  have ha := hlow a
  rw [h.cellIndex_partCell hj, cellIndex_cellAt hx]
  omega

theorem Adjoins.exists_joinCell (h : b.Adjoins c axis) (hb : b.Part (b.join c axis) fun _ => 0)
    (hc : c.Part (b.join c axis) (b.joinOffset axis)) (hi : i < (b.join c axis).cellCount) :
    ∃ t < b.cellCount + c.cellCount, b.joinCell c axis t = i := by
  have hindex (a : Fin d) := cellIndex_lt hi a
  rcases Nat.lt_or_ge ((b.join c axis).cellIndex axis i) (b.repetitions.get axis) with hlt | hge
  · have hhigh (a : Fin d) : (b.join c axis).cellIndex a i < 0 + b.repetitions.get a := by
      rw [Nat.zero_add]
      by_cases ha : a = axis
      · exact ha ▸ hlt
      · exact get_repetitions_join_of_ne b c ha ▸ hindex a
    obtain ⟨j, hj, rfl⟩ := hb.exists_cell hi (fun a => Nat.zero_le _) hhigh
    exact ⟨j, Nat.lt_add_right _ hj, joinCell_left hj⟩
  · have hlow := joinOffset_le (x := fun a => (b.join c axis).cellIndex a i) hge
    obtain ⟨j, hj, rfl⟩ := hc.exists_cell hi hlow fun a => h.joinOffset_add a ▸ hindex a
    exact ⟨b.cellCount + j, Nat.add_lt_add_left hj _, joinCell_right b c axis j⟩

/-- Along the axis the cells of the first box come before those of the second one. -/
theorem partCell_ne (hb : b.Part (b.join c axis) fun _ => 0)
    (hc : c.Part (b.join c axis) (b.joinOffset axis)) (hi : i < b.cellCount)
    (ht : t < c.cellCount) :
    (b.join c axis).partCell b (fun _ => 0) i ≠
      (b.join c axis).partCell c (b.joinOffset axis) t := by
  intro he
  have hindex := congrArg ((b.join c axis).cellIndex axis) he
  have hlt := cellIndex_lt hi axis
  rw [hb.cellIndex_partCell hi, hc.cellIndex_partCell ht, joinOffset_self] at hindex
  omega

theorem Adjoins.bijOn_joinCell (h : b.Adjoins c axis) (hb : b.Part (b.join c axis) fun _ => 0)
    (hc : c.Part (b.join c axis) (b.joinOffset axis)) :
    Set.BijOn (b.joinCell c axis) (Set.Iio (b.cellCount + c.cellCount))
      (Set.Iio (b.join c axis).cellCount) := by
  have hsplit {t : Nat} (ht : t < b.cellCount + c.cellCount) :
      t < b.cellCount ∨ ∃ s < c.cellCount, b.cellCount + s = t := by
    rcases Nat.lt_or_ge t b.cellCount with hlt | hge
    · exact Or.inl hlt
    · exact Or.inr ⟨t - b.cellCount, by omega, Nat.add_sub_cancel' hge⟩
  refine ⟨fun t ht => ?_, fun s hs t ht he => ?_, fun i hi => h.exists_joinCell hb hc hi⟩
  · rcases hsplit ht with hlt | ⟨t, hlt, rfl⟩
    · rw [joinCell_left hlt]
      exact hb.partCell_lt hlt
    · rw [joinCell_right]
      exact hc.partCell_lt hlt
  · rcases hsplit hs with hslt | ⟨s, hslt, rfl⟩ <;> rcases hsplit ht with htlt | ⟨t, htlt, rfl⟩
    · rw [joinCell_left hslt, joinCell_left htlt] at he
      exact hb.partCell_inj hslt htlt he
    · rw [joinCell_left hslt, joinCell_right] at he
      exact absurd he (partCell_ne hb hc hslt htlt)
    · rw [joinCell_right, joinCell_left htlt] at he
      exact absurd he.symm (partCell_ne hb hc htlt hslt)
    · rw [joinCell_right, joinCell_right] at he
      rw [hc.partCell_inj hslt htlt he]

end Parts

/-! ## Places -/

variable [Field K] [LinearOrder K]

theorem get_point_spacing (b : Box K d) (t : Nat) (a : Fin d) :
    (b.point t).coords.get a = b.low.coords.get a + b.spacing a * (b.pointIndex a t : K) := by
  rw [get_point, spacing, mul_div_right_comm]

theorem mem_places_mesh {p : Point K d} :
    p ∈ (b.mesh false).places ↔ ∃ t < b.pointCount, b.point t = p := by
  rw [Mesh.places, size_vertices_mesh, Set.mem_image]
  constructor <;> rintro ⟨t, ht, rfl⟩
  · exact ⟨t, ht, (position_mesh ht).symm⟩
  · exact ⟨t, ht, position_mesh ht⟩

/-- Grid points lie at the same place when their places along the axes correspond. -/
theorem Part.point_eq (h : c.Part u offset) {y : Nat}
    (hy : ∀ a, u.pointIndex a y = offset a + c.pointIndex a t) : u.point y = c.point t := by
  refine Point.ext_get fun a => ?_
  rw [get_point_spacing, get_point_spacing, hy, h.low, h.spacing]
  push_cast
  ring

theorem Part.point_le (h : c.Part u offset) (t : Nat) (a : Fin d) :
    offset a + c.pointIndex a t ≤ u.repetitions.get a :=
  (Nat.add_le_add_left (c.pointIndex_le a t) _).trans (h.fits a)

theorem Part.places_subset (h : c.Part u offset) :
    (c.mesh false).places ⊆ (u.mesh false).places := by
  intro p hp
  obtain ⟨t, -, rfl⟩ := mem_places_mesh.mp hp
  have hle := h.point_le t
  exact mem_places_mesh.mpr ⟨_, pointAt_lt hle, h.point_eq (pointIndex_pointAt hle)⟩

theorem Part.point_cornerNumber (h : c.Part u offset) (hi : i < c.cellCount) (v : Corner d) :
    u.point (u.cornerNumber (u.partCell c offset i) v) = c.point (c.cornerNumber i v) := by
  refine h.point_eq fun a => ?_
  rw [pointIndex_cornerNumber (h.partCell_lt hi), pointIndex_cornerNumber hi,
    h.cellIndex_partCell hi, Nat.add_assoc]

/-- A grid point within the stretch is a grid point of the part. -/
theorem Part.point_mem_places (h : c.Part u offset) {y : Nat}
    (hlow : ∀ a, offset a ≤ u.pointIndex a y)
    (hhigh : ∀ a, u.pointIndex a y ≤ offset a + c.repetitions.get a) :
    u.point y ∈ (c.mesh false).places := by
  have hx (a : Fin d) : u.pointIndex a y - offset a ≤ c.repetitions.get a := by
    have ha := hhigh a
    omega
  refine mem_places_mesh.mpr ⟨_, pointAt_lt hx, (h.point_eq fun a => ?_).symm⟩
  have ha := hlow a
  rw [pointIndex_pointAt hx]
  omega

theorem Adjoins.places_join (h : b.Adjoins c axis) (hb : b.Part (b.join c axis) fun _ => 0)
    (hc : c.Part (b.join c axis) (b.joinOffset axis)) :
    (b.mesh false).places ∪ (c.mesh false).places = ((b.join c axis).mesh false).places := by
  refine Set.Subset.antisymm (Set.union_subset hb.places_subset hc.places_subset) fun p hp => ?_
  obtain ⟨y, -, rfl⟩ := mem_places_mesh.mp hp
  have hindex (a : Fin d) := (b.join c axis).pointIndex_le a y
  rcases Nat.le_total ((b.join c axis).pointIndex axis y) (b.repetitions.get axis) with hle | hge
  · refine Or.inl (hb.point_mem_places (fun a => Nat.zero_le _) fun a => ?_)
    rw [Nat.zero_add]
    by_cases ha : a = axis
    · exact ha ▸ hle
    · exact get_repetitions_join_of_ne b c ha ▸ hindex a
  · exact Or.inr (hc.point_mem_places
      (joinOffset_le (x := fun a => (b.join c axis).pointIndex a y) hge)
      fun a => h.joinOffset_add a ▸ hindex a)

/-- Each cell of a part is a cell of the whole, with the corners at the same places. -/
theorem getElem?_cells_join (hb : b.Part (b.join c axis) fun _ => 0)
    (hc : c.Part (b.join c axis) (b.joinOffset axis)) {e : Cell d}
    (he : ((b.mesh false).append (c.mesh false)).cells[t]? = some e) :
    ∃ e', ((b.join c axis).mesh false).cells[b.joinCell c axis t]? = some e' ∧
      ∀ v, ((b.join c axis).mesh false).position (e'.get v) =
        ((b.mesh false).append (c.mesh false)).position (e.get v) := by
  have hwhole {i : Nat} (hi : i < (b.join c axis).cellCount) (v : Corner d) :
      ((b.join c axis).mesh false).position (((b.join c axis).cell i).get v) =
        (b.join c axis).point ((b.join c axis).cornerNumber i v) := by
    rw [get_cell, position_mesh (cornerNumber_lt hi v)]
  rcases Mesh.getElem?_cells_append.mp he with he | ⟨s, f, hf, rfl, rfl⟩
  · have ht := (List.getElem?_eq_some_iff.mp he).1
    rw [length_cells_mesh] at ht
    rw [getElem?_cells_mesh ht, Option.some_inj] at he
    subst he
    have hcell := hb.partCell_lt ht
    rw [joinCell_left ht]
    refine ⟨_, getElem?_cells_mesh hcell, fun v => ?_⟩
    have hcorner := cornerNumber_lt ht v
    rw [hwhole hcell, hb.point_cornerNumber ht, get_cell,
      Mesh.position_append_left (b.size_vertices_mesh false ▸ hcorner), position_mesh hcorner]
  · have hs := (List.getElem?_eq_some_iff.mp hf).1
    rw [length_cells_mesh] at hs
    rw [getElem?_cells_mesh hs, Option.some_inj] at hf
    subst hf
    have hcell := hc.partCell_lt hs
    rw [length_cells_mesh, joinCell_right]
    refine ⟨_, getElem?_cells_mesh hcell, fun v => ?_⟩
    rw [hwhole hcell, hc.point_cornerNumber hs, Cell.get_map, get_cell, Mesh.position_append_right,
      position_mesh (cornerNumber_lt hs v)]

variable [IsStrictOrderedRing K]

theorem high_eq (h : 0 < b.repetitions.get axis) :
    b.high.coords.get axis =
      b.low.coords.get axis + b.spacing axis * (b.repetitions.get axis : K) := by
  have hne : (b.repetitions.get axis : K) ≠ 0 := Nat.cast_ne_zero.mpr h.ne'
  rw [spacing, div_mul_cancel₀ _ hne, add_sub_cancel]

theorem Adjoins.spacing_join (h : b.Adjoins c axis) (hb : ∀ a, 0 < b.repetitions.get a)
    (hc : ∀ a, 0 < c.repetitions.get a) (a : Fin d) :
    (b.join c axis).spacing a = b.spacing a := by
  show (c.high.coords.get a - b.low.coords.get a) / _ = _
  by_cases ha : a = axis
  · subst ha
    have hne : ((b.repetitions.get a + c.repetitions.get a : Nat) : K) ≠ 0 :=
      Nat.cast_ne_zero.mpr (Nat.add_pos_left (hb a) _).ne'
    rw [get_repetitions_join_self, div_eq_iff hne, high_eq (hc a), h.side, high_eq (hb a),
      h.spacing]
    push_cast
    ring
  · rw [get_repetitions_join_of_ne b c ha, h.high a ha]
    rfl

theorem Adjoins.part_left (h : b.Adjoins c axis) (hb : ∀ a, 0 < b.repetitions.get a)
    (hc : ∀ a, 0 < c.repetitions.get a) : b.Part (b.join c axis) fun _ => 0 where
  fits a := by
    rw [Nat.zero_add]
    by_cases ha : a = axis
    · rw [ha, get_repetitions_join_self]
      exact Nat.le_add_right _ _
    · exact (get_repetitions_join_of_ne b c ha).ge
  spacing a := (h.spacing_join hb hc a).symm
  low a := by
    rw [Nat.cast_zero, mul_zero, add_zero]
    rfl

theorem Adjoins.part_right (h : b.Adjoins c axis) (hb : ∀ a, 0 < b.repetitions.get a)
    (hc : ∀ a, 0 < c.repetitions.get a) : c.Part (b.join c axis) (b.joinOffset axis) where
  fits a := (h.joinOffset_add a).le
  spacing a := by
    rw [h.spacing_join hb hc]
    by_cases ha : a = axis
    · exact ha ▸ h.spacing
    · show (c.high.coords.get a - c.low.coords.get a) / ((c.repetitions.get a : Nat) : K) = _
      rw [h.low a ha, h.high a ha, h.repetitions a ha]
      rfl
  low a := by
    rw [h.spacing_join hb hc]
    by_cases ha : a = axis
    · subst ha
      rw [h.side, joinOffset_self]
      exact high_eq (hb a)
    · rw [joinOffset, if_neg ha, Nat.cast_zero, mul_zero, add_zero]
      exact h.low a ha

/-- Grid points that are nowhere further apart than a distance below the spacing are the same. -/
theorem eq_of_near {tol : K} (htol : ∀ a, tol < u.spacing a) {x y : Nat} (hx : x < u.pointCount)
    (hy : y < u.pointCount)
    (h : ∀ a, |(u.point x).coords.get a - (u.point y).coords.get a| ≤ tol) : x = y := by
  refine ext_pointIndex hx hy fun a => ?_
  by_contra hne
  have hpositive : 0 < u.spacing a := ((abs_nonneg _).trans (h a)).trans_lt (htol a)
  have hstep : (1 : K) ≤ |(u.pointIndex a x : K) - (u.pointIndex a y : K)| := by
    have hint : (1 : ℤ) ≤ |(u.pointIndex a x : ℤ) - (u.pointIndex a y : ℤ)| :=
      Int.one_le_abs (by omega)
    exact_mod_cast hint
  have hdistance : (u.point x).coords.get a - (u.point y).coords.get a =
      u.spacing a * ((u.pointIndex a x : K) - (u.pointIndex a y : K)) := by
    rw [get_point_spacing, get_point_spacing]
    ring
  have hfar : u.spacing a ≤ |(u.point x).coords.get a - (u.point y).coords.get a| := by
    rw [hdistance, abs_mul, abs_of_pos hpositive]
    exact le_mul_of_one_le_right hpositive.le hstep
  exact (htol a).not_ge (hfar.trans (h a))

theorem placesDistinct_mesh {tol : K} (hzero : 0 ≤ tol) (htol : ∀ a, tol < u.spacing a) :
    (u.mesh false).PlacesDistinct := by
  intro x hx y hy he
  replace hx : x < u.pointCount := u.size_vertices_mesh false ▸ hx
  replace hy : y < u.pointCount := u.size_vertices_mesh false ▸ hy
  rw [position_mesh hx, position_mesh hy] at he
  refine eq_of_near htol hx hy fun a => ?_
  rw [he, sub_self, abs_zero]
  exact hzero

/-- Vertices at grid points are told apart by a tolerance below the spacing. -/
theorem placesApart_of_subset {m : Mesh K d} {tol : K} (htol : ∀ a, tol < u.spacing a)
    (h : m.places ⊆ (u.mesh false).places) : m.PlacesApart tol := by
  intro v hv w hw hclose
  obtain ⟨x, hx, hxplace⟩ := mem_places_mesh.mp (h (Mesh.position_mem_places hv))
  obtain ⟨y, hy, hyplace⟩ := mem_places_mesh.mp (h (Mesh.position_mem_places hw))
  have hnear := Mesh.close_iff.mp hclose
  rw [← hxplace, ← hyplace] at hnear
  rw [← hxplace, ← hyplace, eq_of_near htol hx hy hnear]

/-! ## Gluing -/

/-- Boxes with a common side that are glued are the mesh of the joint box. -/
theorem Adjoins.merge_mesh [SquareRoot K] (h : b.Adjoins c axis)
    (hb : ∀ a, 0 < b.repetitions.get a) (hc : ∀ a, 0 < c.repetitions.get a)
    (htol : ∀ a, ((b.mesh false).append (c.mesh false)).mergeTolerance < b.spacing a) :
    ∃ m, (b.mesh false).merge (c.mesh false) = .ok m ∧ m.Alike ((b.join c axis).mesh false) ∧
      ∀ x ∈ m.boundaryFaces, x.indicator = 0 := by
  have hleft := h.part_left hb hc
  have hright := h.part_right hb hc
  have hplaces : ((b.mesh false).append (c.mesh false)).places =
      ((b.join c axis).mesh false).places := by
    rw [Mesh.places_append, h.places_join hleft hright]
  have hspacing (a : Fin d) : ((b.mesh false).append (c.mesh false)).mergeTolerance <
      (b.join c axis).spacing a := h.spacing_join hb hc a ▸ htol a
  have hwell : (b.mesh false).WellFormed := Mesh.wellFormed_ofBox b
  have hwell' : (c.mesh false).WellFormed := Mesh.wellFormed_ofBox c
  have hkeys (e : Box K d) : (e.mesh false).KeysOnFaces := fun k hk =>
    absurd hk Std.ExtTreeMap.not_mem_empty
  obtain ⟨m, f, hm, hcollapses, hboundary⟩ :=
    Mesh.exists_merge_collapses hwell hwell' (hkeys b) (hkeys c)
      (placesApart_of_subset hspacing hplaces.le)
  have hvalid : ((b.mesh false).append (c.mesh false)).CellsValid :=
    (Mesh.wellFormed_append hwell hwell').cell_lt
  have hcount :
      ((b.mesh false).append (c.mesh false)).cells.length = b.cellCount + c.cellCount := by
    rw [Mesh.length_cells_append, length_cells_mesh, length_cells_mesh]
  have hzero : ∀ x ∈ m.boundaryFaces, x.indicator = 0 := by
    intro x hx
    rcases Mesh.boundaryFaces_append hwell (hboundary hx) with hx | ⟨y, hy, rfl⟩
    · exact (mem_boundaryFaces_mesh.mp hx).2.2.2
    · exact (mem_boundaryFaces_mesh.mp hy).2.2.2
  have hcells := h.bijOn_joinCell hleft hright
  rw [← hcount, ← (b.join c axis).length_cells_mesh false] at hcells
  obtain ⟨vertex, hcopies⟩ := hcollapses.exists_copies hvalid
    ((b.join c axis).cellsValid_mesh false)
    (placesDistinct_mesh (Mesh.mergeTolerance_nonneg _) hspacing) hplaces hcells
    (fun i e he => getElem?_cells_join hleft hright he) rfl
  refine ⟨m, hm, ⟨vertex, _, hcopies.relabels (hcollapses.cellsValid hvalid) fun r k hr => ?_⟩,
    hzero⟩
  have hindicator : m.indicator k = 0 :=
    hzero ⟨r, m.indicator k⟩ (Mesh.mem_boundaryFaces.mpr ⟨k, hr, rfl⟩)
  rw [hindicator]
  exact Std.ExtTreeMap.getD_empty

omit [IsStrictOrderedRing K] in
theorem Adjoins.low_lt_high_join (h : b.Adjoins c axis)
    (hb : ∀ a, b.low.coords.get a < b.high.coords.get a)
    (hc : ∀ a, c.low.coords.get a < c.high.coords.get a) (a : Fin d) :
    b.low.coords.get a < c.high.coords.get a := by
  by_cases ha : a = axis
  · subst ha
    exact (hb a).trans (h.side ▸ hc a)
  · exact h.high a ha ▸ hb a

end Box

namespace Mesh

variable {K : Type} [Field K] [LinearOrder K] [IsStrictOrderedRing K] [SquareRoot K] {d : Nat}

/-- Two boxes with a whole side in common, with the same numbers of cells along it and with cells
of the same length across it, are glued to the box that they fill together, cut into the cells of
both, up to the numbers of vertices and cells.  The tolerance has to be smaller than the cells. -/
theorem box_merge (hd : 0 < d) (hd3 : d ≤ 3) {r s : Vector Nat d} {p q p' q' : Point K d}
    (hr : ∀ a, 0 < r.get a) (hs : ∀ a, 0 < s.get a)
    (hp : ∀ a, p.coords.get a ≠ q.coords.get a) (hp' : ∀ a, p'.coords.get a ≠ q'.coords.get a)
    {axis : Fin d} (hadjoins : (Box.ofCorners r p q).Adjoins (Box.ofCorners s p' q') axis) :
    ∃ first second union, box r p q false = .ok first ∧ box s p' q' false = .ok second ∧
      box (Vector.ofFn fun a => if a = axis then r.get a + s.get a else r.get a)
        (Box.ofCorners r p q).low (Box.ofCorners s p' q').high false = .ok union ∧
      ((∀ a, (first.append second).mergeTolerance < (Box.ofCorners r p q).spacing a) →
        ∃ glued, first.merge second = .ok glued ∧ glued.Alike union ∧
          ∀ x ∈ glued.boundaryFaces, x.indicator = 0) := by
  let whole := (Box.ofCorners r p q).join (Box.ofCorners s p' q') axis
  have hextent : ∀ a, whole.low.coords.get a < whole.high.coords.get a :=
    hadjoins.low_lt_high_join (fun a => Box.low_lt_high_ofCorners (hp a))
      fun a => Box.low_lt_high_ofCorners (hp' a)
  have hrepetitions (a : Fin d) : 0 < whole.repetitions.get a := by
    have hfits := (hadjoins.part_left hr hs).fits a
    rw [Nat.zero_add] at hfits
    exact Nat.lt_of_lt_of_le (hr a) hfits
  exact ⟨_, _, _, box_eq hd hd3 hr hp false, box_eq hd hd3 hs hp' false,
    whole.box_eq_mesh hd hd3 hrepetitions hextent false, hadjoins.merge_mesh hr hs⟩

/-- Two rectangles with cells of the size three by four. -/
theorem box_merge_rectangles :
    0 < 2 ∧ 2 ≤ 3 ∧ (∀ a, 0 < (#v[2, 2] : Vector Nat 2).get a) ∧
      (∀ a, 0 < (#v[1, 2] : Vector Nat 2).get a) ∧
      (∀ a, (Point.xy 0 0 : Point ℚ 2).coords.get a ≠ (Point.xy 6 8 : Point ℚ 2).coords.get a) ∧
      (∀ a, (Point.xy 9 0 : Point ℚ 2).coords.get a ≠ (Point.xy 6 8 : Point ℚ 2).coords.get a) ∧
      (Box.ofCorners #v[2, 2] (Point.xy 0 0 : Point ℚ 2) (.xy 6 8)).Adjoins
        (Box.ofCorners #v[1, 2] (.xy 9 0) (.xy 6 8)) 0 ∧
      ∃ first second glued union,
        box #v[2, 2] (Point.xy 0 0 : Point ℚ 2) (.xy 6 8) false = .ok first ∧
        box #v[1, 2] (Point.xy 9 0 : Point ℚ 2) (.xy 6 8) false = .ok second ∧
        box #v[3, 2] (Point.xy 0 0 : Point ℚ 2) (.xy 9 8) false = .ok union ∧
        first.merge second = .ok glued ∧ glued.Alike union := by
  have hr : ∀ a, 0 < (#v[2, 2] : Vector Nat 2).get a := by decide
  have hs : ∀ a, 0 < (#v[1, 2] : Vector Nat 2).get a := by decide
  have hp : ∀ a, (Point.xy 0 0 : Point ℚ 2).coords.get a ≠
      (Point.xy 6 8 : Point ℚ 2).coords.get a := by decide +kernel
  have hp' : ∀ a, (Point.xy 9 0 : Point ℚ 2).coords.get a ≠
      (Point.xy 6 8 : Point ℚ 2).coords.get a := by decide +kernel
  have hadjoins : (Box.ofCorners #v[2, 2] (Point.xy 0 0 : Point ℚ 2) (.xy 6 8)).Adjoins
      (Box.ofCorners #v[1, 2] (.xy 9 0) (.xy 6 8)) 0 :=
    ⟨by decide +kernel, by decide +kernel, by decide +kernel, by decide +kernel, by decide +kernel⟩
  obtain ⟨first, second, union, hfirst, hsecond, hunion, hglued⟩ :=
    box_merge (by decide) (by decide) hr hs hp hp' hadjoins
  have htol : ∀ a, (first.append second).mergeTolerance <
      (Box.ofCorners #v[2, 2] (Point.xy 0 0 : Point ℚ 2) (.xy 6 8)).spacing a := by
    cases (box_eq (by decide) (by decide) hr hp false).symm.trans hfirst
    cases (box_eq (by decide) (by decide) hs hp' false).symm.trans hsecond
    decide +kernel
  obtain ⟨glued, hmerge, halike, -⟩ := hglued htol
  have hlow : (Box.ofCorners #v[2, 2] (Point.xy 0 0 : Point ℚ 2) (.xy 6 8)).low = .xy 0 0 :=
    Point.ext_get (by decide +kernel)
  have hhigh : (Box.ofCorners #v[1, 2] (Point.xy 9 0 : Point ℚ 2) (.xy 6 8)).high = .xy 9 8 :=
    Point.ext_get (by decide +kernel)
  rw [hlow, hhigh] at hunion
  exact ⟨by decide, by decide, hr, hs, hp, hp', hadjoins, first, second, glued, union, hfirst,
    hsecond, hunion, hmerge, halike⟩

end Mesh
end HexMesh
