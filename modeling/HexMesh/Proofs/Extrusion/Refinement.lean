import Mathlib.Algebra.Field.Rat
import Mathlib.Algebra.Order.Ring.Rat
import Mathlib.Data.Set.Finite.Lemmas
import Mathlib.Order.Interval.Finset.Nat
import Mathlib.Tactic.FieldSimp
import Mathlib.Tactic.Ring
import HexMesh.Proofs.Extrusion.Pieces
import HexMesh.Proofs.Number.Rational
import HexMesh.Proofs.Refinement.Halving

/-!
Extruding and refining.

Refining the plane first gives twice as many layers of half as many cells along each side.
Its vertices are layers and pieces of the plane, and the pieces in space are levels and
pieces of the plane, so that layer `j` of the one mesh is level `j` of the other.  Extruding
the refined mesh therefore halves the extruded one.
-/

namespace HexMesh

open HexMesh.Cube

namespace Mesh

/-! ## Children of cells in the plane -/

section Plane

variable {K : Type} {m : Mesh K 2}

theorem regular_plane (hm : m.CellsValid) (hdistinct : m.CellsDistinct) : m.Regular :=
  ⟨hm, hdistinct, fun hd => absurd hd (by decide)⟩

theorem cellsApart_refineOnce [Scalar K] (hm : m.CellsValid)
    (hdistinct : m.CellsDistinct) (hapart : m.CellsApart) : m.refineOnce.CellsApart :=
  CellsDiffer.refineOnce hm hdistinct hapart

end Plane

/-! ## Layers and levels -/

section Layers

variable {K : Type} {m : Mesh K 2} {slices : Nat}

/-- The cell of the extruded mesh in which a cell of the refined and extruded one lies. -/
def stackParent (m : Mesh K 2) (j : Nat) : Nat :=
  j / (m.cells.length * 4) / 2 * m.cells.length + j % (m.cells.length * 4) / 4

/-- Where it lies there. -/
def stackChild (m : Mesh K 2) (j : Nat) : Corner 3 :=
  Corner.lift ⟨j % (m.cells.length * 4) % 4, Nat.mod_lt _ (by decide)⟩ (j / (m.cells.length * 4))

theorem stackParent_block {level i : Nat} {v : Corner 2} (hi : i < m.cells.length) :
    m.stackParent (level * (m.cells.length * 4) + (i * 4 + v)) =
      level / 2 * m.cells.length + i := by
  have hlt := block_lt hi v.isLt
  rw [stackParent, block_div hlt, Nat.mul_add_mod_of_lt hlt, block_div v.isLt]

theorem stackChild_block {level i : Nat} {v : Corner 2} (hi : i < m.cells.length) :
    m.stackChild (level * (m.cells.length * 4) + (i * 4 + v)) = v.lift level := by
  have hlt := block_lt hi v.isLt
  have hchild : (i * 4 + v.val) % 4 = v := Nat.mul_add_mod_of_lt v.isLt
  rw [stackChild, block_div hlt]
  congr 1
  refine Fin.ext ?_
  show (level * (m.cells.length * 4) + (i * 4 + v.val)) % _ % 4 = v
  rw [Nat.mul_add_mod_of_lt hlt, hchild]

/-- A cell of the refined and extruded mesh, as a level, a cell of the plane and its child. -/
theorem exists_stacked {levels j : Nat} (hj : j < levels * (m.cells.length * 4)) :
    ∃ level < levels, ∃ i < m.cells.length, ∃ v : Corner 2,
      level * (m.cells.length * 4) + (i * 4 + v) = j := by
  obtain ⟨level, hlevel, r, rfl⟩ := exists_block hj
  obtain ⟨i, hi, v, hv⟩ := exists_block r.isLt
  exact ⟨level, hlevel, i, hi, v, congrArg _ hv⟩

theorem bijOn_stackParent (m : Mesh K 2) (layers : Nat) :
    Set.BijOn (fun j => m.stackParent j * cornerCount 3 + m.stackChild j)
      (Set.Iio (2 * layers * (m.cells.length * 4)))
      (Set.Iio (layers * m.cells.length * cornerCount 3)) := by
  have hcount : layers * m.cells.length * cornerCount 3 = 2 * layers * (m.cells.length * 4) := by
    show layers * m.cells.length * 8 = _
    ring
  rw [hcount]
  refine ((Set.finite_Iio _).injOn_iff_bijOn_of_mapsTo fun j hj => ?_).mp fun j hj k hk he => ?_
  · obtain ⟨level, hlevel, i, hi, v, rfl⟩ := exists_stacked hj
    rw [← hcount, stackParent_block hi, stackChild_block hi]
    exact block_lt (block_lt (by omega) hi) (Fin.isLt _)
  · obtain ⟨level, -, i, hi, v, rfl⟩ := exists_stacked hj
    obtain ⟨level', -, i', hi', v', rfl⟩ := exists_stacked hk
    simp only [stackParent_block hi, stackParent_block hi', stackChild_block hi,
      stackChild_block hi'] at he
    obtain ⟨hparent, hchild⟩ := block_inj (Fin.isLt _) (Fin.isLt _) he
    obtain ⟨hhalf, rfl⟩ := block_inj hi hi' hparent
    have hbase := congrArg Corner.base (Fin.ext hchild)
    have hside := congrArg (fun v : Corner 3 => (v.high 2).toNat) (Fin.ext hchild)
    simp only [Corner.base_lift, Corner.high_lift] at hbase hside
    have hlevel : level = level' := by omega
    rw [hbase, hlevel]

variable [Scalar K]

/-- Where a vertex of the refined and extruded mesh lies in the extruded one. -/
def stackSite (m : Mesh K 2) (u : Nat) : Key :=
  m.slice (u / m.refineOnce.vertices.size) (m.site (u % m.refineOnce.vertices.size))

theorem stackSite_layered {level v : Nat} (hv : v < m.refineOnce.vertices.size) :
    m.stackSite (m.refineOnce.layered level v) = m.slice level (m.site v) := by
  rw [stackSite, layered_div level hv, layered_mod level hv]

theorem bijOn_stackSite (hm : m.CellsValid) (hused : m.VerticesUsed) (levels : Nat) :
    Set.BijOn m.stackSite (Set.Iio (levels * m.refineOnce.vertices.size))
      {x | ∃ j < levels, ∃ l, m.IsPiece l ∧ m.slice j l = x} := by
  have hsite {v : Nat} (hv : v < m.refineOnce.vertices.size) : m.IsPiece (m.site v) :=
    (mem_sites_iff hm hused).mp (site_mem hv).1
  refine ⟨fun u hu => ?_, fun u hu w hw he => ?_, fun x hx => ?_⟩
  · obtain ⟨level, hlevel, v, hv, rfl⟩ := exists_layered hu
    exact ⟨level, hlevel, _, hsite hv, (stackSite_layered hv).symm⟩
  · obtain ⟨level, -, v, hv, rfl⟩ := exists_layered hu
    obtain ⟨level', -, v', hv', rfl⟩ := exists_layered hw
    rw [stackSite_layered hv, stackSite_layered hv'] at he
    have hpiece := hsite hv
    have hpiece' := hsite hv'
    obtain ⟨rfl, hsame⟩ := slice_inj hpiece.pairwise hpiece'.pairwise (hpiece.lt_size hm)
      (hpiece'.lt_size hm) hpiece.ne_nil hpiece'.ne_nil he
    rw [(bijOn_site hm).injOn hv hv' hsame]
  · obtain ⟨level, hlevel, l, hl, rfl⟩ := hx
    obtain ⟨v, hv, rfl⟩ := (bijOn_site hm).surjOn (hl.mem_sites hm)
    exact ⟨_, layered_lt hlevel hv, stackSite_layered hv⟩

end Layers

/-! ## Positions -/

section Positions

variable {K : Type} [Field K] [LinearOrder K] [IsStrictOrderedRing K] {m : Mesh K 2}
  {m' : Mesh K 3} {slices level : Nat} {height : K} {k : Key}

theorem average_layer {ps : List (Point K 2)} (hps : ps ≠ []) (z : K) :
    Point.average (ps.map fun p => Point.xyz p.abscissa p.ordinate z) =
      .xyz (Point.average ps).abscissa (Point.average ps).ordinate z := by
  have hlength : (ps.length : K) ≠ 0 :=
    Nat.cast_ne_zero.mpr (List.length_pos_of_ne_nil hps).ne'
  refine Point.ext_get fun a => ?_
  rw [Point.get_average, List.map_map, List.length_map]
  match a with
  | 0 => exact (Point.get_average ps 0).symm
  | 1 => exact (Point.get_average ps 1).symm
  | 2 =>
    show (ps.map fun _ => z).sum / _ = z
    rw [List.map_const', List.sum_replicate, nsmul_eq_mul, mul_div_cancel_left₀ z hlength]

theorem average_layers {ps : List (Point K 2)} (hps : ps ≠ []) (z z' : K) :
    Point.average ((ps.map fun p => Point.xyz p.abscissa p.ordinate z) ++
        ps.map fun p => Point.xyz p.abscissa p.ordinate z') =
      .xyz (Point.average ps).abscissa (Point.average ps).ordinate ((z + z') / 2) := by
  have hlength : (ps.length : K) ≠ 0 :=
    Nat.cast_ne_zero.mpr (List.length_pos_of_ne_nil hps).ne'
  have hplane (x : K) : (x + x) / ((ps.length + ps.length : Nat) : K) = x / ps.length := by
    push_cast
    rw [← two_mul, ← two_mul, mul_div_mul_left _ _ two_ne_zero]
  refine Point.ext_get fun a => ?_
  rw [Point.get_average, List.map_append, List.map_map, List.map_map, List.sum_append,
    List.length_append, List.length_map, List.length_map]
  match a with
  | 0 => exact (hplane _).trans (Point.get_average ps 0).symm
  | 1 => exact (hplane _).trans (Point.get_average ps 1).symm
  | 2 =>
    show ((ps.map fun _ => z).sum + (ps.map fun _ => z').sum) / _ = (z + z') / 2
    rw [List.map_const', List.map_const', List.sum_replicate, List.sum_replicate, nsmul_eq_mul,
      nsmul_eq_mul, ← mul_add]
    push_cast
    field_simp
    ring

/-- The mean of a piece at a level lies above the mean of the piece, at the height of the
level. -/
theorem Stacks.average_slice (h : m.Stacks slices height m') (hslices : 2 ≤ slices)
    (hlevel : level < 2 * slices - 1) (hk : ∀ v ∈ k, v < m.vertices.size) (hne : k ≠ []) :
    Point.average ((m.slice level k).map m'.position) =
      .xyz (Point.average (k.map m.position)).abscissa (Point.average (k.map m.position)).ordinate
        (height * (level : K) / ((2 * slices - 1 - 1 : Nat) : K)) := by
  have hlayers : ((slices - 1 : Nat) : K) ≠ 0 := Nat.cast_ne_zero.mpr (by omega)
  have hcount : ((2 * slices - 1 - 1 : Nat) : K) = 2 * ((slices - 1 : Nat) : K) := by
    rw [show 2 * slices - 1 - 1 = 2 * (slices - 1) by omega]
    push_cast
    ring
  have hpoints : k.map m.position ≠ [] := by simpa using hne
  have hlayer {i : Nat} (hi : i < slices) : (k.map (m.layered i)).map m'.position =
      (k.map m.position).map fun p => Point.xyz p.abscissa p.ordinate
        (height * (i : K) / ((slices - 1 : Nat) : K)) := by
    rw [List.map_map, List.map_map]
    exact List.map_congr_left fun v hv => h.position i hi v (hk v hv)
  rw [hcount]
  obtain ⟨i, rfl | rfl⟩ := level.even_or_odd'
  · rw [slice_even, Point.average_perm ((Key.ofList_perm _).map _), hlayer (by omega),
      average_layer hpoints]
    congr 1
    push_cast
    field_simp
  · rw [slice_odd, Point.average_perm ((Key.ofList_perm _).map _), lateral, List.map_append,
      hlayer (by omega), hlayer (by omega), average_layers hpoints]
    congr 1
    push_cast
    field_simp
    ring

end Positions

/-! ## Both orders -/

section Exchange

variable {K : Type} [Field K] [LinearOrder K] [IsStrictOrderedRing K]
  {m : Mesh K 2} {coarse fine : Mesh K 3} {slices : Nat} {height : K}

omit [IsStrictOrderedRing K] in
theorem stack_corners (hcoarse : m.Stacks slices height coarse)
    (hfine : m.refineOnce.Stacks (2 * slices - 1) height fine) (hm : m.CellsValid) {j : Nat}
    {c' : Cell 3} (hc' : fine.cells[j]? = some c') :
    ∃ c, coarse.cells[m.stackParent j]? = some c ∧
      ∀ v, m.stackSite (c'.get v) = c.latticeKey (childPoint (m.stackChild j) v) := by
  obtain ⟨level, hlevel, _, _, hplane, rfl, rfl⟩ := hfine.exists_hexahedron hc'
  obtain ⟨i, w, c, hc, rfl, rfl⟩ := exists_childCell hplane
  have hi := (List.getElem?_eq_some_iff.mp hc).1
  have hparent :
      m.stackParent (level * (m.cells.length * cornerCount 2) + (i * cornerCount 2 + w)) =
        level / 2 * m.cells.length + i := stackParent_block hi
  have hchild : m.stackChild (level * (m.cells.length * cornerCount 2) + (i * cornerCount 2 + w)) =
      w.lift level := stackChild_block hi
  rw [m.length_cells_refineOnce, hparent, hchild]
  refine ⟨m.hexahedron (level / 2) c, ?_, fun v => ?_⟩
  · rw [hcoarse.getElem?_cells (by omega) hi, hc]
    rfl
  · have hpiece := isPiece_latticeKey (List.mem_of_getElem? hc) w (Corner.base v)
    have hlow : (Corner.high (w.lift level) 2).toNat = level % 2 := w.high_lift level
    rw [get_hexahedron, get_childCell, stackSite_layered (middle_lt hm hpiece),
      site_middle (hpiece.mem_sites hm),
      latticeKey_hexahedron _ _ _ (childPoint_lt _ v), childPoint_mod, Corner.base_lift]
    congr 1
    have hdigit := latticeDigit_childPoint (w.lift level) v (2 : Fin 3)
    replace hdigit : latticeDigit (childPoint (w.lift level) v) 2 =
      (Corner.high (w.lift level) 2).toNat + (Corner.high v 2).toNat := hdigit
    rw [hdigit, hlow]
    omega

omit [IsStrictOrderedRing K] in
theorem stack_boundary (hcoarse : m.Stacks slices height coarse)
    (hfine : m.refineOnce.Stacks (2 * slices - 1) height fine) (hm : m.Regular)
    (hapart : m.CellsApart) (hslices : 2 ≤ slices) {b : BoundaryFace}
    (hb : b ∈ fine.boundaryFaces) :
    onFace b.face (m.stackChild b.cell) = true ∧
      ⟨⟨m.stackParent b.cell, b.face⟩, b.indicator⟩ ∈ coarse.boundaryFaces := by
  have hconform := hm.piecesConform (by decide)
  have hrefined := hm.refineOnce
  have hsplit {level i : Nat} {v : Corner 2} (hi : i < m.cells.length)
      (hcell : b.cell = level * (m.cells.length * 4) + (i * 4 + v))
      (hface : onFace b.face (v.lift level) = true)
      (hmem : ⟨⟨level / 2 * m.cells.length + i, b.face⟩, b.indicator⟩ ∈ coarse.boundaryFaces) :
      onFace b.face (m.stackChild b.cell) = true ∧
        ⟨⟨m.stackParent b.cell, b.face⟩, b.indicator⟩ ∈ coarse.boundaryFaces := by
    rw [hcell, stackParent_block hi, stackChild_block hi]
    exact ⟨hface, hmem⟩
  rw [hfine.mem_boundaryFaces hrefined.valid (cellsApart_refineOnce hm.valid hm.distinct hapart)
    (by omega), maxIndicator_refineOnce hm.valid hm.distinct hconform,
    m.length_cells_refineOnce] at hb
  have hcoarse' {c : BoundaryFace} :=
    hcoarse.mem_boundaryFaces hm.valid hapart hslices (b := c)
  rcases hb with ⟨f, hf, level, hlevel, rfl⟩ | ⟨t, ht, rfl⟩ | ⟨t, ht, rfl⟩
  · obtain ⟨g, hg, v, hv, rfl⟩ :=
      (mem_boundaryFaces_refineOnce hm.valid hm.distinct hconform).mp hf
    have hface : g.face < 4 := face_lt_of_mem_boundaryFaces hg
    exact hsplit (cell_lt_of_mem_boundaryFaces hg) rfl ((v.onFace_lift level hface).trans hv)
      (hcoarse'.mpr (Or.inl ⟨g, hg, level / 2, by omega, rfl⟩))
  · obtain ⟨i, hi, v, rfl⟩ := exists_block ht
    have hbottom : ⟨⟨0 / 2 * m.cells.length + i, 4⟩, m.maxIndicator + 1⟩ ∈ coarse.boundaryFaces :=
      hcoarse'.mpr (Or.inr (Or.inl ⟨i, hi, by rw [Nat.zero_div, Nat.zero_mul, Nat.zero_add]⟩))
    refine hsplit hi ?_ (Corner.onFace_lift_end v 0) hbottom
    rw [Nat.zero_mul, Nat.zero_add]
  · obtain ⟨i, hi, v, rfl⟩ := exists_block ht
    have htop := Corner.onFace_lift_end v (2 * slices - 1 - 2)
    rw [show (2 * slices - 1 - 2) % 2 = 1 by omega] at htop
    refine hsplit hi rfl htop ?_
    rw [show (2 * slices - 1 - 2) / 2 = slices - 2 by omega]
    exact hcoarse'.mpr (Or.inr (Or.inr ⟨i, hi, rfl⟩))

theorem Stacks.halves (hcoarse : m.Stacks slices height coarse)
    (hfine : m.refineOnce.Stacks (2 * slices - 1) height fine) (hm : m.Regular)
    (hapart : m.CellsApart) (hused : m.VerticesUsed) (hshapes : m.shapes = ∅)
    (hslices : 2 ≤ slices) :
    coarse.Halves fine m.stackSite m.stackParent m.stackChild where
  sites := by
    have hsites : coarse.sites =
        {x | ∃ j < 2 * slices - 1, ∃ l, m.IsPiece l ∧ m.slice j l = x} :=
      Set.ext fun x => (mem_sites_iff (hcoarse.cellsValid hm.valid)
        (hcoarse.verticesUsed hslices hused)).trans (hcoarse.isPiece_iff hslices)
    rw [hsites, hfine.size]
    exact bijOn_stackSite hm.valid hused _
  position u hu := by
    rw [hfine.size] at hu
    obtain ⟨level, hlevel, v, hv, rfl⟩ := exists_layered hu
    obtain ⟨hsite, hmiddle⟩ := site_mem hv
    have hpiece := (mem_sites_iff hm.valid hused).mp hsite
    have hposition : m.refineOnce.position v = Point.average ((m.site v).map m.position) := by
      rw [← position_middle hshapes hsite, hmiddle]
    rw [stackSite_layered hv, hcoarse.average_slice hslices hlevel (hpiece.lt_size hm.valid)
      hpiece.ne_nil, hfine.position level hlevel v hv, hposition]
  cells := by
    have hlayers : 2 * slices - 1 - 1 = 2 * (slices - 1) := by omega
    rw [hfine.length_cells, hcoarse.length_cells, m.length_cells_refineOnce, hlayers]
    exact m.bijOn_stackParent _
  corners j c' hc' := stack_corners hcoarse hfine hm.valid hc'
  boundary b hb := stack_boundary hcoarse hfine hm hapart hslices hb
  shapes := by rw [hfine.shapes, hcoarse.shapes]

/-- Extruding and refining can be exchanged.  A plane mesh that is extruded and refined is the
refined mesh extruded with twice as many layers of cells, up to the numbers of vertices and
cells: vertices lie at the same places, cells have their corners in the same order, and the
boundary has the same indicators.  Refinement leaves the largest indicator as it is, so the two
numbers after it are asked for once. -/
theorem extrude_refineOnce (hm : m.CellsValid) (hdistinct : m.CellsDistinct)
    (hapart : m.CellsApart) (hused : m.VerticesUsed) (hshapes : m.shapes = ∅)
    (hslices : 2 ≤ slices) (hheight : 0 < height) (hmax : m.maxIndicator.toNat + 2 < 2 ^ 32) :
    ∃ coarse fine, m.extrude slices height = .ok coarse ∧
      m.refineOnce.extrude (2 * slices - 1) height = .ok fine ∧ coarse.refineOnce.Alike fine := by
  have hpositive : ¬height ≤ ((0 : Nat) : K) := by
    rw [Nat.cast_zero]
    exact hheight.not_ge
  have hregular := regular_plane hm hdistinct
  have hsame : m.refineOnce.maxIndicator = m.maxIndicator :=
    maxIndicator_refineOnce hm hdistinct (hregular.piecesConform (by decide))
  obtain ⟨coarse, hcoarse⟩ := (exists_extrude_iff hslices hpositive).mpr hmax
  obtain ⟨fine, hfine⟩ := (exists_extrude_iff (m := m.refineOnce)
    (by omega : 2 ≤ 2 * slices - 1) hpositive).mpr (hsame ▸ hmax)
  have hstack := stacks_of_extrude hcoarse
  have hrefined := stacks_of_extrude hfine
  have hvalid := hrefined.cellsValid hregular.refineOnce.valid
  have hrelabels := (hstack.halves hrefined hregular hapart hused hshapes hslices).relabels
    (by decide) (hstack.regular hm hdistinct hapart) hvalid hstack.shapes
  exact ⟨coarse, fine, hcoarse, hfine, _, _, hrelabels.symm hvalid⟩

/-- Two quadrilaterals that share an edge, one of them with a colored side. -/
def bentStrip : Mesh ℚ 2 :=
  { vertices := #[.xy 1 0, .xy 3 1, .xy 0 0, .xy 0 1, .xy 1 2, .xy 3 3]
    cells := [#v[2, 0, 3, 4], #v[4, 0, 5, 1]]
    indicators := KeyMap.ofEntries [([2, 3], 7)] }

theorem extrude_refineOnce_bentStrip :
    bentStrip.CellsValid ∧ bentStrip.CellsDistinct ∧ bentStrip.CellsApart ∧
      bentStrip.VerticesUsed ∧ bentStrip.shapes = ∅ ∧ 2 ≤ 3 ∧ (0 : ℚ) < 5 / 2 ∧
      bentStrip.maxIndicator.toNat + 2 < 2 ^ 32 ∧
      ∃ coarse fine, bentStrip.extrude 3 (5 / 2) = .ok coarse ∧
        bentStrip.refineOnce.extrude 5 (5 / 2) = .ok fine ∧ coarse.refineOnce.Alike fine := by
  have hm : bentStrip.CellsValid := by decide +kernel
  have hdistinct : bentStrip.CellsDistinct := by decide +kernel
  have hapart : bentStrip.CellsApart := by decide +kernel
  have hused : bentStrip.VerticesUsed := by decide +kernel
  have hheight : (0 : ℚ) < 5 / 2 := by norm_num
  have hmax : bentStrip.maxIndicator.toNat + 2 < 2 ^ 32 := by decide +kernel
  exact ⟨hm, hdistinct, hapart, hused, rfl, by decide, hheight, hmax,
    extrude_refineOnce hm hdistinct hapart hused rfl (by decide : 2 ≤ 3) hheight hmax⟩

end Exchange

end Mesh
end HexMesh
