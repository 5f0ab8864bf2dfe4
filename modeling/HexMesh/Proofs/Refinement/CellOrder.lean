import HexMesh.Proofs.Number.Rational
import HexMesh.Proofs.Refinement.Curved
import HexMesh.Proofs.Refinement.Halving

/-!
Refining a mesh whose cells stand in another order.

The order of the cells decides in which order new vertices are numbered, and which boundary
face comes last.  The numbers are a renaming (`Mesh.Rewrites`), and refinement keeps that.
The last boundary face decides where the new vertex of an edge in space goes when several
of them bend it.  So the order of the cells shows at edges where boundary faces of different
cells with different shapes meet, and nowhere else.  A shape that looks at the order of a new
vertex's parents would show their numbers; flat parts and balls do not.
-/

namespace HexMesh

open HexMesh.Cube

/-- The number of a cell of the refined mesh when the cells of the coarse mesh are renumbered. -/
def childNumber (d : Nat) (cell : Nat → Nat) (j : Nat) : Nat :=
  cell (j / cornerCount d) * cornerCount d + j % cornerCount d

theorem childNumber_block {d : Nat} (cell : Nat → Nat) (i : Nat) (v : Corner d) :
    childNumber d cell (i * cornerCount d + v) = cell i * cornerCount d + v := by
  rw [childNumber, block_div v.isLt, Nat.mul_add_mod_of_lt v.isLt]

namespace Mesh

variable {K : Type} {d : Nat} {m m' : Mesh K d} {vertex cell : Nat → Nat} {k : Key}
  {r : FaceRef} {a b : BoundaryFace} {s t : Shape K d}

/-! ## What a copy keeps -/

theorem Copies.cellsValid (h : m.Copies m' vertex cell) (hm : m.CellsValid) : m'.CellsValid := by
  intro c' hc' v' hv'
  obtain ⟨c, hc, rfl⟩ := h.exists_cell hc'
  obtain ⟨v, rfl⟩ := Cell.mem_toList_iff.mp hv'
  rw [Cell.get_map]
  exact h.vertices.mapsTo (hm c hc _ (c.get_mem v))

theorem Copies.cellsDistinct (h : m.Copies m' vertex cell) (hm : m.CellsValid)
    (hdistinct : m.CellsDistinct) : m'.CellsDistinct := by
  intro c' hc'
  obtain ⟨c, hc, rfl⟩ := h.exists_cell hc'
  rw [Vector.toList_map]
  refine (hdistinct c hc).map_on fun v hv w hw he => ?_
  exact h.vertices.injOn (hm c hc v hv) (hm c hc w hw) he

theorem Copies.faceHolds_iff (h : m.Copies m' vertex cell) (hm : m.CellsValid)
    (hr : r.cell < m.cells.length) (hk : m.IsPiece k) :
    m'.FaceHolds (r.relabel cell) (Key.ofList (k.map vertex)) ↔ m.FaceHolds r k := by
  obtain ⟨c, hc⟩ : ∃ c, m.cells[r.cell]? = some c := ⟨_, List.getElem?_eq_getElem hr⟩
  have hc' : m'.cells[cell r.cell]? = some (c.map vertex) := by
    rw [h.corners r.cell hr, hc]
    rfl
  constructor
  · rintro ⟨e, he, p, hp, hon, hkey⟩
    obtain rfl : c.map vertex = e := Option.some.inj (hc'.symm.trans he)
    rw [Cell.latticeKey_map] at hkey
    have hpiece : m.IsPiece (c.latticeKey p) := ⟨c, List.mem_of_getElem? hc, p, hp, rfl⟩
    exact ⟨c, hc, p, hp, hon, Key.ofList_map_inj h.vertices.injOn hpiece.pairwise hk.pairwise
      (hpiece.lt_size hm) (hk.lt_size hm) hkey⟩
  · rintro ⟨e, he, p, hp, hon, rfl⟩
    obtain rfl : c = e := Option.some.inj (hc.symm.trans he)
    exact ⟨_, hc', p, hp, hon, c.latticeKey_map vertex p⟩

/-- The second mesh is the first one under other numbers, with the same indicators stored for
faces. -/
structure Rewrites (m m' : Mesh K d) (vertex cell : Nat → Nat) : Prop extends
    m.Copies m' vertex cell where
  indicators : ∀ r k, m.HasFace r k → m'.indicators[Key.ofList (k.map vertex)]? = m.indicators[k]?

theorem Rewrites.relabels (h : m.Rewrites m' vertex cell) (hm : m.CellsValid) :
    m.Relabels m' vertex cell := by
  refine h.toCopies.relabels hm fun r k hr => ?_
  rw [indicator, indicator, Std.ExtTreeMap.getD_eq_getD_getElem?,
    Std.ExtTreeMap.getD_eq_getD_getElem?, h.indicators r k hr.1]

/-! ## Bent pieces of a copy -/

theorem Relabels.bends (h : m.Relabels m' vertex cell) (hm : m.CellsValid) (hk : m.IsPiece k)
    (hb : m.Bends b s k) : m'.Bends (b.relabel cell) s (Key.ofList (k.map vertex)) where
  boundary := (h.boundary _).mpr ⟨b, hb.boundary, rfl⟩
  shape := h.shapes ▸ hb.shape
  holds := (h.faceHolds_iff hm (cell_lt_of_mem_boundaryFaces hb.boundary) hk).mpr hb.holds

theorem Relabels.exists_bends (h : m.Relabels m' vertex cell) (hm : m.CellsValid)
    (hk : m.IsPiece k) {b' : BoundaryFace} (hb' : m'.Bends b' s (Key.ofList (k.map vertex))) :
    ∃ b, b' = b.relabel cell ∧ m.Bends b s k := by
  obtain ⟨b, hb, rfl⟩ := (h.boundary b').mp hb'.boundary
  refine ⟨b, rfl, hb, h.shapes ▸ hb'.shape, ?_⟩
  exact (h.faceHolds_iff hm (cell_lt_of_mem_boundaryFaces hb) hk).mp hb'.holds

/-- The last face among those of one cell that bend a piece does not depend on the numbers of
cells. -/
theorem Relabels.eq_of_bendsLast (h : m.Relabels m' vertex cell) (hm : m.CellsValid)
    (hk : m.IsPiece k) (ha : m.BendsLast a s k) (hb : m.Bends b t k)
    (hb' : m'.BendsLast (b.relabel cell) t (Key.ofList (k.map vertex)))
    (hcell : a.cell = b.cell) : a = b := by
  rcases ha.last b t hb with rfl | hbefore
  · rfl
  · have hlt : b.face < a.face := hbefore.face_lt hcell.symm
    have hle : a.face ≤ b.face := by
      rcases hb'.last _ s (h.bends hm hk ha.toBends) with he | hbehind
      · have hface : (a.relabel cell).face = (b.relabel cell).face :=
          congrArg (fun x : BoundaryFace => x.face) he
        exact hface.le
      · exact (hbehind.face_lt (congrArg cell hcell)).le
    exact absurd hlt (Nat.not_lt.mpr hle)

/-! ## Positions of new vertices -/

section Position

variable [Field K] [LinearOrder K]

/-- No part of the boundary has a shape that looks at the order of the parents. -/
def ShapesSymmetric (m : Mesh K d) : Prop :=
  ∀ (i : Indicator) (s : Shape K d), m.shapes[i]? = some s → s.Symmetric

/-- Boundary faces of different cells that bend an edge put its new vertex at the same place. -/
def EdgesAgree (m : Mesh K d) : Prop :=
  ∀ a b s t k, m.Bends a s k → m.Bends b t k → a.cell ≠ b.cell → k.length = 2 →
    s.place (k.map m.position) = t.place (k.map m.position)

theorem Copies.map_position_perm (h : m.Copies m' vertex cell) (hk : ∀ v ∈ k, v < m.vertices.size) :
    ((Key.ofList (k.map vertex)).map m'.position).Perm (k.map m.position) := by
  have hmap : (k.map vertex).map m'.position = k.map m.position := by
    rw [List.map_map]
    exact List.map_congr_left fun v hv => h.position_vertex (hk v hv)
  exact hmap ▸ (Key.ofList_perm _).map _

theorem Relabels.newPosition (h : m.Relabels m' vertex cell) (hd : d ≤ 3) (hm : m.CellsValid)
    (hsymmetric : m.ShapesSymmetric) (hagree : d = 3 → m.EdgesAgree) (hk : m.IsPiece k)
    (hlength : 1 < k.length) :
    m'.newPosition m'.curvedKeys (Key.ofList (k.map vertex)) = m.newPosition m.curvedKeys k := by
  have hlength' : 1 < (Key.ofList (k.map vertex)).length := by
    rwa [Key.length_ofList, List.length_map]
  have hperm := h.map_position_perm (hk.lt_size hm)
  by_cases hnone : ∀ b s, ¬m.Bends b s k
  · rw [newPosition_of_not_bends hlength hnone, newPosition_of_not_bends hlength' ?_]
    · exact Point.average_perm hperm
    · intro b' s hb'
      obtain ⟨b, -, hb⟩ := h.exists_bends hm hk hb'
      exact hnone b s hb
  · push Not at hnone
    obtain ⟨c, u, hc⟩ := hnone
    obtain ⟨a, s, ha⟩ := hc.exists_bendsLast hlength
    obtain ⟨b', t, hb'⟩ := (h.bends hm hk hc).exists_bendsLast hlength'
    obtain ⟨b, rfl, hb⟩ := h.exists_bends hm hk hb'.toBends
    rw [newPosition_of_bendsLast hlength ha, newPosition_of_bendsLast hlength' hb',
      hsymmetric _ t hb.shape _ _ hperm]
    have hsame (he : a = b) : t = s := by
      subst he
      exact Option.some.inj (hb.shape.symm.trans ha.shape)
    -- `a` is last in the first mesh and `b` in the second.  Within a cell faces keep their order.
    by_cases hcell : a.cell = b.cell
    · rw [hsame (h.eq_of_bendsLast hm hk ha hb hb' hcell)]
    · rcases ha.eq_or_edge hd hb hlength with he | ⟨hthree, hedge⟩
      · rw [hsame he]
      · exact (hagree hthree a b s t k ha.toBends hb hcell hedge).symm

end Position

/-! ## Refining a copy -/

section Refined

variable [Scalar K]

/-- The new number of a vertex of the refined mesh. -/
def refinedNumber (m m' : Mesh K d) (vertex : Nat → Nat) (u : Nat) : Nat :=
  m'.middle (Key.ofList ((m.site u).map vertex))

omit [Scalar K] in
theorem refinedNumber_middle (hk : k ∈ m.sites) :
    refinedNumber m m' vertex (m.middle k) = m'.middle (Key.ofList (k.map vertex)) := by
  rw [refinedNumber, site_middle hk]

omit [Scalar K] in
theorem refinedNumber_of_lt {v : Nat} (hv : v < m.vertices.size) :
    refinedNumber m m' vertex v = vertex v := by
  rw [refinedNumber, site, if_pos hv]
  rfl

omit [Scalar K] in
theorem map_childCell (hm : m.CellsValid) {c : Cell d} (hc : c ∈ m.cells) (child : Corner d) :
    (m.childCell m.newKeys c child).map (refinedNumber m m' vertex) =
      m'.childCell m'.newKeys (c.map vertex) child := by
  refine Vector.ext fun j hj => ?_
  have hcorner := m.get_childCell c child ⟨j, hj⟩
  have hcorner' := m'.get_childCell (c.map vertex) child ⟨j, hj⟩
  rw [Cell.get_eq_getElem] at hcorner hcorner'
  have hpiece := isPiece_latticeKey (m := m) hc child ⟨j, hj⟩
  rw [Vector.getElem_map, hcorner, hcorner', refinedNumber_middle (hpiece.mem_sites hm),
    Cell.latticeKey_map]

theorem Copies.refineOnce (h : m.Copies m' vertex cell) (hm : m.CellsValid)
    (hplaces : ∀ k, m.IsPiece k → 1 < k.length →
      m'.newPosition m'.curvedKeys (Key.ofList (k.map vertex)) = m.newPosition m.curvedKeys k) :
    m.refineOnce.Copies m'.refineOnce (refinedNumber m m' vertex) (childNumber d cell) where
  vertices := (bijOn_middle_sites (h.cellsValid hm)).comp ((h.bijOn_sites hm).comp (bijOn_site hm))
  position u hu := by
    obtain ⟨hsite, hmiddle⟩ := site_mem hu
    rw [← hmiddle, refinedNumber_middle hsite]
    rcases hsite with ⟨v, hv, hsingle⟩ | ⟨hpiece, hlength⟩
    · rw [hsingle, middle_singleton, getElem?_vertices_refineOnce hv]
      show m'.refineOnce.vertices[vertex v]? = _
      rw [getElem?_vertices_refineOnce (h.vertices.mapsTo hv), h.position v hv]
    · rw [getElem?_middle hpiece hlength, getElem?_middle (h.isPiece_iff.mpr ⟨_, hpiece, rfl⟩),
        hplaces _ hpiece hlength]
      rwa [Key.length_ofList, List.length_map]
  cells := by
    rw [length_cells_refineOnce, length_cells_refineOnce]
    exact bijOn_blocks h.cells
  corners j hj := by
    obtain ⟨i, v, c, hc, rfl, hchild⟩ := exists_childCell (List.getElem?_eq_getElem hj)
    rw [childNumber_block, getElem?_cells_refineOnce, getElem?_cells_refineOnce,
      h.corners i (List.getElem?_eq_some_iff.mp hc).1, hc]
    exact congrArg some (map_childCell hm (List.mem_of_getElem? hc) v).symm
  shapes := h.shapes

/-- Nothing is stored for the faces of children inside their parents. -/
theorem getElem?_indicators_refineOnce_inner (hm : m.CellsValid) (hdistinct : m.CellsDistinct)
    {c : Cell d} (hc : c ∈ m.cells) {f : Nat} (hf : f < faceCount d) {v : Corner d}
    (hv : onFace f v = false) :
    m.refineOnce.indicators[(m.childCell m.newKeys c v).faceKey f]? = none := by
  rw [indicators_refineOnce]
  by_contra hsome
  obtain ⟨i, hi⟩ := Option.ne_none_iff_exists'.mp hsome
  obtain ⟨e, he, w, g, hg, hw, -, hkeys⟩ :=
    mem_inheritedEntries.mp (KeyMap.mem_of_getElem?_ofEntries hi)
  have hpieces := (faceKey_childCell_eq_iff hm hdistinct he hc).mp hkeys
  have hon := (Cell.of_childPieces_eq (hdistinct e he) (hdistinct c hc) hg hf hw hpieces).1
  rw [hv] at hon
  exact Bool.false_ne_true hon

theorem Rewrites.refineOnce (h : m.Rewrites m' vertex cell) (hm : m.CellsValid)
    (hdistinct : m.CellsDistinct)
    (hplaces : ∀ k, m.IsPiece k → 1 < k.length →
      m'.newPosition m'.curvedKeys (Key.ofList (k.map vertex)) = m.newPosition m.curvedKeys k) :
    m.refineOnce.Rewrites m'.refineOnce (refinedNumber m m' vertex) (childNumber d cell) := by
  refine ⟨h.toCopies.refineOnce hm hplaces, fun r k hr => ?_⟩
  have hm' := h.cellsValid hm
  have hdistinct' := h.cellsDistinct hm hdistinct
  obtain ⟨s, v, c, hc, hface, rfl, rfl⟩ := hasFace_refineOnce.mp hr
  have hcmem := List.mem_of_getElem? hc
  rw [← Cell.faceKey_map, map_childCell hm hcmem]
  cases hv : onFace s.face v with
  | true =>
    rw [getElem?_indicators_refineOnce hm' hdistinct' (h.map_mem hcmem) hface hv,
      getElem?_indicators_refineOnce hm hdistinct hcmem hface hv, Cell.faceKey_map]
    exact h.indicators s _ ⟨c, hc, hface, rfl⟩
  | false =>
    rw [getElem?_indicators_refineOnce_inner hm' hdistinct' (h.map_mem hcmem) hface hv,
      getElem?_indicators_refineOnce_inner hm hdistinct hcmem hface hv]

theorem cells_refine (hm : m.CellsValid) (hdistinct : m.CellsDistinct) (n : Nat) :
    (m.refine n).CellsValid ∧ (m.refine n).CellsDistinct := by
  induction n with
  | zero => exact ⟨hm, hdistinct⟩
  | succ n ih =>
    rw [refine_succ]
    exact ⟨cellsValid_refineOnce ih.1, cellsDistinct_refineOnce ih.1 ih.2⟩

theorem size_le_size_refine (m : Mesh K d) (n : Nat) :
    m.vertices.size ≤ (m.refine n).vertices.size := by
  induction n with
  | zero => exact Nat.le_refl _
  | succ n ih =>
    rw [refine_succ, size_refineOnce]
    exact Nat.le_add_right_of_le ih

end Refined

/-! ## Repeated refinement -/

section Repeated

variable [Field K] [LinearOrder K] {n : Nat}

/-- The number of a cell after some refinements when the cells of the coarse mesh are
renumbered. -/
def descendantNumber (d n : Nat) (cell : Nat → Nat) (i : Nat) : Nat :=
  cell (i / cornerCount d ^ n) * cornerCount d ^ n + i % cornerCount d ^ n

theorem descendantNumber_zero (d : Nat) (cell : Nat → Nat) : descendantNumber d 0 cell = cell := by
  funext i
  rw [descendantNumber, pow_zero, Nat.div_one, Nat.mul_one, Nat.mod_one, Nat.add_zero]

theorem childNumber_descendantNumber (d n : Nat) (cell : Nat → Nat) :
    childNumber d (descendantNumber d n cell) = descendantNumber d (n + 1) cell := by
  funext i
  rw [childNumber, descendantNumber, descendantNumber, pow_succ', Nat.div_div_eq_div_mul,
    Nat.mod_mul]
  ring

/-- Refinement keeps a mesh that is written in another order in that order. -/
theorem Rewrites.refine (h : m.Rewrites m' vertex cell) (hd : d ≤ 3) (hm : m.CellsValid)
    (hdistinct : m.CellsDistinct) (hsymmetric : m.ShapesSymmetric)
    (hagree : d = 3 → ∀ t < n, (m.refine t).EdgesAgree) :
    ∃ vertex', (∀ v < m.vertices.size, vertex' v = vertex v) ∧
      (m.refine n).Rewrites (m'.refine n) vertex' (descendantNumber d n cell) := by
  induction n with
  | zero => exact ⟨vertex, fun _ _ => rfl, (descendantNumber_zero d cell).symm ▸ h⟩
  | succ n ih =>
    obtain ⟨vertex', hold, hn⟩ := ih fun hthree t ht => hagree hthree t (Nat.lt_succ_of_lt ht)
    obtain ⟨hvalid, hcells⟩ := cells_refine hm hdistinct n
    refine ⟨refinedNumber (m.refine n) (m'.refine n) vertex', fun v hv => ?_, ?_⟩
    · rw [refinedNumber_of_lt (Nat.lt_of_lt_of_le hv (size_le_size_refine m n)), hold v hv]
    · rw [refine_succ, refine_succ, ← childNumber_descendantNumber]
      refine hn.refineOnce hvalid hcells fun k hk hlength => ?_
      have hshapes : (m.refine n).ShapesSymmetric := by
        rwa [ShapesSymmetric, shapes_refine]
      exact (hn.relabels hvalid).newPosition hd hvalid hshapes
        (fun hthree => hagree hthree n (Nat.lt_succ_self n)) hk hlength

/-! ## Edges on which the boundary agrees -/

/-- Boundary faces that bend a common edge have the same shape. -/
def ShapesAgree (m : Mesh K d) : Prop :=
  ∀ a b s t k, m.Bends a s k → m.Bends b t k → k.length = 2 → s = t

theorem ShapesAgree.edgesAgree (h : m.ShapesAgree) : m.EdgesAgree :=
  fun a b s t k ha hb _ hedge => by rw [h a b s t k ha hb hedge]

/-- The ends of an edge of a child's boundary face are the middles of pieces of its parent's, and
these are not both corners. -/
theorem ShapesAgree.refineOnce (h : m.ShapesAgree) (hd : d ≤ 3) (hm : m.Regular) :
    m.refineOnce.ShapesAgree := by
  intro a' b' s t k' ha' hb' hedge
  obtain ⟨a, c, v, ha, hs, hc, hnodup, hmiddle⟩ := ha'.exists_parent hd hm
  obtain ⟨b, e, w, hb, ht, he, -, hmiddle'⟩ := hb'.exists_parent hd hm
  have hcommon : ∀ u ∈ k', ∃ k, m.Bends a s k ∧ m.Bends b t k ∧ c.get v ∈ k ∧ m.middle k = u := by
    intro u hu
    obtain ⟨k, hk, hcorner, rfl⟩ := hmiddle u hu
    obtain ⟨l, hl, -, hsame⟩ := hmiddle' _ hu
    obtain rfl := injOn_middle hm.valid hl.isPiece hk.isPiece hsame
    exact ⟨l, ⟨ha, hs, hk⟩, ⟨hb, ht, hl⟩, hcorner, rfl⟩
  -- The parents have a piece in common at each end, and an edge of the child has two ends.
  by_cases hlong : ∃ k, m.Bends a s k ∧ m.Bends b t k ∧ 1 < k.length
  · obtain ⟨k, hka, hkb, hlength⟩ := hlong
    rcases hka.eq_or_edge hd hkb hlength with rfl | ⟨-, htwo⟩
    · exact Option.some.inj (hs.symm.trans ht)
    · exact h a b s t k hka hkb htwo
  · exfalso
    have hcorner : ∀ u ∈ k', u = c.get v := by
      intro u hu
      obtain ⟨k, hka, hkb, hmem, rfl⟩ := hcommon u hu
      rcases hka.holds.isPiece.singleton_or_length with ⟨x, rfl⟩ | hlength
      · exact (List.mem_singleton.mp hmem).symm
      · exact absurd ⟨k, hka, hkb, hlength⟩ hlong
    have hsub : k' ⊆ [c.get v] := fun u hu => List.mem_singleton.mpr (hcorner u hu)
    have hle := (List.subperm_of_subset hnodup hsub).length_le
    rw [hedge, List.length_singleton] at hle
    exact absurd hle (by decide)

theorem ShapesAgree.refine (h : m.ShapesAgree) (hd : d ≤ 3) (hm : m.Regular) (n : Nat) :
    (m.refine n).ShapesAgree := by
  induction n with
  | zero => exact h
  | succ n ih =>
    rw [refine_succ]
    exact ih.refineOnce hd (hm.refine n)

omit [Field K] [LinearOrder K] in
theorem ShapesAgree.of_bentPieces (h : ∀ x ∈ m.bentPieces, ∀ y ∈ m.bentPieces, x.2 = y.2 →
    x.1.indicator = y.1.indicator) : m.ShapesAgree := by
  intro a b s t k ha hb hedge
  have hlength : 1 < k.length := hedge ▸ Nat.one_lt_two
  have hindicator : a.indicator = b.indicator := h (a, k) (mem_bentPieces.mpr ⟨hlength, s, ha⟩)
    (b, k) (mem_bentPieces.mpr ⟨hlength, t, hb⟩) rfl
  exact Option.some.inj (ha.shape.symm.trans (hindicator ▸ hb.shape))

/-! ## Cells in another order -/

theorem ShapesSymmetric.of_standard [SquareRoot K]
    (h : ∀ (i : Indicator) (s : Shape K d), m.shapes[i]? = some s →
      s = .flat ∨ ∃ center radius, s = .ball center radius) : m.ShapesSymmetric := by
  intro i s hs
  rcases h i s hs with rfl | ⟨center, radius, rfl⟩
  · exact Shape.symmetric_flat
  · exact Shape.symmetric_ball center radius

/-- Refining a mesh with its cells in another order gives the same mesh with its cells in the
order that follows and under other numbers for the new vertices.  In space, boundary faces of
different cells that bend a common edge have to agree about its new vertex.  Shapes may be flat and
balls (`ShapesSymmetric.of_standard`), and any others that do not look at the order of the
parents. -/
theorem refine_permuted_cells (hd : d = 1 ∨ d = 2 ∨ d = 3) (hm : m.CellsValid)
    (hdistinct : m.CellsDistinct) (hsymmetric : m.ShapesSymmetric) {cells : List (Cell d)}
    (hcells : Set.BijOn cell (Set.Iio m.cells.length) (Set.Iio cells.length))
    (hsame : ∀ i < m.cells.length, cells[cell i]? = m.cells[i]?) (n : Nat)
    (hagree : d = 3 → ∀ t < n, (m.refine t).EdgesAgree) :
    ∃ vertex, (∀ v < m.vertices.size, vertex v = v) ∧
      (m.refine n).Relabels (({ m with cells } : Mesh K d).refine n) vertex fun i =>
        cell (i / cornerCount d ^ n) * cornerCount d ^ n + i % cornerCount d ^ n := by
  have hcopies : m.Copies { m with cells } id cell := by
    refine ⟨Set.bijOn_id _, fun _ _ => rfl, hcells, fun i hi => ?_, rfl⟩
    show cells[cell i]? = _
    rw [hsame i hi]
    cases m.cells[i]? with
    | none => rfl
    | some c => exact congrArg some (Vector.map_id c).symm
  have hrewrites : m.Rewrites { m with cells } id cell := by
    refine ⟨hcopies, fun r k hr => ?_⟩
    rw [List.map_id, Key.ofList_of_pairwise hr.pairwise]
  obtain ⟨vertex, hold, hn⟩ := hrewrites.refine (by omega) hm hdistinct hsymmetric hagree
  exact ⟨vertex, hold, hn.relabels (cells_refine hm hdistinct n).1⟩

end Repeated

/-- Two bricks side by side, and two spheres for parts of the boundary. -/
def pair (cells : List (Cell 3)) (k l : Key) : Mesh ℚ 3 :=
  { vertices := #[.xyz 0 0 0, .xyz 0 0 2, .xyz 1 0 0, .xyz 1 0 2, .xyz 2 0 0, .xyz 2 0 2,
      .xyz 0 1 0, .xyz 0 1 2, .xyz 1 1 0, .xyz 1 1 2, .xyz 2 1 0, .xyz 2 1 2]
    cells
    indicators := KeyMap.ofEntries [(k, 1), (l, 2)]
    shapes := ((∅ : Std.ExtTreeMap Indicator (Shape ℚ 3)).insert 1
      (.ball (.xyz 1 3 1) 5)).insert 2 (.ball (.xyz 1 3 1) 4) }

theorem shapesSymmetric_pair (cells : List (Cell 3)) (k l : Key) :
    (pair cells k l).ShapesSymmetric := by
  refine .of_standard fun i s hs => Or.inr ?_
  rw [pair, Std.ExtTreeMap.getElem?_insert, Std.ExtTreeMap.getElem?_insert,
    Std.ExtTreeMap.getElem?_empty] at hs
  split at hs
  · exact ⟨_, _, (Option.some.inj hs).symm⟩
  · split at hs
    · exact ⟨_, _, (Option.some.inj hs).symm⟩
    · cases hs

def leftBrick : Cell 3 := #v[0, 2, 6, 8, 1, 3, 7, 9]

def rightBrick : Cell 3 := #v[2, 4, 8, 10, 3, 5, 9, 11]

/-- The outer sides of the bricks have no edge in common. -/
theorem refine_permuted_cells_pair :
    (3 = 1 ∨ 3 = 2 ∨ 3 = 3) ∧
      (pair [leftBrick, rightBrick] [0, 1, 6, 7] [4, 5, 10, 11]).CellsValid ∧
      (pair [leftBrick, rightBrick] [0, 1, 6, 7] [4, 5, 10, 11]).CellsDistinct ∧
      (pair [leftBrick, rightBrick] [0, 1, 6, 7] [4, 5, 10, 11]).ShapesSymmetric ∧
      Set.BijOn (1 - ·) (Set.Iio 2) (Set.Iio 2) ∧
      (∀ i < 2, [rightBrick, leftBrick][1 - i]? = [leftBrick, rightBrick][i]?) ∧
      (∀ t < 2, ((pair [leftBrick, rightBrick] [0, 1, 6, 7] [4, 5, 10, 11]).refine t).EdgesAgree) ∧
      ((pair [leftBrick, rightBrick] [0, 1, 6, 7] [4, 5, 10, 11]).refine 2).Alike
        ((pair [rightBrick, leftBrick] [0, 1, 6, 7] [4, 5, 10, 11]).refine 2) := by
  have hregular : (pair [leftBrick, rightBrick] [0, 1, 6, 7] [4, 5, 10, 11]).Regular := by
    decide +kernel
  have hshapes : (pair [leftBrick, rightBrick] [0, 1, 6, 7] [4, 5, 10, 11]).ShapesAgree :=
    .of_bentPieces (by decide +kernel)
  have hsame : ∀ i < 2,
      [rightBrick, leftBrick][1 - i]? = [leftBrick, rightBrick][i]? := by decide
  have hedges (t : Nat) : ((pair [leftBrick, rightBrick] [0, 1, 6, 7]
      [4, 5, 10, 11]).refine t).EdgesAgree := (hshapes.refine (by decide) hregular t).edgesAgree
  have hcells : Set.BijOn (1 - ·) (Set.Iio 2) (Set.Iio 2) := by
    have hmaps : ∀ i < 2, 1 - i < 2 := by decide
    have hback : ∀ i < 2, 1 - (1 - i) = i := by decide
    exact Set.InvOn.bijOn ⟨hback, hback⟩ hmaps hmaps
  obtain ⟨vertex, -, hrelabels⟩ := refine_permuted_cells (by decide) hregular.valid
    hregular.distinct (shapesSymmetric_pair _ _ _) hcells hsame 2 fun _ t _ => hedges t
  exact ⟨by decide, hregular.valid, hregular.distinct, shapesSymmetric_pair _ _ _, hcells, hsame,
    fun t _ => hedges t, _, _, hrelabels⟩

/-- The front sides have an edge in common.  Its middle is three away from the center, and the
spheres, with the radii five and four, put its new vertex at different places. -/
theorem not_alike_refine_pair :
    (pair [leftBrick, rightBrick] [0, 1, 2, 3] [2, 3, 4, 5]).CellsValid ∧
      (pair [leftBrick, rightBrick] [0, 1, 2, 3] [2, 3, 4, 5]).CellsDistinct ∧
      [rightBrick, leftBrick].Perm [leftBrick, rightBrick] ∧
      ¬((pair [leftBrick, rightBrick] [0, 1, 2, 3] [2, 3, 4, 5]).refine 1).Alike
        ((pair [rightBrick, leftBrick] [0, 1, 2, 3] [2, 3, 4, 5]).refine 1) := by
  refine ⟨by decide +kernel, by decide +kernel, .swap _ _ _, fun ⟨vertex, cell, h⟩ => ?_⟩
  have hsame := h.toCopies.places_eq
  have hfirst : Point.xyz 1 (-1) 1 ∈
      ((pair [leftBrick, rightBrick] [0, 1, 2, 3] [2, 3, 4, 5]).refine 1).places :=
    ⟨19, by decide +kernel, Point.ext_get (by decide +kernel)⟩
  rw [← hsame] at hfirst
  obtain ⟨v, hv, hplace⟩ := hfirst
  have hother : ∀ v < 45, ¬∀ axis,
      (((pair [rightBrick, leftBrick] [0, 1, 2, 3] [2, 3, 4, 5]).refine 1).position v).coords.get
        axis = (Point.xyz 1 (-1) 1 : Point ℚ 3).coords.get axis := by
    decide +kernel
  have hsize : ((pair [rightBrick, leftBrick] [0, 1, 2, 3] [2, 3, 4, 5]).refine 1).vertices.size =
      45 := by decide +kernel
  exact hother v (hsize ▸ hv) fun axis => by rw [hplace]

end Mesh
end HexMesh
