import HexMesh.Proofs.Identification.Renumbering
import Mathlib.Data.Set.Function
import Mathlib.Order.Interval.Set.Defs

/-!
Meshes that agree up to the numbers of their vertices and cells.

`Mesh.Copies` is what two such meshes have in common without looking at indicators: one
bijection renames the vertices, which keep their places, another one renames the cells,
which keep the order of their corners.  Keys are then renamed one to one, so faces that
are alone with their key stay alone and the boundary is copied as well.  All that is left
to compare for `Mesh.Relabels` is the indicators there.

Where different vertices lie at different places, the places tell how vertices are renamed.
-/

namespace HexMesh

variable {K : Type} {d : Nat}

/-- The same face under another number of its cell. -/
def FaceRef.relabel (r : FaceRef) (cell : Nat → Nat) : FaceRef := ⟨cell r.cell, r.face⟩

def BoundaryFace.relabel (b : BoundaryFace) (cell : Nat → Nat) : BoundaryFace :=
  { b.toFaceRef.relabel cell with indicator := b.indicator }

/-- A key is recovered from its new name when different vertices have different new names. -/
theorem Key.ofList_map_inj {f : Nat → Nat} {s : Set Nat} (hf : Set.InjOn f s) {k l : Key}
    (hk : k.Pairwise (· ≤ ·)) (hl : l.Pairwise (· ≤ ·)) (hks : ∀ v ∈ k, v ∈ s)
    (hls : ∀ v ∈ l, v ∈ s) (h : ofList (k.map f) = ofList (l.map f)) : k = l := by
  have hback : ∀ vs : List Nat, (∀ v ∈ vs, v ∈ s) →
      (vs.map f).map (Function.invFunOn f s) = vs := by
    intro vs hvs
    rw [List.map_map]
    refine (List.map_congr_left fun v hv => ?_).trans (List.map_id vs)
    exact hf.leftInvOn_invFunOn (hvs v hv)
  have hperm := (ofList_eq_ofList.mp h).map (Function.invFunOn f s)
  rw [hback k hks, hback l hls] at hperm
  exact hperm.eq_of_pairwise (fun _ _ _ _ => Nat.le_antisymm) hk hl

namespace Mesh

variable {m m' m'' : Mesh K d} {vertex vertex' cell cell' : Nat → Nat}

/-- The second mesh has the vertices and the cells of the first one under other numbers. -/
structure Copies (m m' : Mesh K d) (vertex cell : Nat → Nat) : Prop where
  vertices : Set.BijOn vertex (Set.Iio m.vertices.size) (Set.Iio m'.vertices.size)
  position : ∀ v < m.vertices.size, m'.vertices[vertex v]? = m.vertices[v]?
  cells : Set.BijOn cell (Set.Iio m.cells.length) (Set.Iio m'.cells.length)
  corners : ∀ i < m.cells.length, m'.cells[cell i]? = m.cells[i]?.map (·.map vertex)
  shapes : m'.shapes = m.shapes

/-- The second mesh is the first one under other numbers: vertex `v` is called `vertex v`
and cell `i` is called `cell i`.  Each vertex has its position, each cell its corners in
their order, and the faces on the boundary are the same and have their indicators. -/
structure Relabels (m m' : Mesh K d) (vertex cell : Nat → Nat) : Prop extends
    Copies m m' vertex cell where
  boundary : ∀ b', b' ∈ m'.boundaryFaces ↔ ∃ b ∈ m.boundaryFaces, b' = b.relabel cell

/-- The meshes are the same up to the numbers of vertices and cells. -/
def Alike (m m' : Mesh K d) : Prop := ∃ vertex cell, m.Relabels m' vertex cell

/-! ## The boundary of a copy -/

theorem Copies.hasFace_iff (h : m.Copies m' vertex cell) {r' : FaceRef} {k' : Key} :
    m'.HasFace r' k' ↔
      ∃ r k, m.HasFace r k ∧ r' = r.relabel cell ∧ k' = Key.ofList (k.map vertex) := by
  constructor
  · intro hface
    obtain ⟨c', hc', hlt, rfl⟩ := hface
    obtain ⟨i, hi, hcell⟩ := h.cells.surjOn (List.getElem?_eq_some_iff.mp hc').1
    rw [← hcell, h.corners i hi, Option.map_eq_some_iff] at hc'
    obtain ⟨c, hc, rfl⟩ := hc'
    refine ⟨⟨i, r'.face⟩, _, ⟨c, hc, hlt, rfl⟩, ?_, c.faceKey_map vertex r'.face⟩
    rw [FaceRef.relabel, hcell]
  · intro hface
    obtain ⟨r, k, ⟨c, hc, hlt, rfl⟩, rfl, rfl⟩ := hface
    refine ⟨c.map vertex, ?_, hlt, c.faceKey_map vertex r.face⟩
    show m'.cells[cell r.cell]? = _
    rw [h.corners _ (List.getElem?_eq_some_iff.mp hc).1, hc]
    rfl

theorem Copies.relabel_inj (h : m.Copies m' vertex cell) {r s : FaceRef} {k l : Key}
    (hr : m.HasFace r k) (hs : m.HasFace s l) (he : r.relabel cell = s.relabel cell) : r = s := by
  obtain ⟨hcell, hface⟩ := FaceRef.mk.inj he
  obtain ⟨i, f⟩ := r
  obtain ⟨j, g⟩ := s
  rw [FaceRef.mk.injEq]
  exact ⟨h.cells.injOn hr.cell_lt hs.cell_lt hcell, hface⟩

theorem Copies.key_inj (h : m.Copies m' vertex cell) (hm : m.CellsValid) {r s : FaceRef}
    {k l : Key} (hr : m.HasFace r k) (hs : m.HasFace s l)
    (he : Key.ofList (k.map vertex) = Key.ofList (l.map vertex)) : k = l :=
  Key.ofList_map_inj h.vertices.injOn hr.pairwise hs.pairwise (hr.lt_size hm) (hs.lt_size hm) he

/-- The faces on the boundary of a copy are the copies of faces on the boundary. -/
theorem Copies.isOuter_iff (h : m.Copies m' vertex cell) (hm : m.CellsValid) {r' : FaceRef}
    {k' : Key} :
    m'.IsOuter r' k' ↔
      ∃ r k, m.IsOuter r k ∧ r' = r.relabel cell ∧ k' = Key.ofList (k.map vertex) := by
  constructor
  · intro houter
    obtain ⟨r, k, hr, rfl, rfl⟩ := h.hasFace_iff.mp houter.1
    refine ⟨r, k, ⟨hr, fun s hs => ?_⟩, rfl, rfl⟩
    exact h.relabel_inj hs hr (houter.2 _ (h.hasFace_iff.mpr ⟨s, k, hs, rfl, rfl⟩))
  · intro houter
    obtain ⟨r, k, hr, rfl, rfl⟩ := houter
    refine ⟨h.hasFace_iff.mpr ⟨r, k, hr.1, rfl, rfl⟩, fun s' hs' => ?_⟩
    obtain ⟨s, l, hs, rfl, hkey⟩ := h.hasFace_iff.mp hs'
    have hkl := h.key_inj hm hr.1 hs hkey
    subst hkl
    rw [hr.2 s hs]

/-- It is enough to compare the indicators on the boundary key by key. -/
theorem Copies.relabels (h : m.Copies m' vertex cell) (hm : m.CellsValid)
    (hindicator : ∀ r k, m.IsOuter r k →
      m'.indicator (Key.ofList (k.map vertex)) = m.indicator k) : m.Relabels m' vertex cell := by
  refine ⟨h, fun b' => ?_⟩
  rw [mem_boundaryFaces]
  constructor
  · intro hb'
    obtain ⟨k', houter, hid⟩ := hb'
    obtain ⟨r, k, hr, href, rfl⟩ := (h.isOuter_iff hm).mp houter
    rw [hindicator r k hr] at hid
    refine ⟨⟨r, b'.indicator⟩, mem_boundaryFaces.mpr ⟨k, hr, hid⟩, ?_⟩
    rw [BoundaryFace.relabel, ← href]
  · intro hb'
    obtain ⟨b, hb, rfl⟩ := hb'
    obtain ⟨k, houter, hid⟩ := mem_boundaryFaces.mp hb
    refine ⟨_, (h.isOuter_iff hm).mpr ⟨_, k, houter, rfl, rfl⟩, ?_⟩
    rw [hindicator _ k houter]
    exact hid

/-- It is enough to find each face of the boundary again, with its indicator. -/
theorem Copies.relabels_of_boundaryFaces (h : m.Copies m' vertex cell) (hm : m.CellsValid)
    (hboundary : ∀ b ∈ m.boundaryFaces, b.relabel cell ∈ m'.boundaryFaces) :
    m.Relabels m' vertex cell := by
  refine h.relabels hm fun r k hr => ?_
  have hb := hboundary ⟨r, m.indicator k⟩ (mem_boundaryFaces.mpr ⟨k, hr, rfl⟩)
  have houter := (h.isOuter_iff hm).mpr ⟨r, k, hr, rfl, rfl⟩
  have hcopy : ⟨r.relabel cell, m'.indicator (Key.ofList (k.map vertex))⟩ ∈ m'.boundaryFaces :=
    mem_boundaryFaces.mpr ⟨_, houter, rfl⟩
  exact indicator_eq_of_mem_boundaryFaces hcopy hb rfl

/-! ## Vertices known by their places -/

section Places

variable [Scalar K]

/-- Different vertices lie at different places. -/
def PlacesDistinct (m : Mesh K d) : Prop := Set.InjOn m.position (Set.Iio m.vertices.size)

/-- The places at which there is a vertex. -/
def places (m : Mesh K d) : Set (Point K d) := m.position '' Set.Iio m.vertices.size

theorem position_mem_places {v : Nat} (hv : v < m.vertices.size) : m.position v ∈ m.places :=
  Set.mem_image_of_mem _ hv

theorem Copies.position_vertex (h : m.Copies m' vertex cell) {v : Nat}
    (hv : v < m.vertices.size) : m'.position (vertex v) = m.position v := by
  rw [Mesh.position, h.position v hv]
  rfl

theorem Copies.places_eq (h : m.Copies m' vertex cell) : m'.places = m.places := by
  refine Set.Subset.antisymm ?_ ?_
  · rintro p ⟨v', hv', rfl⟩
    obtain ⟨v, hv, rfl⟩ := h.vertices.surjOn hv'
    exact h.position_vertex hv ▸ position_mem_places hv
  · rintro p ⟨v, hv, rfl⟩
    exact h.position_vertex hv ▸ position_mem_places (h.vertices.mapsTo hv)

/-- Meshes with the same places and with corresponding cells at the same places are copies. -/
theorem exists_copies (hm : m.CellsValid) (hm' : m'.CellsValid) (hdistinct : m.PlacesDistinct)
    (hdistinct' : m'.PlacesDistinct) (hplaces : m.places = m'.places)
    (hcells : Set.BijOn cell (Set.Iio m.cells.length) (Set.Iio m'.cells.length))
    (hcorners : ∀ i c, m.cells[i]? = some c → ∃ c', m'.cells[cell i]? = some c' ∧
      ∀ v, m'.position (c'.get v) = m.position (c.get v))
    (hshapes : m'.shapes = m.shapes) : ∃ vertex, m.Copies m' vertex cell := by
  have hbij : Set.BijOn m.position (Set.Iio m.vertices.size) m.places := hdistinct.bijOn_image
  have hbij' : Set.BijOn m'.position (Set.Iio m'.vertices.size) m.places :=
    hplaces ▸ hdistinct'.bijOn_image
  let vertex : Nat → Nat := fun v =>
    Function.invFunOn m'.position (Set.Iio m'.vertices.size) (m.position v)
  have hvertex : Set.BijOn vertex (Set.Iio m.vertices.size) (Set.Iio m'.vertices.size) :=
    ((Set.bijOn_comm hbij'.invOn_invFunOn).mpr hbij').comp hbij
  have hposition {v : Nat} (hv : v < m.vertices.size) : m'.position (vertex v) = m.position v :=
    hbij'.invOn_invFunOn.2 (position_mem_places hv)
  refine ⟨vertex, hvertex, fun v hv => ?_, hcells, fun i hi => ?_, hshapes⟩
  · rw [position_eq (hvertex.mapsTo hv), hposition hv, position_eq hv]
  · have hc := List.getElem?_eq_getElem hi
    obtain ⟨c', hc', hplace⟩ := hcorners i _ hc
    rw [hc', hc, Option.map_some, Option.some_inj]
    refine Vector.ext fun j hj => ?_
    have hv := hm _ (List.getElem_mem hi) _ (Cell.get_mem _ (⟨j, hj⟩ : Cube.Corner d))
    have hv' := hm' c' (List.mem_of_getElem? hc') _ (Cell.get_mem c' (⟨j, hj⟩ : Cube.Corner d))
    rw [Vector.getElem_map]
    exact hdistinct' hv' (hvertex.mapsTo hv) ((hplace ⟨j, hj⟩).trans (hposition hv).symm)

end Places

/-! ## Being alike -/

theorem cells_map_map (c : Option (Cell d)) (f g : Nat → Nat) :
    (c.map (·.map f)).map (·.map g) = c.map (·.map (g ∘ f)) := by
  rw [Option.map_map]
  exact congrArg (fun h => Option.map h c) (funext fun c => Vector.map_map)

theorem Copies.trans (h : m.Copies m' vertex cell) (h' : m'.Copies m'' vertex' cell') :
    m.Copies m'' (vertex' ∘ vertex) (cell' ∘ cell) where
  vertices := h'.vertices.comp h.vertices
  position v hv := (h'.position _ (h.vertices.mapsTo hv)).trans (h.position v hv)
  cells := h'.cells.comp h.cells
  corners i hi := by
    rw [Function.comp_apply, h'.corners _ (h.cells.mapsTo hi), h.corners i hi, cells_map_map]
  shapes := h'.shapes.trans h.shapes

theorem Relabels.trans (h : m.Relabels m' vertex cell) (h' : m'.Relabels m'' vertex' cell') :
    m.Relabels m'' (vertex' ∘ vertex) (cell' ∘ cell) := by
  refine ⟨h.toCopies.trans h'.toCopies, fun b'' => ?_⟩
  rw [h'.boundary]
  constructor
  · intro hb''
    obtain ⟨b', hb', rfl⟩ := hb''
    obtain ⟨b, hb, rfl⟩ := (h.boundary b').mp hb'
    exact ⟨b, hb, rfl⟩
  · intro hb''
    obtain ⟨b, hb, rfl⟩ := hb''
    exact ⟨b.relabel cell, (h.boundary _).mpr ⟨b, hb, rfl⟩, rfl⟩

theorem Copies.symm (h : m.Copies m' vertex cell) (hm : m.CellsValid) :
    m'.Copies m (Function.invFunOn vertex (Set.Iio m.vertices.size))
      (Function.invFunOn cell (Set.Iio m.cells.length)) := by
  have hvertices := h.vertices.invOn_invFunOn
  have hcells := h.cells.invOn_invFunOn
  have hvertex := h.vertices.surjOn.mapsTo_invFunOn
  have hcell := h.cells.surjOn.mapsTo_invFunOn
  refine ⟨(Set.bijOn_comm hvertices).mpr h.vertices, fun v hv => ?_,
    (Set.bijOn_comm hcells).mpr h.cells, fun i hi => ?_, h.shapes.symm⟩
  · rw [← h.position _ (hvertex hv), hvertices.2 hv]
  · have hi' := hcell hi
    obtain ⟨c, hc⟩ : ∃ c, m.cells[Function.invFunOn cell (Set.Iio m.cells.length) i]? = some c :=
      ⟨_, List.getElem?_eq_getElem hi'⟩
    have hcorners := h.corners _ hi'
    rw [hcells.2 hi, hc] at hcorners
    rw [hcorners, hc, cells_map_map, Option.map_some, Option.some_inj]
    refine Vector.ext fun j hj => ?_
    rw [Vector.getElem_map]
    exact (hvertices.1 (hm c (List.mem_of_getElem? hc) _ (Vector.mem_toList_iff.mpr
      (Vector.getElem_mem hj)))).symm

theorem Relabels.symm (h : m.Relabels m' vertex cell) (hm : m.CellsValid) :
    m'.Relabels m (Function.invFunOn vertex (Set.Iio m.vertices.size))
      (Function.invFunOn cell (Set.Iio m.cells.length)) := by
  have hback : ∀ b ∈ m.boundaryFaces,
      (b.relabel cell).relabel (Function.invFunOn cell (Set.Iio m.cells.length)) = b := by
    intro b hb
    have hinv := h.cells.invOn_invFunOn.1 (show b.cell ∈ Set.Iio m.cells.length from
      cell_lt_of_mem_boundaryFaces hb)
    show BoundaryFace.mk ⟨Function.invFunOn cell _ (cell b.cell), b.face⟩ b.indicator = b
    rw [hinv]
  refine ⟨h.toCopies.symm hm, fun b => ⟨fun hb => ?_, fun hb => ?_⟩⟩
  · exact ⟨_, (h.boundary _).mpr ⟨b, hb, rfl⟩, (hback b hb).symm⟩
  · obtain ⟨b', hb', rfl⟩ := hb
    obtain ⟨b, hb, rfl⟩ := (h.boundary b').mp hb'
    rw [hback b hb]
    exact hb

theorem copies_id (hvertices : m'.vertices = m.vertices) (hcells : m'.cells = m.cells)
    (hshapes : m'.shapes = m.shapes) : m.Copies m' id id where
  vertices := hvertices ▸ Set.bijOn_id _
  position _ _ := congrArg (·[_]?) hvertices
  cells := hcells ▸ Set.bijOn_id _
  corners i _ := by
    rw [id, hcells]
    cases m.cells[i]? with
    | none => rfl
    | some c => exact congrArg some (Vector.map_id c).symm
  shapes := hshapes

theorem Alike.refl (m : Mesh K d) : m.Alike m :=
  ⟨id, id, copies_id rfl rfl rfl, fun b => ⟨fun hb => ⟨b, hb, rfl⟩, fun ⟨_, hb, he⟩ => he ▸ hb⟩⟩

theorem Alike.trans (h : m.Alike m') (h' : m'.Alike m'') : m.Alike m'' := by
  obtain ⟨_, _, h⟩ := h
  obtain ⟨_, _, h'⟩ := h'
  exact ⟨_, _, h.trans h'⟩

theorem Alike.symm (h : m.Alike m') (hm : m.CellsValid) : m'.Alike m := by
  obtain ⟨_, _, h⟩ := h
  exact ⟨_, _, h.symm hm⟩

end Mesh
end HexMesh
