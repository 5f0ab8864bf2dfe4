import HexMesh.Proofs.Geometry.Average
import HexMesh.Proofs.Identification.Deduplication
import HexMesh.Proofs.Mesh.Relabeling
import HexMesh.Proofs.Refinement.Boundary

/-!
Recognizing a refined mesh.

Refinement numbers its vertices in the order in which it meets them.  `Mesh.Halves` says
without these numbers that a mesh is the refinement of another one: each vertex belongs to
one site, the key of the piece in whose middle it lies, and each cell is a child of one
cell.  A mesh that halves another one is its refinement under other numbers.  The first
case is the refinement of a mesh under other numbers, so that refining keeps meshes alike.
-/

namespace HexMesh

open HexMesh.Cube

variable {K : Type} {d : Nat}

namespace Mesh

variable {m m' fine : Mesh K d} {vertex cell : Nat → Nat} {k : Key}

/-! ## Sites -/

/-- The keys that have a vertex in the refined mesh: each old vertex alone, and the pieces
with more than one corner. -/
def sites (m : Mesh K d) : Set Key :=
  {k | (∃ v < m.vertices.size, k = [v]) ∨ m.IsPiece k ∧ 1 < k.length}

/-- The site of a vertex of the refined mesh. -/
def site (m : Mesh K d) (v : Nat) : Key :=
  if v < m.vertices.size then [v] else m.newKeys.keys.getD (v - m.vertices.size) []

theorem IsPiece.mem_sites (h : m.IsPiece k) (hm : m.CellsValid) : k ∈ m.sites := by
  rcases h.singleton_or_length with ⟨v, rfl⟩ | hlength
  · exact Or.inl ⟨v, h.lt_size hm v List.mem_cons_self, rfl⟩
  · exact Or.inr ⟨h, hlength⟩

theorem pairwise_of_mem_sites (h : k ∈ m.sites) : k.Pairwise (· ≤ ·) := by
  rcases h with ⟨v, -, rfl⟩ | ⟨hpiece, -⟩
  · exact List.pairwise_singleton _ v
  · exact hpiece.pairwise

theorem lt_of_mem_sites (h : k ∈ m.sites) (hm : m.CellsValid) : ∀ v ∈ k, v < m.vertices.size := by
  rcases h with ⟨v, hv, rfl⟩ | ⟨hpiece, -⟩
  · intro w hw
    rw [List.mem_singleton.mp hw]
    exact hv
  · exact hpiece.lt_size hm

/-- Where every vertex is used, sites are pieces. -/
theorem mem_sites_iff (hm : m.CellsValid) (hused : m.VerticesUsed) :
    k ∈ m.sites ↔ m.IsPiece k := by
  refine ⟨fun hk => ?_, fun hk => hk.mem_sites hm⟩
  rcases hk with ⟨v, hv, rfl⟩ | ⟨hpiece, -⟩
  · obtain ⟨c, hc, hvc⟩ := hused v hv
    obtain ⟨corner, rfl⟩ := Cell.mem_toList_iff.mp hvc
    exact ⟨c, hc, _, childPoint_lt corner corner, c.latticeKey_self corner⟩
  · exact hpiece

theorem site_middle (h : k ∈ m.sites) : m.site (m.middle k) = k := by
  rcases h with ⟨v, hv, rfl⟩ | ⟨hpiece, hlength⟩
  · rw [middle_singleton, site, if_pos hv]
  · have hstand := m.valid_newKeys.getElem?_number (mem_newKeys.mpr ⟨hpiece, hlength⟩)
    rw [middle_of_length hlength, site, if_neg (Nat.not_lt.mpr (Nat.le_add_right _ _)),
      Nat.add_sub_cancel_left, Array.getD_eq_getD_getElem?, hstand]
    rfl

/-! ## Sites of a copy -/

theorem Copies.exists_cell (h : m.Copies m' vertex cell) {c' : Cell d} (hc' : c' ∈ m'.cells) :
    ∃ c ∈ m.cells, c' = c.map vertex := by
  obtain ⟨i', hi'⟩ := List.mem_iff_getElem?.mp hc'
  obtain ⟨i, hi, rfl⟩ := h.cells.surjOn (List.getElem?_eq_some_iff.mp hi').1
  rw [h.corners i hi, Option.map_eq_some_iff] at hi'
  obtain ⟨c, hc, rfl⟩ := hi'
  exact ⟨c, List.mem_of_getElem? hc, rfl⟩

theorem Copies.map_mem (h : m.Copies m' vertex cell) {c : Cell d} (hc : c ∈ m.cells) :
    c.map vertex ∈ m'.cells := by
  obtain ⟨i, hi⟩ := List.mem_iff_getElem?.mp hc
  have hcorners := h.corners i (List.getElem?_eq_some_iff.mp hi).1
  rw [hi] at hcorners
  exact List.mem_of_getElem? hcorners

theorem Copies.isPiece_iff (h : m.Copies m' vertex cell) {k' : Key} :
    m'.IsPiece k' ↔ ∃ k, m.IsPiece k ∧ k' = Key.ofList (k.map vertex) := by
  constructor
  · intro hk'
    obtain ⟨c', hc', p, hp, rfl⟩ := hk'
    obtain ⟨c, hc, rfl⟩ := h.exists_cell hc'
    exact ⟨_, ⟨c, hc, p, hp, rfl⟩, c.latticeKey_map vertex p⟩
  · intro hk'
    obtain ⟨_, ⟨c, hc, p, hp, rfl⟩, rfl⟩ := hk'
    exact ⟨_, h.map_mem hc, p, hp, c.latticeKey_map vertex p⟩

theorem Copies.bijOn_sites (h : m.Copies m' vertex cell) (hm : m.CellsValid) :
    Set.BijOn (fun k => Key.ofList (k.map vertex)) m.sites m'.sites := by
  have hlength (k : Key) : (Key.ofList (k.map vertex)).length = k.length := by
    rw [Key.length_ofList, List.length_map]
  refine ⟨fun k hk => ?_, fun k hk l hl he => ?_, fun k' hk' => ?_⟩
  · rcases hk with ⟨v, hv, rfl⟩ | ⟨hpiece, hlong⟩
    · exact Or.inl ⟨vertex v, h.vertices.mapsTo hv, rfl⟩
    · exact Or.inr ⟨h.isPiece_iff.mpr ⟨k, hpiece, rfl⟩, by rwa [hlength]⟩
  · exact Key.ofList_map_inj h.vertices.injOn (pairwise_of_mem_sites hk)
      (pairwise_of_mem_sites hl) (lt_of_mem_sites hk hm) (lt_of_mem_sites hl hm) he
  · rcases hk' with ⟨v', hv', rfl⟩ | ⟨hpiece, hlong⟩
    · obtain ⟨v, hv, rfl⟩ := h.vertices.surjOn hv'
      exact ⟨[v], Or.inl ⟨v, hv, rfl⟩, rfl⟩
    · obtain ⟨k, hk, rfl⟩ := h.isPiece_iff.mp hpiece
      exact ⟨k, Or.inr ⟨hk, by rwa [hlength] at hlong⟩, rfl⟩

section Refined

variable [Scalar K]

theorem site_mem {v : Nat} (hv : v < m.refineOnce.vertices.size) :
    m.site v ∈ m.sites ∧ m.middle (m.site v) = v := by
  by_cases hold : v < m.vertices.size
  · rw [site, if_pos hold]
    exact ⟨Or.inl ⟨v, hold, rfl⟩, m.middle_singleton v⟩
  · obtain ⟨i, rfl⟩ := Nat.exists_eq_add_of_le (Nat.not_lt.mp hold)
    rw [size_refineOnce] at hv
    have hi : i < m.newKeys.keys.size := Nat.lt_of_add_lt_add_left hv
    have hstand : m.newKeys.keys[i]? = some m.newKeys.keys[i] := Array.getElem?_eq_getElem hi
    have hpiece := mem_newKeys.mp (Array.getElem_mem hi)
    rw [site, if_neg hold, Nat.add_sub_cancel_left, Array.getD_eq_getD_getElem?, hstand,
      Option.getD_some, middle_of_length hpiece.2, m.valid_newKeys.number_eq hstand]
    exact ⟨Or.inr hpiece, rfl⟩

theorem mapsTo_middle (hm : m.CellsValid) :
    Set.MapsTo m.middle m.sites (Set.Iio m.refineOnce.vertices.size) := by
  intro k hk
  rcases hk with ⟨v, hv, rfl⟩ | ⟨hpiece, -⟩
  · show v < m.refineOnce.vertices.size
    rw [size_refineOnce]
    exact Nat.lt_add_right _ hv
  · exact middle_lt hm hpiece

theorem bijOn_middle_sites (hm : m.CellsValid) :
    Set.BijOn m.middle m.sites (Set.Iio m.refineOnce.vertices.size) :=
  Set.InvOn.bijOn ⟨fun _ => site_middle, fun _ hv => (site_mem hv).2⟩ (mapsTo_middle hm)
    fun _ hv => (site_mem hv).1

theorem bijOn_site (hm : m.CellsValid) :
    Set.BijOn m.site (Set.Iio m.refineOnce.vertices.size) m.sites :=
  Set.InvOn.bijOn ⟨fun _ hv => (site_mem hv).2, fun _ => site_middle⟩ (fun _ hv => (site_mem hv).1)
    (mapsTo_middle hm)

end Refined

/-! ## Meshes with halved cells -/

variable [Field K] [LinearOrder K]

/-- Without shapes every vertex of the refined mesh is the mean of its site. -/
theorem position_middle (hshapes : m.shapes = ∅) (hk : k ∈ m.sites) :
    m.refineOnce.position (m.middle k) = Point.average (k.map m.position) := by
  rcases hk with ⟨v, hv, rfl⟩ | ⟨hpiece, hlength⟩
  · rw [middle_singleton, position, getElem?_vertices_refineOnce hv, List.map_singleton,
      Point.average_singleton]
    rfl
  · rw [position, getElem?_middle hpiece hlength, newPosition_of_flat hshapes]
    rfl

/-- The cells of the second mesh are the children of those of the first one, and each of its
vertices lies in the middle of its site.  Cell `j` is child `child j` of cell `parent j`. -/
structure Halves (m fine : Mesh K d) (site : Nat → Key) (parent : Nat → Nat)
    (child : Nat → Corner d) : Prop where
  sites : Set.BijOn site (Set.Iio fine.vertices.size) m.sites
  position : ∀ u < fine.vertices.size, fine.position u = Point.average ((site u).map m.position)
  cells : Set.BijOn (fun j => parent j * cornerCount d + child j) (Set.Iio fine.cells.length)
    (Set.Iio (m.cells.length * cornerCount d))
  corners : ∀ j c', fine.cells[j]? = some c' → ∃ c, m.cells[parent j]? = some c ∧
    ∀ v, site (c'.get v) = c.latticeKey (childPoint (child j) v)
  boundary : ∀ b ∈ fine.boundaryFaces, onFace b.face (child b.cell) = true ∧
    ⟨⟨parent b.cell, b.face⟩, b.indicator⟩ ∈ m.boundaryFaces
  shapes : fine.shapes = m.shapes

variable {site : Nat → Key} {parent : Nat → Nat} {child : Nat → Corner d}

theorem Halves.copies (h : m.Halves fine site parent child) (hm : m.CellsValid)
    (hshapes : m.shapes = ∅) :
    fine.Copies m.refineOnce (m.middle ∘ site) fun j => parent j * cornerCount d + child j where
  vertices := (bijOn_middle_sites hm).comp h.sites
  position u hu := by
    have hsite := h.sites.mapsTo hu
    rw [Function.comp_apply, position_eq (mapsTo_middle hm hsite), position_middle hshapes hsite,
      ← h.position u hu, position_eq hu]
  cells := by
    rw [m.length_cells_refineOnce]
    exact h.cells
  corners j hj := by
    obtain ⟨c, hc, hsites⟩ := h.corners j _ (List.getElem?_eq_getElem hj)
    rw [getElem?_cells_refineOnce, hc, List.getElem?_eq_getElem hj, Option.map_some,
      Option.map_some, Option.some_inj]
    refine Vector.ext fun i hi => ?_
    have hcorner := m.get_childCell c (child j) ⟨i, hi⟩
    rw [← hsites ⟨i, hi⟩] at hcorner
    rw [Vector.getElem_map]
    exact hcorner
  shapes := h.shapes.symm

/-- A mesh that halves another one is its refinement under other numbers. -/
theorem Halves.relabels (h : m.Halves fine site parent child) (hd : d ≤ 3) (hm : m.Regular)
    (hfine : fine.CellsValid) (hshapes : m.shapes = ∅) :
    fine.Relabels m.refineOnce (m.middle ∘ site) fun j => parent j * cornerCount d + child j := by
  refine (h.copies hm.valid hshapes).relabels_of_boundaryFaces hfine fun b hb => ?_
  obtain ⟨hon, hparent⟩ := h.boundary b hb
  exact (mem_boundaryFaces_refineOnce hm.valid hm.distinct (hm.piecesConform hd)).mpr
    ⟨_, hparent, child b.cell, hon, rfl⟩

/-! ## Refining meshes that are alike -/

/-- The refinement of a mesh halves every mesh that is alike. -/
theorem Relabels.halves (h : m.Relabels m' vertex cell) (hd : d ≤ 3) (hm : m.Regular)
    (hshapes : m.shapes = ∅) :
    m'.Halves m.refineOnce (fun u => Key.ofList ((m.site u).map vertex))
      (fun j => cell (j / cornerCount d))
      fun j => ⟨j % cornerCount d, Nat.mod_lt _ (Nat.two_pow_pos d)⟩ := by
  have hparent (i : Nat) (v : Corner d) : (i * cornerCount d + v) / cornerCount d = i :=
    block_div v.isLt
  have hchild (i : Nat) (v : Corner d) : (⟨(i * cornerCount d + v) % cornerCount d,
      Nat.mod_lt _ (Nat.two_pow_pos d)⟩ : Corner d) = v := Fin.ext (Nat.mul_add_mod_of_lt v.isLt)
  refine ⟨(h.bijOn_sites hm.valid).comp (bijOn_site hm.valid), fun u hu => ?_, ?_,
    fun j c' hc' => ?_, fun b hb => ?_, h.shapes.symm⟩
  · obtain ⟨hsite, hmiddle⟩ := site_mem hu
    have hmap : (m.site u).map m.position = ((m.site u).map vertex).map m'.position := by
      rw [List.map_map]
      exact List.map_congr_left fun v hv =>
        (h.position_vertex (lt_of_mem_sites hsite hm.valid v hv)).symm
    rw [← hmiddle, position_middle hshapes hsite, hmiddle, hmap]
    exact Point.average_perm ((Key.ofList_perm _).map _).symm
  · rw [m.length_cells_refineOnce]
    exact bijOn_blocks h.cells
  · obtain ⟨i, w, c, hc, rfl, rfl⟩ := exists_childCell hc'
    refine ⟨c.map vertex, ?_, fun v => ?_⟩
    · rw [hparent, h.corners _ (List.getElem?_eq_some_iff.mp hc).1, hc]
      rfl
    · have hpiece := isPiece_latticeKey (List.mem_of_getElem? hc) w v
      rw [hchild, get_childCell, site_middle (hpiece.mem_sites hm.valid), Cell.latticeKey_map]
  · obtain ⟨f, hf, v, hv, rfl⟩ :=
      (mem_boundaryFaces_refineOnce hm.valid hm.distinct (hm.piecesConform hd)).mp hb
    refine ⟨(congrArg (onFace f.face) (hchild f.cell v)).trans hv, ?_⟩
    exact (h.boundary _).mpr ⟨f, hf, congrArg (fun i => (⟨⟨cell i, f.face⟩, f.indicator⟩ :
      BoundaryFace)) (hparent f.cell v)⟩

theorem Alike.refineOnce (h : m.Alike m') (hd : d ≤ 3) (hm : m.Regular) (hm' : m'.Regular)
    (hshapes : m.shapes = ∅) : m.refineOnce.Alike m'.refineOnce := by
  obtain ⟨_, _, h⟩ := h
  exact ⟨_, _, (h.halves hd hm hshapes).relabels hd hm' hm.refineOnce.valid
    (h.shapes.trans hshapes)⟩

end Mesh
end HexMesh
