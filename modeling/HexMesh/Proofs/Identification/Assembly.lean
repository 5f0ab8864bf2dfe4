import HexMesh.Proofs.Identification.Places
import HexMesh.Proofs.Mesh.Constructions
import HexMesh.Proofs.Number.Rational

/-!
Gluing several meshes together, one after the other.

What is glued first may be glued with less tolerance than what is glued last, and
indicators are forgotten on the way.  Where the tolerances tell the places apart, none of
this shows in the end.  A mesh that was glued stands for the meshes side by side that it was
made of (`Mesh.Contracts`): its vertices are at their places, its cells are theirs, and its
boundary is a part of theirs.  This goes through further gluing, and once every place has
one vertex only, nothing is left to choose.
-/

namespace HexMesh

/-- The number of a member of a list when its first `m` members change places with the `n`
others. -/
def exchanged (m n i : Nat) : Nat := if i < m then n + i else i - m

theorem exchanged_of_lt {m n i : Nat} (h : i < m) : exchanged m n i = n + i := if_pos h

theorem exchanged_add (m n i : Nat) : exchanged m n (m + i) = i := by
  rw [exchanged, if_neg (Nat.not_lt.mpr (Nat.le_add_right m i)), Nat.add_sub_cancel_left]

theorem bijOn_exchanged (m n : Nat) :
    Set.BijOn (exchanged m n) (Set.Iio (m + n)) (Set.Iio (n + m)) := by
  have hmaps (m n : Nat) : Set.MapsTo (exchanged m n) (Set.Iio (m + n)) (Set.Iio (n + m)) := by
    intro i hi
    rw [Set.mem_Iio] at hi ⊢
    unfold exchanged
    split <;> omega
  have hback (m n : Nat) : Set.LeftInvOn (exchanged n m) (exchanged m n) (Set.Iio (m + n)) := by
    intro i hi
    rcases Nat.lt_or_ge i m with hlt | hge
    · rw [exchanged_of_lt hlt, exchanged_add]
    · obtain ⟨j, rfl⟩ := Nat.exists_eq_add_of_le hge
      rw [Set.mem_Iio] at hi
      rw [exchanged_add, exchanged_of_lt (by omega)]
  exact Set.InvOn.bijOn ⟨hback m n, hback n m⟩ (hmaps m n) (hmaps n m)

/-- Two maps of numbers side by side, the second one behind the first `m` numbers and their `n`
images. -/
def beside (f g : Nat → Nat) (m n i : Nat) : Nat := if i < m then f i else g (i - m) + n

section Beside

variable {f g : Nat → Nat} {m m' n n' : Nat}

theorem beside_of_lt {i : Nat} (h : i < m) : beside f g m n i = f i := if_pos h

theorem beside_add (i : Nat) : beside f g m n (i + m) = g i + n := by
  rw [beside, if_neg (Nat.not_lt.mpr (Nat.le_add_left m i)), Nat.add_sub_cancel]

theorem mapsTo_beside (hf : Set.MapsTo f (Set.Iio m) (Set.Iio n))
    (hg : Set.MapsTo g (Set.Iio m') (Set.Iio n')) :
    Set.MapsTo (beside f g m n) (Set.Iio (m + m')) (Set.Iio (n + n')) := by
  intro i hi
  rw [Set.mem_Iio] at hi ⊢
  rcases Nat.lt_or_ge i m with hlt | hge
  · rw [beside_of_lt hlt]
    exact Nat.lt_add_right _ (hf hlt)
  · obtain ⟨j, rfl⟩ := Nat.exists_eq_add_of_le' hge
    rw [beside_add, Nat.add_comm]
    exact Nat.add_lt_add_left (hg (show j < m' by omega)) n

theorem surjOn_beside (hf : Set.SurjOn f (Set.Iio m) (Set.Iio n))
    (hg : Set.SurjOn g (Set.Iio m') (Set.Iio n')) :
    Set.SurjOn (beside f g m n) (Set.Iio (m + m')) (Set.Iio (n + n')) := by
  intro j hj
  rw [Set.mem_Iio] at hj
  rcases Nat.lt_or_ge j n with hlt | hge
  · obtain ⟨i, hi, rfl⟩ := hf hlt
    exact ⟨i, Nat.lt_add_right _ hi, beside_of_lt hi⟩
  · obtain ⟨k, rfl⟩ := Nat.exists_eq_add_of_le' hge
    obtain ⟨i, hi, rfl⟩ := hg (show k < n' by omega)
    rw [Set.mem_Iio] at hi
    exact ⟨i + m, show i + m < m + m' by omega, beside_add i⟩

end Beside

namespace Mesh

variable {K : Type} {d : Nat} {a b c m n u v : Mesh K d} {f g vertex cell : Nat → Nat}

/-! ## Meshes side by side -/

/-- The boundary of meshes side by side is the boundary of both. -/
theorem mem_boundaryFaces_append (ha : a.WellFormed) {x : BoundaryFace} :
    x ∈ (a.append b).boundaryFaces ↔
      x ∈ a.boundaryFaces ∨ ∃ y ∈ b.boundaryFaces, x = y.behind a.cells.length := by
  -- The second mesh has its vertices behind those of the first, so no face is a face of both.
  have hdisjoint {r : FaceRef} {k l : Key} (hk : a.HasFace r k) (hne : l ≠ []) :
      k ≠ l.map (· + a.vertices.size) := by
    intro he
    obtain ⟨w, hw⟩ := List.exists_mem_of_ne_nil l hne
    have hlt := hk.lt_size ha.cell_lt _ (he ▸ List.mem_map_of_mem hw)
    exact Nat.not_lt.mpr (Nat.le_add_left _ _) hlt
  refine ⟨boundaryFaces_append ha, ?_⟩
  rintro (hx | ⟨y, hy, rfl⟩)
  · obtain ⟨k, ⟨hface, honly⟩, hindicator⟩ := mem_boundaryFaces.mp hx
    refine mem_boundaryFaces.mpr ⟨k, ⟨hasFace_append.mpr (Or.inl hface), fun s hs => ?_⟩, ?_⟩
    · rcases hasFace_append.mp hs with hs | ⟨t, l, hl, -, he⟩
      · exact honly s hs
      · exact absurd he (hdisjoint hface hl.ne_nil)
    · obtain ⟨w, hw⟩ := hface.exists_mem
      have hold := getElem?_indicators_append_left (b := b)
        ⟨w, hw, hface.lt_size ha.cell_lt w hw⟩
      rw [← hindicator, indicator, indicator, Std.ExtTreeMap.getD_eq_getD_getElem?,
        Std.ExtTreeMap.getD_eq_getD_getElem?, hold]
  · obtain ⟨l, ⟨hface, honly⟩, hindicator⟩ := mem_boundaryFaces.mp hy
    refine mem_boundaryFaces.mpr ⟨l.map (· + a.vertices.size),
      ⟨hasFace_append.mpr (Or.inr ⟨_, l, hface, rfl, rfl⟩), fun s hs => ?_⟩, ?_⟩
    · rcases hasFace_append.mp hs with hs | ⟨t, l', hl', rfl, he⟩
      · exact absurd rfl (hdisjoint hs hface.ne_nil)
      · rw [honly t (Key.shift_injective _ he ▸ hl')]
        rfl
    · have hnone : a.indicators[l.map (· + a.vertices.size)]? = none := by
        refine Std.ExtTreeMap.getElem?_eq_none fun hmem => ?_
        obtain ⟨w, hw⟩ := hface.exists_mem
        exact Nat.not_lt.mpr (Nat.le_add_left _ _) (ha.key_lt _ hmem _ (List.mem_map_of_mem hw))
      rw [indicator, Std.ExtTreeMap.getD_eq_getD_getElem?, getElem?_indicators_append_right hnone,
        ← Std.ExtTreeMap.getD_eq_getD_getElem?]
      exact hindicator

theorem copies_append_comm (ha : a.CellsValid) (hshapes : a.shapes = b.shapes) :
    (a.append b).Copies (b.append a) (exchanged a.vertices.size b.vertices.size)
      (exchanged a.cells.length b.cells.length) where
  vertices := by
    rw [size_vertices_append, size_vertices_append]
    exact bijOn_exchanged _ _
  position v hv := by
    rw [size_vertices_append] at hv
    show (b.vertices ++ a.vertices)[_]? = (a.vertices ++ b.vertices)[v]?
    rcases Nat.lt_or_ge v a.vertices.size with hlt | hge
    · rw [exchanged_of_lt hlt, Array.getElem?_append_right (Nat.le_add_right _ _),
        Nat.add_sub_cancel_left, Array.getElem?_append_left hlt]
    · obtain ⟨w, rfl⟩ := Nat.exists_eq_add_of_le hge
      rw [exchanged_add, Array.getElem?_append_left (by omega), Array.getElem?_append_right hge,
        Nat.add_sub_cancel_left]
  cells := by
    rw [length_cells_append, length_cells_append]
    exact bijOn_exchanged _ _
  corners i hi := by
    obtain ⟨e, he⟩ : ∃ e, (a.append b).cells[i]? = some e := ⟨_, List.getElem?_eq_getElem hi⟩
    rw [he]
    rcases getElem?_cells_append.mp he with hc | ⟨s, c, hc, rfl, rfl⟩
    · have hcell := exchanged_of_lt (n := b.cells.length) (List.getElem?_eq_some_iff.mp hc).1
      refine getElem?_cells_append.mpr (Or.inr ⟨i, e, hc, hcell, ?_⟩)
      refine Vector.map_congr_left fun v hv => ?_
      rw [exchanged_of_lt (ha e (List.mem_of_getElem? hc) v (Vector.mem_toList_iff.mpr hv)),
        Nat.add_comm]
    · rw [exchanged_add]
      refine getElem?_cells_append.mpr (Or.inl (hc.trans (congrArg some ?_)))
      refine Vector.ext fun j hj => ?_
      rw [Vector.getElem_map, Vector.getElem_map, Nat.add_comm, exchanged_add]
  shapes := hshapes.symm

theorem relabels_append_comm (ha : a.WellFormed) (hb : b.WellFormed)
    (hshapes : a.shapes = b.shapes) :
    (a.append b).Relabels (b.append a) (exchanged a.vertices.size b.vertices.size)
      (exchanged a.cells.length b.cells.length) := by
  refine (copies_append_comm ha.cell_lt hshapes).relabels_of_boundaryFaces
    (wellFormed_append ha hb).cell_lt fun x hx => ?_
  rcases (mem_boundaryFaces_append ha).mp hx with hx | ⟨y, hy, rfl⟩
  · refine (mem_boundaryFaces_append hb).mpr (Or.inr ⟨x, hx, ?_⟩)
    rw [BoundaryFace.relabel, FaceRef.relabel, exchanged_of_lt (cell_lt_of_mem_boundaryFaces hx)]
    rfl
  · refine (mem_boundaryFaces_append hb).mpr (Or.inl ?_)
    rw [BoundaryFace.relabel, FaceRef.relabel]
    show BoundaryFace.mk ⟨exchanged _ _ (_ + y.cell), y.face⟩ y.indicator ∈ _
    rw [exchanged_add]
    exact hy

theorem relabels_append_assoc (ha : a.WellFormed) (hb : b.WellFormed) (hc : c.WellFormed) :
    ((a.append b).append c).Relabels (a.append (b.append c)) id id := by
  have hab := wellFormed_append ha hb
  have hvertices : (a.append (b.append c)).vertices = ((a.append b).append c).vertices :=
    Array.append_assoc.symm
  have hcells : (a.append (b.append c)).cells = ((a.append b).append c).cells := by
    show a.cells ++ (b.cells ++ c.cells.map _).map _ = (a.cells ++ b.cells.map _) ++ c.cells.map _
    rw [List.map_append, List.map_map, List.append_assoc]
    congr 2
    refine List.map_congr_left fun e _ => Vector.ext fun j hj => ?_
    rw [Function.comp_apply, Vector.getElem_map, Vector.getElem_map, Vector.getElem_map,
      size_vertices_append]
    omega
  refine (copies_id hvertices hcells rfl).relabels_of_boundaryFaces
    (wellFormed_append hab hc).cell_lt fun x hx => ?_
  refine (mem_boundaryFaces_append ha).mpr ?_
  show x ∈ _ ∨ ∃ y ∈ _, x = _
  rcases (mem_boundaryFaces_append hab).mp hx with hx | ⟨y, hy, rfl⟩
  · refine ((mem_boundaryFaces_append ha).mp hx).imp_right fun ⟨y, hy, he⟩ => ?_
    exact ⟨y, (mem_boundaryFaces_append hb).mpr (Or.inl hy), he⟩
  · refine Or.inr ⟨_, (mem_boundaryFaces_append hb).mpr (Or.inr ⟨y, hy, rfl⟩), ?_⟩
    rw [length_cells_append, BoundaryFace.behind, BoundaryFace.behind, FaceRef.behind,
      Nat.add_assoc]
    rfl

theorem append_empty (a : Mesh K d) : a.append {} = a := by
  have hindicators : (a.append ({} : Mesh K d)).indicators = a.indicators := by
    refine Std.ExtTreeMap.ext_getElem? fun k => ?_
    rw [indicators_append]
    refine KeyMap.getElem?_foldl_insert_of_ne a.indicators fun e he => ?_
    obtain ⟨⟨l, i⟩, hl, rfl⟩ := List.mem_map.mp he
    have hstored := Std.ExtTreeMap.mem_toList_iff_getElem?_eq_some.mp hl
    rw [Std.ExtTreeMap.getElem?_empty] at hstored
    cases hstored
  have hvertices : a.vertices ++ #[] = a.vertices := Array.append_empty
  have hcells : a.cells ++ [] = a.cells := List.append_nil _
  rw [append, Mesh.mk.injEq]
  exact ⟨hvertices, hcells, hindicators, rfl⟩

theorem keysOnFaces_empty : ({} : Mesh K d).KeysOnFaces := fun _ hk =>
  absurd hk Std.ExtTreeMap.not_mem_empty

theorem places_empty [Scalar K] : ({} : Mesh K d).places = ∅ :=
  Set.image_eq_empty.mpr (Set.eq_empty_of_forall_notMem fun v hv => Nat.not_lt_zero v hv)

/-! ## What a mesh is made of -/

/-- The second mesh stands for the first one: some vertices at the same place are made one.  No
face has come to the boundary, and those that are left there have their indicators. -/
structure Contracts [Scalar K] (u m : Mesh K d) (f : Nat → Nat) : Prop where
  cells : m.cells = u.cells.map (·.map f)
  mapsTo : Set.MapsTo f (Set.Iio u.vertices.size) (Set.Iio m.vertices.size)
  surjOn : Set.SurjOn f (Set.Iio u.vertices.size) (Set.Iio m.vertices.size)
  position : ∀ v < u.vertices.size, m.position (f v) = u.position v
  boundary : m.boundaryFaces ⊆ u.boundaryFaces

namespace Contracts

variable [Scalar K]

theorem refl (u : Mesh K d) : u.Contracts u id where
  cells := (List.map_id'' (fun c => Vector.map_id c) _).symm
  mapsTo := Set.mapsTo_id _
  surjOn := Set.surjOn_id _
  position _ _ := rfl
  boundary := List.Subset.refl _

theorem trans (h : u.Contracts m f) (h' : m.Contracts n g) : u.Contracts n (g ∘ f) where
  cells := by
    rw [h'.cells, h.cells, List.map_map]
    exact List.map_congr_left fun c _ => Vector.map_map
  mapsTo := h'.mapsTo.comp h.mapsTo
  surjOn := h'.surjOn.comp h.surjOn
  position v hv := (h'.position _ (h.mapsTo hv)).trans (h.position v hv)
  boundary := List.Subset.trans h'.boundary h.boundary

theorem length_cells (h : u.Contracts m f) : m.cells.length = u.cells.length := by
  rw [h.cells, List.length_map]

/-- Putting meshes side by side does not care what was made one before. -/
theorem append (h : u.Contracts m f) (h' : v.Contracts n g) (hu : u.WellFormed)
    (hm : m.WellFormed) :
    (u.append v).Contracts (m.append n) (beside f g u.vertices.size m.vertices.size) where
  cells := by
    show m.cells ++ n.cells.map _ = (u.cells ++ v.cells.map _).map _
    rw [h.cells, h'.cells, List.map_append, List.map_map, List.map_map]
    congr 1
    · refine List.map_congr_left fun c hc => Vector.map_congr_left fun x hx => ?_
      rw [beside_of_lt (hu.cell_lt c hc x (Vector.mem_toList_iff.mpr hx))]
    · refine List.map_congr_left fun c _ => Vector.ext fun j hj => ?_
      rw [Function.comp_apply, Function.comp_apply, Vector.getElem_map, Vector.getElem_map,
        Vector.getElem_map, Vector.getElem_map, beside_add]
  mapsTo := by
    rw [size_vertices_append, size_vertices_append]
    exact mapsTo_beside h.mapsTo h'.mapsTo
  surjOn := by
    rw [size_vertices_append, size_vertices_append]
    exact surjOn_beside h.surjOn h'.surjOn
  position x hx := by
    rw [size_vertices_append] at hx
    rcases Nat.lt_or_ge x u.vertices.size with hlt | hge
    · rw [beside_of_lt hlt, position_append_left hlt, position_append_left (h.mapsTo hlt)]
      exact h.position x hlt
    · obtain ⟨z, rfl⟩ := Nat.exists_eq_add_of_le' hge
      rw [beside_add, position_append_right, position_append_right]
      exact h'.position z (by omega)
  boundary x hx := by
    refine (mem_boundaryFaces_append hu).mpr ?_
    rcases (mem_boundaryFaces_append hm).mp hx with hx | ⟨y, hy, rfl⟩
    · exact Or.inl (h.boundary hx)
    · exact Or.inr ⟨y, h'.boundary hy, by rw [h.length_cells]⟩

/-- Cells keep their diameters, so no tolerance depends on what was made one before. -/
theorem mergeTolerance_eq [SquareRoot K] (h : u.Contracts m f) (hu : u.CellsValid) :
    m.mergeTolerance = u.mergeTolerance := by
  have hdiameters : m.cells.map m.cellDiameter = u.cells.map u.cellDiameter := by
    rw [h.cells, List.map_map]
    refine List.map_congr_left fun c hc => ?_
    show Cell.diameter ((c.map f).map m.position) = Cell.diameter (c.map u.position)
    rw [Vector.map_map]
    refine congrArg Cell.diameter (Vector.map_congr_left fun v hv => ?_)
    exact h.position v (hu c hc v (Vector.mem_toList_iff.mpr hv))
  rw [mergeTolerance, mergeTolerance, minimalDiameter?, minimalDiameter?, hdiameters]

theorem collapses (h : u.Contracts m f) (hdistinct : m.PlacesDistinct)
    (hshapes : m.shapes = u.shapes) : u.Collapses m f :=
  ⟨h.cells, hshapes, h.mapsTo, h.surjOn, h.position, hdistinct⟩

/-- Meshes with one vertex at each place are alike when what they stand for is. -/
theorem alike (h : u.Contracts m f) (h' : v.Contracts n g) (huv : u.Relabels v vertex cell)
    (hu : u.CellsValid) (hv : v.CellsValid) (hm : m.PlacesDistinct) (hn : n.PlacesDistinct)
    (hmshapes : m.shapes = u.shapes) (hnshapes : n.shapes = v.shapes) : m.Alike n := by
  have hmu := h.collapses hm hmshapes
  have hnv := h'.collapses hn hnshapes
  obtain ⟨vertex', hcopies⟩ : ∃ vertex', m.Copies n vertex' cell := by
    refine hmu.exists_copies hu (hnv.cellsValid hv) hn
      (huv.toCopies.places_eq.symm.trans hnv.places_eq.symm) (h'.length_cells ▸ huv.cells)
      (fun i c hc => ?_) (hnshapes.trans huv.shapes)
    have hi := (List.getElem?_eq_some_iff.mp hc).1
    refine ⟨(c.map vertex).map g, ?_, fun w => ?_⟩
    · rw [h'.cells, List.getElem?_map, huv.corners i hi, hc]
      rfl
    · have hw := hu c (List.mem_of_getElem? hc) _ (c.get_mem w)
      rw [Cell.get_map, Cell.get_map, h'.position _ (huv.vertices.mapsTo hw),
        huv.toCopies.position_vertex hw]
  refine ⟨vertex', cell, hcopies.relabels_of_boundaryFaces (hmu.cellsValid hu) fun x hx => ?_⟩
  -- The face is on the boundary of the copy, and there it has the indicator of what it was.
  obtain ⟨k, hk, -⟩ := mem_boundaryFaces.mp hx
  have houter := (hcopies.isOuter_iff (hmu.cellsValid hu)).mpr ⟨_, k, hk, rfl, rfl⟩
  let copy : BoundaryFace :=
    ⟨x.toFaceRef.relabel cell, n.indicator (Key.ofList (k.map vertex'))⟩
  have hcopy : copy ∈ n.boundaryFaces := mem_boundaryFaces.mpr ⟨_, houter, rfl⟩
  have hold : x.relabel cell ∈ v.boundaryFaces := (huv.boundary _).mpr ⟨x, h.boundary hx, rfl⟩
  have hindicator : copy.indicator = (x.relabel cell).indicator :=
    indicator_eq_of_mem_boundaryFaces (h'.boundary hcopy) hold rfl
  rw [BoundaryFace.relabel]
  exact hindicator ▸ hcopy

end Contracts

/-- The mesh without its shapes. -/
def plain (m : Mesh K d) : Mesh K d := { m with shapes := ∅ }

theorem WellFormed.plain (h : m.WellFormed) : m.plain.WellFormed :=
  ⟨h.cell_lt, h.key_lt, h.key_sorted⟩

/-- The second mesh stands for the first one and has one vertex at each place. -/
structure Assembles [Scalar K] (u m : Mesh K d) : Prop where
  contracts : ∃ f, u.Contracts m f
  distinct : m.PlacesDistinct
  shapes : m.shapes = ∅
  wellFormed : m.WellFormed
  keysOnFaces : m.KeysOnFaces

namespace Assembles

variable [Scalar K]

theorem collapses (h : u.Assembles m) :
    ∃ f, u.plain.Collapses m f ∧ m.boundaryFaces ⊆ u.boundaryFaces := by
  obtain ⟨f, hf⟩ := h.contracts
  exact ⟨f, ⟨hf.cells, h.shapes, hf.mapsTo, hf.surjOn, hf.position, h.distinct⟩, hf.boundary⟩

theorem places_eq (h : u.Assembles m) : m.places = u.places := by
  obtain ⟨f, hf, -⟩ := h.collapses
  exact hf.places_eq

theorem append_left (h : u.Assembles m) (hu : u.WellFormed) (hn : (m.append c).Assembles n) :
    (u.append c).Assembles n := by
  obtain ⟨f, hf⟩ := h.contracts
  obtain ⟨g, hg⟩ := hn.contracts
  exact { hn with contracts := ⟨_, (hf.append (.refl c) hu h.wellFormed).trans hg⟩ }

theorem append_right (h : u.Assembles m) (ha : a.WellFormed) (hn : (a.append m).Assembles n) :
    (a.append u).Assembles n := by
  obtain ⟨f, hf⟩ := h.contracts
  obtain ⟨g, hg⟩ := hn.contracts
  exact { hn with contracts := ⟨_, ((Contracts.refl a).append hf ha ha).trans hg⟩ }

theorem mergeTolerance_append_left [SquareRoot K] (h : u.Assembles m) (hu : u.WellFormed)
    (hc : c.WellFormed) : (m.append c).mergeTolerance = (u.append c).mergeTolerance := by
  obtain ⟨f, hf⟩ := h.contracts
  exact (hf.append (.refl c) hu h.wellFormed).mergeTolerance_eq (wellFormed_append hu hc).cell_lt

theorem mergeTolerance_append_right [SquareRoot K] (h : u.Assembles m) (ha : a.WellFormed)
    (hu : u.WellFormed) : (a.append m).mergeTolerance = (a.append u).mergeTolerance := by
  obtain ⟨f, hf⟩ := h.contracts
  exact ((Contracts.refl a).append hf ha ha).mergeTolerance_eq (wellFormed_append ha hu).cell_lt

theorem alike (h : u.Assembles m) (h' : v.Assembles n) (hu : u.CellsValid) (hv : v.CellsValid)
    (huv : u.plain.Relabels v.plain vertex cell) : m.Alike n := by
  obtain ⟨f, hf⟩ := h.contracts
  obtain ⟨g, hg⟩ := h'.contracts
  have hfm : u.plain.Contracts m f := ⟨hf.cells, hf.mapsTo, hf.surjOn, hf.position, hf.boundary⟩
  have hgn : v.plain.Contracts n g := ⟨hg.cells, hg.mapsTo, hg.surjOn, hg.position, hg.boundary⟩
  exact hfm.alike hgn huv hu hv h.distinct h'.distinct h.shapes h'.shapes

end Assembles

/-! ## Gluing -/

theorem keysOnFaces_merge [Scalar K] [SquareRoot K] (h : a.merge b = .ok m) : m.KeysOnFaces := by
  rw [merge_eq, bind_eq_ok_iff] at h
  obtain ⟨glued, -, hprune⟩ := h
  cases hprune
  intro k hk
  obtain ⟨r, hr⟩ := isOuter_of_mem_pruneIndicators hk
  exact ⟨r, hr.1⟩

section Gluing

variable [Field K] [LinearOrder K] [IsStrictOrderedRing K] [SquareRoot K]
  {ps : Set (Point K d)} {tol : K}

/-- Places that are not the same are further apart than the tolerance along some axis. -/
def Apart (ps : Set (Point K d)) (tol : K) : Prop :=
  ∀ p ∈ ps, ∀ q ∈ ps, p = q ∨ ∃ axis, tol < |p.coords.get axis - q.coords.get axis|

omit [IsStrictOrderedRing K] [SquareRoot K] in
theorem Apart.mono {qs : Set (Point K d)} (h : Apart ps tol) (hqs : qs ⊆ ps) : Apart qs tol :=
  fun p hp q hq => h p (hqs hp) q (hqs hq)

omit [IsStrictOrderedRing K] [SquareRoot K] in
theorem Apart.anti {bound : K} (h : Apart ps bound) (htol : tol ≤ bound) : Apart ps tol :=
  fun p hp q hq => (h p hp q hq).imp_right fun ⟨axis, hfar⟩ => ⟨axis, htol.trans_lt hfar⟩

omit [IsStrictOrderedRing K] [SquareRoot K] in
theorem Apart.placesApart (h : Apart ps tol) (hm : m.places ⊆ ps) : m.PlacesApart tol := by
  intro v hv w hw hclose
  rcases h _ (hm (position_mem_places hv)) _ (hm (position_mem_places hw)) with he | ⟨axis, hfar⟩
  · exact he
  · exact absurd (close_iff.mp hclose axis) hfar.not_ge

theorem exists_merge_assembles (ha : a.WellFormed) (hb : b.WellFormed) (haKeys : a.KeysOnFaces)
    (hbKeys : b.KeysOnFaces) (hapart : Apart (a.places ∪ b.places) (a.append b).mergeTolerance) :
    ∃ m, a.merge b = .ok m ∧ (a.append b).Assembles m := by
  obtain ⟨m, f, hm, hcollapses, hboundary⟩ := exists_merge_collapses ha hb haKeys hbKeys
    (hapart.placesApart (places_append a b).le)
  obtain ⟨m', hm', hwell⟩ := exists_merge ha hb
  obtain rfl : m = m' := Except.ok.inj (hm.symm.trans hm')
  refine ⟨m, hm, ⟨f, hcollapses.cells, hcollapses.mapsTo, hcollapses.surjOn, hcollapses.position,
    hboundary⟩, hcollapses.distinct, hcollapses.shapes, hwell, keysOnFaces_merge hm⟩

/-- The tolerances that count when three meshes are glued together, in either order, and when
the first one is glued to nothing. -/
inductive InvolvedTolerance (a b c : Mesh K d) : K → Prop where
  | forward : InvolvedTolerance a b c (a.append b).mergeTolerance
  | backward : InvolvedTolerance a b c (b.append a).mergeTolerance
  | right : InvolvedTolerance a b c (b.append c).mergeTolerance
  | leftFirst {ab : Mesh K d} : a.merge b = .ok ab →
      InvolvedTolerance a b c (ab.append c).mergeTolerance
  | rightFirst {bc : Mesh K d} : b.merge c = .ok bc →
      InvolvedTolerance a b c (a.append bc).mergeTolerance
  | before : InvolvedTolerance a b c (a.append {}).mergeTolerance
  | behind : InvolvedTolerance a b c (({} : Mesh K d).append a).mergeTolerance

/-- What was glued before can be taken apart again to find the tolerance. -/
theorem InvolvedTolerance.le {bound : K} (h : InvolvedTolerance a b c tol) (ha : a.WellFormed)
    (hb : b.WellFormed) (hc : c.WellFormed) (haKeys : a.KeysOnFaces) (hbKeys : b.KeysOnFaces)
    (hcKeys : c.KeysOnFaces) (hapart : Apart (a.places ∪ b.places ∪ c.places) bound)
    (hforward : (a.append b).mergeTolerance ≤ bound)
    (hbackward : (b.append a).mergeTolerance ≤ bound)
    (hright : (b.append c).mergeTolerance ≤ bound)
    (hleftAll : ((a.append b).append c).mergeTolerance ≤ bound)
    (hrightAll : (a.append (b.append c)).mergeTolerance ≤ bound)
    (halone : a.mergeTolerance ≤ bound) : tol ≤ bound := by
  cases h with
  | forward => exact hforward
  | backward => exact hbackward
  | right => exact hright
  | leftFirst hab =>
    obtain ⟨ab, hab', habMade⟩ := exists_merge_assembles ha hb haKeys hbKeys
      ((hapart.mono Set.subset_union_left).anti hforward)
    obtain rfl := Except.ok.inj (hab.symm.trans hab')
    rw [habMade.mergeTolerance_append_left (wellFormed_append ha hb) hc]
    exact hleftAll
  | rightFirst hbc =>
    obtain ⟨bc, hbc', hbcMade⟩ := exists_merge_assembles hb hc hbKeys hcKeys
      ((hapart.mono (Set.union_assoc _ _ _ ▸ Set.subset_union_right)).anti hright)
    obtain rfl := Except.ok.inj (hbc.symm.trans hbc')
    rw [hbcMade.mergeTolerance_append_right ha (wellFormed_append hb hc)]
    exact hrightAll
  | before =>
    rw [append_empty]
    exact halone
  | behind =>
    rw [empty_append]
    exact halone

/-- Gluing is commutative and associative up to the numbers of vertices and cells where vertices
that are not at the same place are told apart by all tolerances, and gluing to nothing only makes
vertices at the same place one. -/
theorem merge_comm_assoc (ha : a.WellFormed) (hb : b.WellFormed) (hc : c.WellFormed)
    (haKeys : a.KeysOnFaces) (hbKeys : b.KeysOnFaces) (hcKeys : c.KeysOnFaces)
    (hapart : ∀ tol, InvolvedTolerance a b c tol → Apart (a.places ∪ b.places ∪ c.places) tol) :
    ∃ ab ba bc abLast bcLast, a.merge b = .ok ab ∧ b.merge a = .ok ba ∧ b.merge c = .ok bc ∧
      ab.merge c = .ok abLast ∧ a.merge bc = .ok bcLast ∧
      ab.Alike ba ∧ abLast.Alike bcLast ∧
      (∃ m f, a.merge {} = .ok m ∧ a.plain.Collapses m f ∧
        m.boundaryFaces ⊆ a.boundaryFaces) ∧
      ∃ m f, ({} : Mesh K d).merge a = .ok m ∧ a.plain.Collapses m f ∧
        m.boundaryFaces ⊆ a.boundaryFaces := by
  have hsome {tol : K} (h : InvolvedTolerance a b c tol) {qs : Set (Point K d)}
      (hqs : qs ⊆ a.places ∪ b.places ∪ c.places) : Apart qs tol := (hapart tol h).mono hqs
  obtain ⟨ab, hab, habMade⟩ := exists_merge_assembles ha hb haKeys hbKeys
    (hsome .forward Set.subset_union_left)
  obtain ⟨ba, hba, hbaMade⟩ := exists_merge_assembles hb ha hbKeys haKeys
    (hsome .backward (Set.union_comm _ _ ▸ Set.subset_union_left))
  obtain ⟨bc, hbc, hbcMade⟩ := exists_merge_assembles hb hc hbKeys hcKeys
    (hsome .right (Set.union_assoc _ _ _ ▸ Set.subset_union_right))
  obtain ⟨abLast, habLast, habLastMade⟩ := exists_merge_assembles habMade.wellFormed hc
    habMade.keysOnFaces hcKeys (hsome (.leftFirst hab) (by rw [habMade.places_eq, places_append]))
  obtain ⟨bcLast, hbcLast, hbcLastMade⟩ := exists_merge_assembles ha hbcMade.wellFormed haKeys
    hbcMade.keysOnFaces (hsome (.rightFirst hbc) (by
      rw [hbcMade.places_eq, places_append, Set.union_assoc]))
  obtain ⟨first, hfirst, hfirstMade⟩ := exists_merge_assembles ha wellFormed_empty haKeys
    keysOnFaces_empty (hsome .before (by
      rw [places_empty, Set.union_empty, Set.union_assoc]
      exact Set.subset_union_left))
  obtain ⟨last, hlast, hlastMade⟩ := exists_merge_assembles wellFormed_empty ha
    keysOnFaces_empty haKeys (hsome .behind (by
      rw [places_empty, Set.empty_union, Set.union_assoc]
      exact Set.subset_union_left))
  -- What was glued is compared through what lies side by side, where only numbers differ.
  refine ⟨ab, ba, bc, abLast, bcLast, hab, hba, hbc, habLast, hbcLast, ?_, ?_, ?_, ?_⟩
  · exact habMade.alike hbaMade (wellFormed_append ha hb).cell_lt (wellFormed_append hb ha).cell_lt
      (relabels_append_comm (a := a.plain) (b := b.plain) ha.plain hb.plain rfl)
  · exact (habMade.append_left (wellFormed_append ha hb) habLastMade).alike
      (hbcMade.append_right ha hbcLastMade)
      (wellFormed_append (wellFormed_append ha hb) hc).cell_lt
      (wellFormed_append ha (wellFormed_append hb hc)).cell_lt
      (relabels_append_assoc (a := a.plain) ha.plain hb hc)
  · rw [append_empty] at hfirstMade
    obtain ⟨f, hf, hboundary⟩ := hfirstMade.collapses
    exact ⟨first, f, hfirst, hf, hboundary⟩
  · rw [empty_append] at hlastMade
    obtain ⟨f, hf, hboundary⟩ := hlastMade.collapses
    exact ⟨last, f, hlast, hf, hboundary⟩

/-- A rectangle with sides three and four and with indicators where the first coordinate is
smallest and largest. -/
def tile (left : ℚ) (i j : Indicator) : Mesh ℚ 2 :=
  { vertices := #[.xy left 0, .xy left 4, .xy (left + 3) 0, .xy (left + 3) 4]
    cells := [#v[0, 2, 1, 3]]
    indicators := KeyMap.ofEntries [([0, 1], i), ([2, 3], j)] }

theorem wellFormed_tile (left : ℚ) (i j : Indicator) : (tile left i j).WellFormed := by
  refine ⟨?_, KeyMap.forall_mem_ofEntries ?_, KeyMap.forall_mem_ofEntries ?_⟩
  · show ∀ c ∈ [(#v[0, 2, 1, 3] : Cell 2)], ∀ v ∈ c.toList, v < 4
    decide
  · simp [tile]
  · simp

theorem keysOnFaces_tile (left : ℚ) (i j : Indicator) : (tile left i j).KeysOnFaces := by
  apply KeyMap.forall_mem_ofEntries
  intro e he
  rcases List.mem_pair.mp he with rfl | rfl
  · exact ⟨⟨0, 0⟩, #v[0, 2, 1, 3], rfl, by decide, rfl⟩
  · exact ⟨⟨0, 1⟩, #v[0, 2, 1, 3], rfl, by decide, rfl⟩

/-- Corners of tiles in a row are a side apart. -/
theorem apart_tiles :
    Apart ((tile 0 5 6).places ∪ (tile 3 7 8).places ∪ (tile 6 9 1).places) (1 / 1000) := by
  rw [← places_append, ← places_append]
  let row := ((tile 0 5 6).append (tile 3 7 8)).append (tile 6 9 1)
  have hfar : ∀ v < 12, ∀ w < 12,
      (∀ axis, (row.position v).coords.get axis = (row.position w).coords.get axis) ∨
        ∃ axis,
          1 / 1000 < |(row.position v).coords.get axis - (row.position w).coords.get axis| := by
    decide +kernel
  rintro p ⟨v, hv, rfl⟩ q ⟨w, hw, rfl⟩
  exact (hfar v hv w hw).imp_left Point.ext_get

theorem merge_comm_assoc_tiles :
    (∀ left i j, (tile left i j).WellFormed ∧ (tile left i j).KeysOnFaces) ∧
      (∀ tol, InvolvedTolerance (tile 0 5 6) (tile 3 7 8) (tile 6 9 1) tol →
        Apart ((tile 0 5 6).places ∪ (tile 3 7 8).places ∪ (tile 6 9 1).places) tol) ∧
      ∃ ab ba bc abLast bcLast, (tile 0 5 6).merge (tile 3 7 8) = .ok ab ∧
        (tile 3 7 8).merge (tile 0 5 6) = .ok ba ∧ (tile 3 7 8).merge (tile 6 9 1) = .ok bc ∧
        ab.merge (tile 6 9 1) = .ok abLast ∧ (tile 0 5 6).merge bc = .ok bcLast ∧
        ab.Alike ba ∧ abLast.Alike bcLast := by
  have hwell := wellFormed_tile
  have hkeys := keysOnFaces_tile
  have hapart : ∀ tol, InvolvedTolerance (tile 0 5 6) (tile 3 7 8) (tile 6 9 1) tol →
      Apart ((tile 0 5 6).places ∪ (tile 3 7 8).places ∪ (tile 6 9 1).places) tol := by
    intro tol htol
    refine apart_tiles.anti (htol.le (hwell 0 5 6) (hwell 3 7 8) (hwell 6 9 1) (hkeys 0 5 6)
      (hkeys 3 7 8) (hkeys 6 9 1) apart_tiles ?_ ?_ ?_ ?_ ?_ ?_)
    all_goals decide +kernel
  obtain ⟨ab, ba, bc, abLast, bcLast, hab, hba, hbc, habLast, hbcLast, hcomm, hassoc, -⟩ :=
    merge_comm_assoc (hwell 0 5 6) (hwell 3 7 8) (hwell 6 9 1) (hkeys 0 5 6) (hkeys 3 7 8)
      (hkeys 6 9 1) hapart
  exact ⟨fun left i j => ⟨hwell left i j, hkeys left i j⟩, hapart, ab, ba, bc, abLast, bcLast,
    hab, hba, hbc, habLast, hbcLast, hcomm, hassoc⟩

end Gluing

end Mesh
end HexMesh
