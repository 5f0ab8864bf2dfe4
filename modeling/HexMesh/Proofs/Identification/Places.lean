import HexMesh.Proofs.Identification.Exact
import HexMesh.Proofs.Identification.Gluing
import HexMesh.Proofs.Mesh.Measure
import HexMesh.Proofs.Mesh.Relabeling

/-!
Identification that goes by places.

When vertices within the tolerance of each other lie at one place, closeness is the same
as being there together, and the sweep leaves exactly one vertex at each place.  The mesh
that comes out then depends on the places and on the cells only, and not on which vertex
stands for the others.
-/

namespace HexMesh
namespace Mesh

variable {K : Type} {d : Nat} {m m' u : Mesh K d} {f cell : Nat → Nat}

/-- Vertices within the tolerance of each other lie at the same place. -/
def PlacesApart [Scalar K] (m : Mesh K d) (tol : K) : Prop :=
  ∀ v < m.vertices.size, ∀ w < m.vertices.size, m.close tol v w = true →
    m.position v = m.position w

/-- The second mesh is the first one with the vertices at each place made one. -/
structure Collapses [Scalar K] (m m' : Mesh K d) (f : Nat → Nat) : Prop where
  cells : m'.cells = m.cells.map (·.map f)
  shapes : m'.shapes = m.shapes
  mapsTo : Set.MapsTo f (Set.Iio m.vertices.size) (Set.Iio m'.vertices.size)
  surjOn : Set.SurjOn f (Set.Iio m.vertices.size) (Set.Iio m'.vertices.size)
  position : ∀ v < m.vertices.size, m'.position (f v) = m.position v
  distinct : m'.PlacesDistinct

namespace Collapses

variable [Scalar K]

theorem cellsValid (h : m.Collapses m' f) (hm : m.CellsValid) : m'.CellsValid := by
  intro c' hc' v hv
  rw [h.cells] at hc'
  obtain ⟨c, hc, rfl⟩ := List.mem_map.mp hc'
  obtain ⟨w, rfl⟩ := Cell.mem_toList_iff.mp hv
  rw [Cell.get_map]
  exact h.mapsTo (hm c hc _ (c.get_mem w))

theorem places_eq (h : m.Collapses m' f) : m'.places = m.places := by
  refine Set.ext fun p => ⟨fun hp => ?_, fun hp => ?_⟩
  · obtain ⟨v', hv', rfl⟩ := hp
    obtain ⟨v, hv, rfl⟩ := h.surjOn hv'
    exact h.position v hv ▸ position_mem_places hv
  · obtain ⟨v, hv, rfl⟩ := hp
    exact h.position v hv ▸ position_mem_places (h.mapsTo hv)

/-- What comes out is a copy of any mesh with one vertex at each place and with the same cells
at the same places. -/
theorem exists_copies (h : m.Collapses m' f) (hm : m.CellsValid) (hu : u.CellsValid)
    (hdistinct : u.PlacesDistinct) (hplaces : m.places = u.places)
    (hcells : Set.BijOn cell (Set.Iio m.cells.length) (Set.Iio u.cells.length))
    (hcorners : ∀ i c, m.cells[i]? = some c → ∃ c', u.cells[cell i]? = some c' ∧
      ∀ v, u.position (c'.get v) = m.position (c.get v))
    (hshapes : u.shapes = m.shapes) : ∃ vertex, m'.Copies u vertex cell := by
  have hlength : m'.cells.length = m.cells.length := by rw [h.cells, List.length_map]
  refine Mesh.exists_copies (h.cellsValid hm) hu h.distinct hdistinct
    (h.places_eq.trans hplaces) (hlength ▸ hcells) (fun i c' hc' => ?_)
    (hshapes.trans h.shapes.symm)
  rw [h.cells, List.getElem?_map, Option.map_eq_some_iff] at hc'
  obtain ⟨c, hc, rfl⟩ := hc'
  obtain ⟨e, he, hcorner⟩ := hcorners i c hc
  refine ⟨e, he, fun v => ?_⟩
  rw [hcorner, Cell.get_map]
  exact (h.position _ (hm c (List.mem_of_getElem? hc) _ (c.get_mem v))).symm

end Collapses

/-! ## Meshes side by side -/

section Append

variable [Scalar K] {a b : Mesh K d}

theorem position_append_left {v : Nat} (hv : v < a.vertices.size) :
    (a.append b).position v = a.position v := by
  rw [position, position]
  exact congrArg (·.getD Point.origin) (Array.getElem?_append_left hv)

theorem position_append_right (a b : Mesh K d) (v : Nat) :
    (a.append b).position (v + a.vertices.size) = b.position v := by
  have happend : (a.vertices ++ b.vertices)[v + a.vertices.size]? = b.vertices[v]? := by
    rw [Array.getElem?_append_right (Nat.le_add_left _ _), Nat.add_sub_cancel]
  rw [position, position]
  exact congrArg (·.getD Point.origin) happend

theorem places_append (a b : Mesh K d) : (a.append b).places = a.places ∪ b.places := by
  refine Set.ext fun p => ⟨fun hp => ?_, fun hp => ?_⟩
  · obtain ⟨v, hv, rfl⟩ := hp
    replace hv : v < (a.append b).vertices.size := hv
    rw [size_vertices_append] at hv
    rcases Nat.lt_or_ge v a.vertices.size with hlt | hge
    · rw [position_append_left hlt]
      exact Or.inl (position_mem_places hlt)
    · obtain ⟨w, rfl⟩ := Nat.exists_eq_add_of_le' hge
      rw [position_append_right]
      exact Or.inr (position_mem_places (by omega))
  · rcases hp with ⟨v, hv, rfl⟩ | ⟨v, hv, rfl⟩
    · replace hv : v < a.vertices.size := hv
      rw [← position_append_left (b := b) hv]
      refine position_mem_places ?_
      rw [size_vertices_append]
      exact Nat.lt_add_right _ hv
    · replace hv : v < b.vertices.size := hv
      rw [← position_append_right a b v]
      refine position_mem_places ?_
      rw [size_vertices_append]
      omega

end Append

/-! ## Exact arithmetic -/

section Exact

variable [Field K] [LinearOrder K] [IsStrictOrderedRing K] {tol : K} {n : Nat}

theorem close_of_position_eq {v w : Nat} (htol : 0 ≤ tol) (h : m.position v = m.position w) :
    m.close tol v w = true :=
  close_iff.mpr fun i => by
    rw [h, sub_self, abs_zero]
    exact htol

theorem Identifies.collapses (h : m.Identifies m' (m.identify tol) f) (htol : 0 ≤ tol)
    (hapart : m.PlacesApart tol) (hshapes : m'.shapes = m.shapes) : m.Collapses m' f := by
  have hsound := m.sound_identify tol
  have hplace {v : Nat} (hv : v < m.vertices.size) :
      m'.position (f v) = m.position ((m.identify tol).of v) := by
    rw [position, h.getElem?_vertices hv]
    rfl
  refine ⟨h.cells, hshapes, fun v hv => ?_, fun t ht => ?_, fun v hv => ?_, fun s hs t ht he => ?_⟩
  · exact (Array.getElem?_eq_some_iff.mp (h.getElem?_vertices hv)).1
  · rw [h.size_vertices] at ht
    obtain ⟨hsize, hself⟩ := Identification.mem_survivors.mp (List.getElem_mem ht)
    have hv := hsound.size ▸ hsize
    have hnodup : (m.identify tol).survivors.Nodup :=
      (m.identify tol).pairwise_survivors.imp fun hlt => Nat.ne_of_lt hlt
    have hsame := h.place _ hv
    rw [hself, ← List.getElem?_eq_getElem ht] at hsame
    exact ⟨_, hv, ((List.getElem?_inj ht hnodup).mp hsame.symm).symm⟩
  · rw [hplace hv]
    rcases hsound.near v with hself | hclose
    · rw [hself]
    · exact hapart _ (hsound.lt v hv) v hv hclose
  · by_contra hne
    -- Two that were kept at one place would be close.
    have hfar := h.separated (not_close_of_mem_survivors htol) s hs t ht hne
    rw [close_of_position_eq htol he] at hfar
    exact Bool.false_ne_true hfar.symm

theorem collapses_deduplicate (h : m.deduplicate tol = .ok (m', n)) (htol : 0 ≤ tol)
    (hapart : m.PlacesApart tol) : ∃ f, m.Collapses m' f := by
  obtain ⟨f, hf⟩ := identifies_deduplicate h
  refine ⟨f, hf.collapses htol hapart ?_⟩
  obtain ⟨-, ⟨-, rfl⟩ | rfl⟩ := deduplicate_cases h <;> rfl

/-! ## Gluing -/

variable [SquareRoot K] {a b : Mesh K d}

omit [IsStrictOrderedRing K] in
/-- The smallest diameter is one of the diameters. -/
theorem mem_of_minimalDiameter {x : K} (h : m.minimalDiameter? = some x) :
    x ∈ m.cells.map m.cellDiameter := by
  have hfold (f : Option K → K → Option K) (hf : ∀ best y, f best y = some y ∨ f best y = best)
      (xs : List K) {best : Option K} (hx : xs.foldl f best = some x) : best = some x ∨ x ∈ xs := by
    induction xs generalizing best with
    | nil => exact Or.inl hx
    | cons y rest ih =>
      rcases ih hx with hbest | hmem
      · rcases hf best y with hself | hkept
        · exact Or.inr (Option.some.inj (hself.symm.trans hbest) ▸ List.mem_cons_self)
        · exact Or.inl (hkept.symm.trans hbest)
      · exact Or.inr (List.mem_cons_of_mem y hmem)
  refine (hfold _ (fun best y => ?_) _ h).resolve_left (Option.some_ne_none x).symm
  cases best with
  | none => exact Or.inl rfl
  | some z =>
    dsimp only
    split
    · exact Or.inl rfl
    · exact Or.inr rfl

theorem mergeTolerance_nonneg (m : Mesh K d) : 0 ≤ m.mergeTolerance := by
  have hdiameter : 0 ≤ m.minimalDiameter?.getD ((1 : Nat) : K) := by
    cases h : m.minimalDiameter? with
    | none => exact Nat.cast_nonneg 1
    | some x =>
      obtain ⟨c, -, rfl⟩ := List.mem_map.mp (mem_of_minimalDiameter h)
      exact Nat.cast_zero.ge.trans (m.cellDiameter_nonneg c)
  exact mul_nonneg (div_nonneg (Nat.cast_nonneg 1) (Nat.cast_nonneg _)) hdiameter

/-- Two meshes that are glued together collapse to one vertex at each place, and the boundary is
a part of what it was. -/
theorem exists_merge_collapses (ha : a.WellFormed) (hb : b.WellFormed) (haKeys : a.KeysOnFaces)
    (hbKeys : b.KeysOnFaces) (hapart : (a.append b).PlacesApart (a.append b).mergeTolerance) :
    ∃ m f, a.merge b = .ok m ∧ (({ a with shapes := ∅ } : Mesh K d).append b).Collapses m f ∧
      m.boundaryFaces ⊆ (a.append b).boundaryFaces := by
  let bare : Mesh K d := { a with shapes := ∅ }
  have hbare : bare.WellFormed := ⟨ha.cell_lt, ha.key_lt, ha.key_sorted⟩
  have hbareKeys : bare.KeysOnFaces := haKeys
  obtain ⟨glued, n, hglued⟩ :=
    exists_deduplicate (key_lt_append hbare hb) (a.append b).mergeTolerance
  have hsubset := boundaryFaces_deduplicate_subset (keysOnFaces_append hbareKeys hbKeys) hglued
  obtain ⟨f, hf⟩ := collapses_deduplicate hglued (mergeTolerance_nonneg _) hapart
  refine ⟨glued.pruneIndicators, f, ?_, ⟨hf.cells, hf.shapes, hf.mapsTo, hf.surjOn, hf.position,
    hf.distinct⟩, ?_⟩
  · rw [merge_eq, hglued]
    rfl
  · exact List.Subset.trans (boundaryFaces_pruneIndicators_subset glued) hsubset

end Exact

end Mesh
end HexMesh
