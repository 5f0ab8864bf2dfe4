import HexMesh.Proofs.Extrusion.Layers
import HexMesh.Proofs.Number.Ordered
import Mathlib.Tactic.NormNum

/-!
The boundary of an extruded mesh.

A side face has as many owners as the edge below it, since its key tells the layer
and the edge.  A face between two layers of cells has two owners, one above and one
below, and no others as long as different cells have different vertices.  So the
boundary consists of the faces above boundary edges, the bottom and the top.
-/

namespace HexMesh

open HexMesh.Cube

/-- The face with the same number of the hexahedron above in some layer, when every layer
has `n` cells. -/
def FaceRef.inLayer (r : FaceRef) (n layer : Nat) : FaceRef := ⟨layer * n + r.cell, r.face⟩

theorem FaceRef.inLayer_inj {r s : FaceRef} {n k l : Nat} (hr : r.cell < n) (hs : s.cell < n)
    (h : r.inLayer n k = s.inLayer n l) : k = l ∧ r = s := by
  obtain ⟨hcell, hface⟩ := FaceRef.mk.inj h
  obtain ⟨hlayer, hsame⟩ := block_inj hr hs hcell
  obtain ⟨i, f⟩ := r
  obtain ⟨j, g⟩ := s
  exact ⟨hlayer, by rw [FaceRef.mk.injEq]; exact ⟨hsame, hface⟩⟩

namespace Mesh

variable {K : Type} {m : Mesh K 2} {m' : Mesh K 3} {slices : Nat}

/-- No two cells have the same vertices, counted with repetition. -/
def CellsApart (m : Mesh K 2) : Prop := (m.cells.map fun c => Key.ofList c.toList).Nodup

instance (m : Mesh K 2) : Decidable m.CellsApart :=
  inferInstanceAs (Decidable (m.cells.map fun c => Key.ofList c.toList).Nodup)

theorem CellsApart.eq_of_perm (h : m.CellsApart) {i j : Nat} {c e : Cell 2}
    (hc : m.cells[i]? = some c) (he : m.cells[j]? = some e)
    (hsame : Key.ofList c.toList = Key.ofList e.toList) : i = j :=
  CellsDiffer.eq_of_key h hc he hsame

/-- The second mesh has the cells and the indicators of the extruded first one. -/
structure Extrudes (m : Mesh K 2) (slices : Nat) (m' : Mesh K 3) : Prop where
  cells : m'.cells = (List.range (slices - 1)).flatMap fun k => m.cells.map (m.hexahedron k)
  indicators : m'.indicators = KeyMap.ofEntries (m.extrudedIndicators slices)
  shapes : m'.shapes = ∅

theorem CellsValid.cell_lt {c : Cell 2} {i : Nat} (hm : m.CellsValid)
    (hc : m.cells[i]? = some c) : ∀ v ∈ c.toList, v < m.vertices.size :=
  hm c (List.mem_of_getElem? hc)

/-! ## Faces -/

theorem Extrudes.length_cells (h : m.Extrudes slices m') :
    m'.cells.length = (slices - 1) * m.cells.length := by
  rw [h.cells, List.length_flatMap]
  simp

theorem Extrudes.getElem?_cells (h : m.Extrudes slices m') {k i : Nat} (hk : k < slices - 1)
    (hi : i < m.cells.length) :
    m'.cells[k * m.cells.length + i]? = m.cells[i]?.map (m.hexahedron k) := by
  rw [h.cells, getElem?_flatMap_of_length (fun k => List.length_map _) _ _ _ hi,
    List.getElem?_range hk, Option.bind_some, List.getElem?_map]

theorem Extrudes.exists_hexahedron (h : m.Extrudes slices m') {j : Nat} {c' : Cell 3}
    (hc' : m'.cells[j]? = some c') :
    ∃ k < slices - 1, ∃ (i : Nat) (c : Cell 2), m.cells[i]? = some c ∧
      k * m.cells.length + i = j ∧ m.hexahedron k c = c' := by
  have hj := (List.getElem?_eq_some_iff.mp hc').1
  rw [h.length_cells] at hj
  obtain ⟨k, hk, i, rfl⟩ := exists_block hj
  rw [h.getElem?_cells hk i.isLt, Option.map_eq_some_iff] at hc'
  obtain ⟨c, hc, rfl⟩ := hc'
  exact ⟨k, hk, i, c, hc, rfl, rfl⟩

theorem Extrudes.hasFace_iff (h : m.Extrudes slices m') {r : FaceRef} {key : Key} :
    m'.HasFace r key ↔ ∃ k < slices - 1, ∃ (s : FaceRef) (c : Cell 2),
      m.cells[s.cell]? = some c ∧ s.face < 6 ∧ r = s.inLayer m.cells.length k ∧
        (m.hexahedron k c).faceKey s.face = key := by
  constructor
  · intro hface
    obtain ⟨hex, hhex, hlt, rfl⟩ := hface
    obtain ⟨k, hk, i, c, hc, hcell, rfl⟩ := h.exists_hexahedron hhex
    refine ⟨k, hk, ⟨i, r.face⟩, c, hc, hlt, ?_, rfl⟩
    rw [FaceRef.inLayer, hcell]
  · intro hface
    obtain ⟨k, hk, s, c, hc, hlt, rfl, rfl⟩ := hface
    refine ⟨m.hexahedron k c, ?_, hlt, rfl⟩
    rw [FaceRef.inLayer, h.getElem?_cells hk (List.getElem?_eq_some_iff.mp hc).1, hc]
    rfl

/-- The key of a face of a hexahedron, by the kind of the face. -/
theorem faceKey_hexahedron (m : Mesh K 2) (k : Nat) (c : Cell 2) {face : Nat} (h : face < 6) :
    face < 4 ∧ (m.hexahedron k c).faceKey face = Key.ofList (m.lateral k (c.faceKey face)) ∨
      face = 4 ∧ (m.hexahedron k c).faceKey face = Key.ofList (c.toList.map (m.layered k)) ∨
      face = 5 ∧
        (m.hexahedron k c).faceKey face = Key.ofList (c.toList.map (m.layered (k + 1))) := by
  have hcases : face < 4 ∨ face = 4 ∨ face = 5 := by omega
  rcases hcases with hface | rfl | rfl
  · exact Or.inl ⟨hface, m.faceKey_hexahedron_lateral k c hface⟩
  · exact Or.inr (Or.inl ⟨rfl, m.faceKey_hexahedron_lower k c⟩)
  · exact Or.inr (Or.inr ⟨rfl, m.faceKey_hexahedron_upper k c⟩)

theorem toList_ne_nil (c : Cell 2) : c.toList ≠ [] :=
  List.ne_nil_of_length_pos (by rw [Vector.length_toList]; decide)

/-- The owners of a side face are those of the edge below it. -/
theorem Extrudes.hasFace_lateral (h : m.Extrudes slices m') (hm : m.CellsValid) {k : Nat}
    (hk : k < slices - 1) {s : FaceRef} {e : Key} (he : m.HasFace s e) {r : FaceRef} :
    m'.HasFace r (Key.ofList (m.lateral k e)) ↔
      ∃ t, m.HasFace t e ∧ r = t.inLayer m.cells.length k := by
  have helt := he.lt_size hm
  have hene := he.ne_nil
  rw [h.hasFace_iff]
  constructor
  · intro hface
    obtain ⟨l, hl, t, c, hc, hlt, rfl, hkey⟩ := hface
    have hclt := hm.cell_lt hc
    rcases m.faceKey_hexahedron l c hlt with ⟨hside, hlateral⟩ | ⟨-, hlower⟩ | ⟨-, hupper⟩
    · have ht : m.HasFace t (c.faceKey t.face) := ⟨c, hc, hside, rfl⟩
      rw [hlateral] at hkey
      obtain ⟨rfl, hsame⟩ := ofList_lateral_inj helt (ht.lt_size hm) hene hkey.symm
      rw [Key.ofList_of_pairwise he.pairwise, Key.ofList_of_pairwise ht.pairwise] at hsame
      exact ⟨t, hsame ▸ ht, rfl⟩
    · exact absurd (hkey.symm.trans hlower) (ofList_lateral_ne_layered helt hclt hene)
    · exact absurd (hkey.symm.trans hupper) (ofList_lateral_ne_layered helt hclt hene)
  · intro ht
    obtain ⟨t, ⟨c, hc, hside, rfl⟩, rfl⟩ := ht
    exact ⟨k, hk, t, c, hc, Nat.lt_trans hside (by decide), rfl,
      m.faceKey_hexahedron_lateral k c hside⟩

/-- The owners of a copy of a cell in some layer are the cell below and the cell above. -/
theorem Extrudes.hasFace_layered (h : m.Extrudes slices m') (hm : m.CellsValid)
    (hapart : m.CellsApart) {i : Nat} {c : Cell 2} (hc : m.cells[i]? = some c) {layer : Nat}
    {r : FaceRef} :
    m'.HasFace r (Key.ofList (c.toList.map (m.layered layer))) ↔
      layer < slices - 1 ∧ r = FaceRef.inLayer ⟨i, 4⟩ m.cells.length layer ∨
        ∃ k < slices - 1, layer = k + 1 ∧ r = FaceRef.inLayer ⟨i, 5⟩ m.cells.length k := by
  have hclt := hm.cell_lt hc
  rw [h.hasFace_iff]
  constructor
  · intro hface
    obtain ⟨k, hk, ⟨j, face⟩, e, he, hlt, rfl, hkey⟩ := hface
    have helt := hm.cell_lt he
    rcases m.faceKey_hexahedron k e hlt with ⟨hside, hlateral⟩ | ⟨rfl, hlower⟩ | ⟨rfl, hupper⟩
    · have ht : m.HasFace ⟨j, face⟩ (e.faceKey face) := ⟨e, he, hside, rfl⟩
      exact absurd (hlateral.symm.trans hkey)
        (ofList_lateral_ne_layered (ht.lt_size hm) hclt ht.ne_nil)
    · obtain ⟨rfl, hsame⟩ :=
        ofList_layered_inj helt hclt (toList_ne_nil e) (hlower.symm.trans hkey)
      have hij : j = i := hapart.eq_of_perm he hc hsame
      subst hij
      exact Or.inl ⟨hk, rfl⟩
    · obtain ⟨rfl, hsame⟩ :=
        ofList_layered_inj helt hclt (toList_ne_nil e) (hupper.symm.trans hkey)
      have hij : j = i := hapart.eq_of_perm he hc hsame
      subst hij
      exact Or.inr ⟨k, hk, rfl, rfl⟩
  · intro hface
    obtain ⟨hk, rfl⟩ | ⟨k, hk, rfl, rfl⟩ := hface
    · exact ⟨layer, hk, ⟨i, 4⟩, c, hc, (by decide : 4 < 6), rfl,
        m.faceKey_hexahedron_lower layer c⟩
    · exact ⟨k, hk, ⟨i, 5⟩, c, hc, (by decide : 5 < 6), rfl, m.faceKey_hexahedron_upper k c⟩

theorem Extrudes.isOuter_lateral (h : m.Extrudes slices m') (hm : m.CellsValid) {k : Nat}
    (hk : k < slices - 1) {s : FaceRef} {e : Key} (he : m.HasFace s e) {r : FaceRef} :
    m'.IsOuter r (Key.ofList (m.lateral k e)) ↔
      ∃ t, m.IsOuter t e ∧ r = t.inLayer m.cells.length k := by
  constructor
  · intro houter
    obtain ⟨t, ht, rfl⟩ := (h.hasFace_lateral hm hk he).mp houter.1
    refine ⟨t, ⟨ht, fun u hu => ?_⟩, rfl⟩
    have hsame := houter.2 _ ((h.hasFace_lateral hm hk he).mpr ⟨u, hu, rfl⟩)
    exact (FaceRef.inLayer_inj hu.cell_lt ht.cell_lt hsame).2
  · intro houter
    obtain ⟨t, ht, rfl⟩ := houter
    refine ⟨(h.hasFace_lateral hm hk he).mpr ⟨t, ht.1, rfl⟩, fun u hu => ?_⟩
    obtain ⟨w, hw, rfl⟩ := (h.hasFace_lateral hm hk he).mp hu
    rw [ht.2 w hw]

theorem Extrudes.isOuter_layered (h : m.Extrudes slices m') (hm : m.CellsValid)
    (hapart : m.CellsApart) {i : Nat} {c : Cell 2} (hc : m.cells[i]? = some c) (layer : Nat)
    {r : FaceRef} :
    m'.IsOuter r (Key.ofList (c.toList.map (m.layered layer))) ↔
      2 ≤ slices ∧ (layer = 0 ∧ r = ⟨i, 4⟩ ∨
        layer = slices - 1 ∧ r = FaceRef.inLayer ⟨i, 5⟩ m.cells.length (slices - 2)) := by
  have hfaces := @Extrudes.hasFace_layered K m m' slices h hm hapart i c hc layer
  constructor
  · intro houter
    obtain ⟨hk, rfl⟩ | ⟨k, hk, rfl, rfl⟩ := hfaces.mp houter.1
    · -- A cell below would own the face as well.
      have hzero : layer = 0 := by
        by_contra hne
        have hbelow : m'.HasFace (FaceRef.inLayer ⟨i, 5⟩ m.cells.length (layer - 1)) _ :=
          hfaces.mpr (Or.inr ⟨layer - 1, by omega, by omega, rfl⟩)
        have hface := congrArg FaceRef.face (houter.2 _ hbelow)
        simp [FaceRef.inLayer] at hface
      subst hzero
      exact ⟨by omega, Or.inl ⟨rfl, by simp [FaceRef.inLayer]⟩⟩
    · -- And here a cell above would.
      have hlast : k + 1 = slices - 1 := by
        by_contra hne
        have habove : m'.HasFace (FaceRef.inLayer ⟨i, 4⟩ m.cells.length (k + 1)) _ :=
          hfaces.mpr (Or.inl ⟨by omega, rfl⟩)
        have hface := congrArg FaceRef.face (houter.2 _ habove)
        simp [FaceRef.inLayer] at hface
      have hk : k = slices - 2 := by omega
      exact ⟨by omega, Or.inr ⟨hlast, by rw [hk]⟩⟩
  · intro hends
    obtain ⟨hslices, ⟨rfl, rfl⟩ | ⟨rfl, rfl⟩⟩ := hends
    · refine ⟨hfaces.mpr (Or.inl ⟨by omega, by simp [FaceRef.inLayer]⟩), fun s hs => ?_⟩
      obtain ⟨-, rfl⟩ | ⟨k, -, hk, -⟩ := hfaces.mp hs
      · simp [FaceRef.inLayer]
      · omega
    · refine ⟨hfaces.mpr (Or.inr ⟨slices - 2, by omega, by omega, rfl⟩), fun s hs => ?_⟩
      obtain ⟨hk, -⟩ | ⟨k, -, hk, rfl⟩ := hfaces.mp hs
      · omega
      · have hk : k = slices - 2 := by omega
        rw [hk]

/-! ## Indicators -/

theorem mem_extrudedIndicators {e : Key × Indicator} :
    e ∈ m.extrudedIndicators slices ↔
      (∃ r k, ∃ layer < slices - 1, m.IsOuter r k ∧
        e = (Key.ofList (m.lateral layer k), m.indicator k)) ∨
      (∃ c ∈ m.cells, e = ((m.hexahedron 0 c).faceKey 4, m.maxIndicator + 1)) ∨
      ∃ c ∈ m.cells, e = ((m.hexahedron (slices - 2) c).faceKey 5, m.maxIndicator + 2) := by
  simp only [extrudedIndicators, List.mem_append, List.mem_flatMap, List.mem_map, List.mem_range,
    List.mem_cons, List.not_mem_nil, or_false, ← exists_or, ← and_or_left]
  refine or_congr ?_ Iff.rfl
  constructor
  · intro h
    obtain ⟨⟨r, k⟩, hf, layer, hlayer, rfl⟩ := h
    exact ⟨r, k, layer, hlayer, mem_outerFaces.mp hf, rfl⟩
  · intro h
    obtain ⟨r, k, layer, hlayer, houter, rfl⟩ := h
    exact ⟨(r, k), mem_outerFaces.mpr houter, layer, hlayer, rfl⟩

theorem Extrudes.indicator_eq (h : m.Extrudes slices m') {k : Key} {i : Indicator}
    (hmem : (k, i) ∈ m.extrudedIndicators slices)
    (honly : ∀ j, (k, j) ∈ m.extrudedIndicators slices → j = i) : m'.indicator k = i := by
  have hstored : m'.indicators[k]? = some i := by
    rw [h.indicators]
    refine KeyMap.getElem?_foldl_insert_of_agree Std.ExtTreeMap.getElem?_empty (fun j hj => ?_)
      fun j hj => ?_
    · rw [honly j hj]
    · cases hj
      exact hmem
  rw [indicator, Std.ExtTreeMap.getD_eq_getD_getElem?, hstored]
  rfl

/-- A side face has the indicator of the boundary edge below it. -/
theorem Extrudes.indicator_lateral (h : m.Extrudes slices m') (hm : m.CellsValid) {k : Nat}
    (hk : k < slices - 1) {s : FaceRef} {e : Key} (he : m.IsOuter s e) :
    m'.indicator (Key.ofList (m.lateral k e)) = m.indicator e := by
  have helt := he.1.lt_size hm
  have hene := he.1.ne_nil
  refine h.indicator_eq (mem_extrudedIndicators.mpr (Or.inl ⟨s, e, k, hk, he, rfl⟩)) ?_
  intro j hj
  -- Several entries may have this key, but all of them stem from the same edge.
  rcases mem_extrudedIndicators.mp hj with ⟨r, l, layer, -, hl, hj⟩ | ⟨c, hc, hj⟩ | ⟨c, hc, hj⟩
  · obtain ⟨hkey, rfl⟩ := Prod.mk.inj hj
    have hsame := (ofList_lateral_inj helt (hl.1.lt_size hm) hene hkey).2
    rw [Key.ofList_of_pairwise he.1.pairwise, Key.ofList_of_pairwise hl.1.pairwise] at hsame
    rw [hsame]
  · rw [faceKey_hexahedron_lower] at hj
    exact absurd (Prod.mk.inj hj).1 (ofList_lateral_ne_layered helt (hm c hc) hene)
  · rw [faceKey_hexahedron_upper] at hj
    exact absurd (Prod.mk.inj hj).1 (ofList_lateral_ne_layered helt (hm c hc) hene)

theorem mem_extrudedIndicators_layered (hm : m.CellsValid) {c : Cell 2} (hc : c ∈ m.cells)
    {layer : Nat} {i : Indicator}
    (hmem : (Key.ofList (c.toList.map (m.layered layer)), i) ∈ m.extrudedIndicators slices) :
    layer = 0 ∧ i = m.maxIndicator + 1 ∨ layer = slices - 2 + 1 ∧ i = m.maxIndicator + 2 := by
  rcases mem_extrudedIndicators.mp hmem with ⟨r, l, k, -, hl, he⟩ | ⟨e, he, hi⟩ | ⟨e, he, hi⟩
  · exact absurd (Prod.mk.inj he).1.symm
      (ofList_lateral_ne_layered (hl.1.lt_size hm) (hm c hc) hl.1.ne_nil)
  · rw [faceKey_hexahedron_lower] at hi
    obtain ⟨hkey, rfl⟩ := Prod.mk.inj hi
    exact Or.inl ⟨(ofList_layered_inj (hm c hc) (hm e he) (toList_ne_nil c) hkey).1, rfl⟩
  · rw [faceKey_hexahedron_upper] at hi
    obtain ⟨hkey, rfl⟩ := Prod.mk.inj hi
    exact Or.inr ⟨(ofList_layered_inj (hm c hc) (hm e he) (toList_ne_nil c) hkey).1, rfl⟩

theorem Extrudes.indicator_bottom (h : m.Extrudes slices m') (hm : m.CellsValid) {c : Cell 2}
    (hc : c ∈ m.cells) :
    m'.indicator (Key.ofList (c.toList.map (m.layered 0))) = m.maxIndicator + 1 := by
  refine h.indicator_eq (mem_extrudedIndicators.mpr (Or.inr (Or.inl ⟨c, hc, ?_⟩))) fun j hj => ?_
  · rw [faceKey_hexahedron_lower]
  · rcases mem_extrudedIndicators_layered hm hc hj with ⟨-, rfl⟩ | ⟨hlayer, -⟩
    · rfl
    · omega

theorem Extrudes.indicator_top (h : m.Extrudes slices m') (hm : m.CellsValid) {c : Cell 2}
    (hc : c ∈ m.cells) :
    m'.indicator (Key.ofList (c.toList.map (m.layered (slices - 2 + 1)))) =
      m.maxIndicator + 2 := by
  refine h.indicator_eq (mem_extrudedIndicators.mpr (Or.inr (Or.inr ⟨c, hc, ?_⟩))) fun j hj => ?_
  · rw [faceKey_hexahedron_upper]
  · rcases mem_extrudedIndicators_layered hm hc hj with ⟨hlayer, -⟩ | ⟨-, rfl⟩
    · omega
    · rfl

/-! ## Boundary faces -/

/-- A copy of a cell lies on the boundary in the first and in the last layer only. -/
theorem Extrudes.isOuter_ends (h : m.Extrudes slices m') (hm : m.CellsValid)
    (hapart : m.CellsApart) {i : Nat} {c : Cell 2} (hc : m.cells[i]? = some c) {layer : Nat}
    {r : FaceRef} (houter : m'.IsOuter r (Key.ofList (c.toList.map (m.layered layer)))) :
    r = ⟨i, 4⟩ ∧ m'.indicator (Key.ofList (c.toList.map (m.layered layer))) = m.maxIndicator + 1 ∨
      r = FaceRef.inLayer ⟨i, 5⟩ m.cells.length (slices - 2) ∧
        m'.indicator (Key.ofList (c.toList.map (m.layered layer))) = m.maxIndicator + 2 := by
  have hcmem := List.mem_of_getElem? hc
  obtain ⟨hslices, ⟨rfl, rfl⟩ | ⟨rfl, rfl⟩⟩ := (h.isOuter_layered hm hapart hc _).mp houter
  · exact Or.inl ⟨rfl, h.indicator_bottom hm hcmem⟩
  · have hlast : slices - 1 = slices - 2 + 1 := by omega
    rw [hlast]
    exact Or.inr ⟨rfl, h.indicator_top hm hcmem⟩

/-- The boundary faces of an extruded mesh, by what lies below them. -/
theorem Extrudes.mem_boundaryFaces (h : m.Extrudes slices m') (hm : m.CellsValid)
    (hapart : m.CellsApart) (hslices : 2 ≤ slices) {b : BoundaryFace} :
    b ∈ m'.boundaryFaces ↔
      (∃ f ∈ m.boundaryFaces, ∃ k < slices - 1,
        b = ⟨f.toFaceRef.inLayer m.cells.length k, f.indicator⟩) ∨
      (∃ i < m.cells.length, b = ⟨⟨i, 4⟩, m.maxIndicator + 1⟩) ∨
      ∃ i < m.cells.length,
        b = ⟨FaceRef.inLayer ⟨i, 5⟩ m.cells.length (slices - 2), m.maxIndicator + 2⟩ := by
  obtain ⟨r, id⟩ := b
  rw [Mesh.mem_boundaryFaces]
  constructor
  · intro hb
    obtain ⟨key, houter, hid⟩ := hb
    replace houter : m'.IsOuter r key := houter
    replace hid : m'.indicator key = id := hid
    obtain ⟨k, hk, ⟨i, face⟩, c, hc, hlt, -, rfl⟩ := h.hasFace_iff.mp houter.1
    have hi : i < m.cells.length := (List.getElem?_eq_some_iff.mp hc).1
    -- A lower face of one hexahedron may be the upper face of another, so both kinds lead
    -- to the same two ends.
    have hends : ∀ layer, (m.hexahedron k c).faceKey face =
        Key.ofList (c.toList.map (m.layered layer)) →
        r = ⟨i, 4⟩ ∧ id = m.maxIndicator + 1 ∨
          r = FaceRef.inLayer ⟨i, 5⟩ m.cells.length (slices - 2) ∧ id = m.maxIndicator + 2 := by
      intro layer hkey
      rw [← hid, hkey]
      exact h.isOuter_ends hm hapart hc (hkey ▸ houter)
    rcases m.faceKey_hexahedron k c hlt with ⟨hside, hkey⟩ | ⟨-, hkey⟩ | ⟨-, hkey⟩
    · have he : m.HasFace ⟨i, face⟩ (c.faceKey face) := ⟨c, hc, hside, rfl⟩
      replace hkey : (m.hexahedron k c).faceKey face =
        Key.ofList (m.lateral k (c.faceKey face)) := hkey
      rw [hkey] at houter hid
      obtain ⟨t, ht, rfl⟩ := (h.isOuter_lateral hm hk he).mp houter
      rw [h.indicator_lateral hm hk ht] at hid
      exact Or.inl ⟨⟨t, id⟩, Mesh.mem_boundaryFaces.mpr ⟨_, ht, hid⟩, k, hk, rfl⟩
    · rcases hends _ hkey with ⟨rfl, rfl⟩ | ⟨rfl, rfl⟩
      · exact Or.inr (Or.inl ⟨i, hi, rfl⟩)
      · exact Or.inr (Or.inr ⟨i, hi, rfl⟩)
    · rcases hends _ hkey with ⟨rfl, rfl⟩ | ⟨rfl, rfl⟩
      · exact Or.inr (Or.inl ⟨i, hi, rfl⟩)
      · exact Or.inr (Or.inr ⟨i, hi, rfl⟩)
  · intro hb
    rcases hb with ⟨f, hf, k, hk, hb⟩ | ⟨i, hi, hb⟩ | ⟨i, hi, hb⟩ <;>
      obtain ⟨rfl, rfl⟩ := BoundaryFace.mk.inj hb
    · obtain ⟨e, houter, hid⟩ := Mesh.mem_boundaryFaces.mp hf
      refine ⟨_, (h.isOuter_lateral hm hk houter.1).mpr ⟨_, houter, rfl⟩, ?_⟩
      rw [h.indicator_lateral hm hk houter]
      exact hid
    · have hc : m.cells[i]? = some m.cells[i] := List.getElem?_eq_getElem hi
      refine ⟨_, (h.isOuter_layered hm hapart hc 0).mpr ⟨hslices, Or.inl ⟨rfl, rfl⟩⟩, ?_⟩
      exact h.indicator_bottom hm (List.mem_of_getElem? hc)
    · have hc : m.cells[i]? = some m.cells[i] := List.getElem?_eq_getElem hi
      have hlast : slices - 2 + 1 = slices - 1 := by omega
      refine ⟨_, (h.isOuter_layered hm hapart hc (slices - 2 + 1)).mpr
        ⟨hslices, Or.inr ⟨hlast, rfl⟩⟩, ?_⟩
      exact h.indicator_top hm (List.mem_of_getElem? hc)

/-- An extruded mesh stores an indicator for each face on its boundary and for nothing else. -/
theorem Extrudes.indicatorsOuter (h : m.Extrudes slices m') (hm : m.CellsValid)
    (hapart : m.CellsApart) (hslices : 2 ≤ slices) : m'.IndicatorsOuter := by
  have hlast : slices - 1 = slices - 2 + 1 := by omega
  intro k
  rw [h.indicators, KeyMap.mem_ofEntries]
  constructor
  · intro hk
    obtain ⟨i, hi⟩ := hk
    rcases mem_extrudedIndicators.mp hi with
      ⟨r, l, layer, hlayer, hl, he⟩ | ⟨c, hc, he⟩ | ⟨c, hc, he⟩
    · obtain ⟨rfl, -⟩ := Prod.mk.inj he
      exact ⟨_, (h.isOuter_lateral hm hlayer hl.1).mpr ⟨r, hl, rfl⟩⟩
    · obtain ⟨j, hj⟩ := List.mem_iff_getElem?.mp hc
      rw [(Prod.mk.inj he).1, faceKey_hexahedron_lower]
      exact ⟨_, (h.isOuter_layered hm hapart hj 0).mpr ⟨hslices, Or.inl ⟨rfl, rfl⟩⟩⟩
    · obtain ⟨j, hj⟩ := List.mem_iff_getElem?.mp hc
      rw [(Prod.mk.inj he).1, faceKey_hexahedron_upper]
      exact ⟨_, (h.isOuter_layered hm hapart hj _).mpr ⟨hslices, Or.inr ⟨hlast.symm, rfl⟩⟩⟩
  · intro hk
    obtain ⟨r, houter⟩ := hk
    obtain ⟨layer, hlayer, ⟨i, face⟩, c, hc, hlt, -, rfl⟩ := h.hasFace_iff.mp houter.1
    have hcmem := List.mem_of_getElem? hc
    have hends : ∀ layer, m'.IsOuter r (Key.ofList (c.toList.map (m.layered layer))) →
        ∃ i, (Key.ofList (c.toList.map (m.layered layer)), i) ∈ m.extrudedIndicators slices := by
      intro layer houter
      obtain ⟨-, ⟨rfl, -⟩ | ⟨rfl, -⟩⟩ := (h.isOuter_layered hm hapart hc layer).mp houter
      · rw [← faceKey_hexahedron_lower]
        exact ⟨_, mem_extrudedIndicators.mpr (Or.inr (Or.inl ⟨c, hcmem, rfl⟩))⟩
      · rw [hlast, ← faceKey_hexahedron_upper]
        exact ⟨_, mem_extrudedIndicators.mpr (Or.inr (Or.inr ⟨c, hcmem, rfl⟩))⟩
    rcases m.faceKey_hexahedron layer c hlt with ⟨hside, hkey⟩ | ⟨-, hkey⟩ | ⟨-, hkey⟩ <;>
      rw [hkey] at houter ⊢
    · have he : m.HasFace ⟨i, face⟩ (c.faceKey face) := ⟨c, hc, hside, rfl⟩
      obtain ⟨t, ht, -⟩ := (h.isOuter_lateral hm hlayer he).mp houter
      exact ⟨_, mem_extrudedIndicators.mpr (Or.inl ⟨t, _, layer, hlayer, ht, rfl⟩)⟩
    · exact hends _ houter
    · exact hends _ houter

variable [Scalar K] {height : K}

theorem exists_extrudes (hslices : 2 ≤ slices) (hheight : ¬height ≤ ((0 : Nat) : K))
    (hmax : m.maxIndicator.toNat + 2 < 2 ^ 32) :
    ∃ m', m.extrude slices height = .ok m' ∧ m.Extrudes slices m' ∧
      m'.vertices = ((List.range slices).flatMap fun k : Nat =>
        m.vertices.toList.map fun p => Point.xyz p.abscissa p.ordinate
          (height * (k : K) / ((slices - 1 : Nat) : K))).toArray := by
  have hroom : ¬UInt32.size ≤ m.maxIndicator.toNat + 2 := Nat.not_le.mpr hmax
  rw [extrude, if_neg (Nat.not_lt.mpr hslices), if_neg hheight, if_neg hroom]
  exact ⟨_, rfl, ⟨rfl, rfl, rfl⟩, rfl⟩

theorem extrude_overflow (hslices : 2 ≤ slices) (hheight : ¬height ≤ ((0 : Nat) : K))
    (hmax : 2 ^ 32 ≤ m.maxIndicator.toNat + 2) :
    m.extrude slices height = .error (.indicatorOverflow m.maxIndicator.toNat) := by
  rw [extrude, if_neg (Nat.not_lt.mpr hslices), if_neg hheight]
  exact if_pos hmax

theorem bounds_of_extrude (h : m.extrude slices height = .ok m') :
    2 ≤ slices ∧ ¬height ≤ ((0 : Nat) : K) ∧ m.maxIndicator.toNat + 2 < 2 ^ 32 := by
  unfold extrude at h
  split_ifs at h with hslices hheight hmax
  exact ⟨Nat.not_lt.mp hslices, hheight, Nat.not_le.mp hmax⟩

/-- With two layers or more and a height, all that is needed are two more indicators. -/
theorem exists_extrude_iff (hslices : 2 ≤ slices) (hheight : ¬height ≤ ((0 : Nat) : K)) :
    (∃ m', m.extrude slices height = .ok m') ↔ m.maxIndicator.toNat + 2 < 2 ^ 32 := by
  constructor
  · rintro ⟨m', h⟩
    exact (bounds_of_extrude h).2.2
  · exact fun hmax => (exists_extrudes hslices hheight hmax).imp fun _ h => h.1

theorem extrudes_of_extrude (h : m.extrude slices height = .ok m') :
    2 ≤ slices ∧ m.Extrudes slices m' ∧
      m'.vertices = ((List.range slices).flatMap fun k : Nat =>
        m.vertices.toList.map fun p => Point.xyz p.abscissa p.ordinate
          (height * (k : K) / ((slices - 1 : Nat) : K))).toArray := by
  obtain ⟨hslices, hheight, hmax⟩ := bounds_of_extrude h
  obtain ⟨m'', hm'', hextrudes, hvertices⟩ := exists_extrudes hslices hheight hmax
  cases h.symm.trans hm''
  exact ⟨hslices, hextrudes, hvertices⟩

/-- What becomes of a plane mesh that is swept along the third axis.  Cell `i` gives one
hexahedron in each layer, and the boundary consists of the faces above the boundary edges,
which keep the indicators of the edges, the faces below the lowest cells and the faces above
the highest ones.  Heights are computed in the arithmetic of the scalars, and are exact when
that is. -/
theorem extrude_boundaryFaces (hm : m.CellsValid) (hapart : m.CellsApart) (hslices : 2 ≤ slices)
    (hheight : ¬height ≤ ((0 : Nat) : K)) (hmax : m.maxIndicator.toNat + 2 < 2 ^ 32) :
    (∀ b ∈ m.boundaryFaces, b.indicator ≤ m.maxIndicator) ∧
    (m.maxIndicator = 0 ∨ ∃ b ∈ m.boundaryFaces, b.indicator = m.maxIndicator) ∧
    ∃ (m' : Mesh K 3) (bottom top : Indicator), m.extrude slices height = .ok m' ∧
      bottom.toNat = m.maxIndicator.toNat + 1 ∧ top.toNat = m.maxIndicator.toNat + 2 ∧
      m'.vertices.size = slices * m.vertices.size ∧
      m'.cells.length = (slices - 1) * m.cells.length ∧
      (∀ k < slices, ∀ v p, m.vertices[v]? = some p →
        m'.vertices[k * m.vertices.size + v]? = some
          (Point.xyz p.abscissa p.ordinate (height * (k : K) / ((slices - 1 : Nat) : K)))) ∧
      (∀ k < slices - 1, ∀ i c, m.cells[i]? = some c →
        ∃ hexahedron, m'.cells[k * m.cells.length + i]? = some hexahedron ∧
          hexahedron.toList = c.toList.map (k * m.vertices.size + ·) ++
            c.toList.map ((k + 1) * m.vertices.size + ·)) ∧
      ∀ b, b ∈ m'.boundaryFaces ↔
        (∃ f ∈ m.boundaryFaces, ∃ k < slices - 1,
          b = ⟨⟨k * m.cells.length + f.cell, f.face⟩, f.indicator⟩) ∨
        (∃ i < m.cells.length, b = ⟨⟨i, 4⟩, bottom⟩) ∨
        ∃ i < m.cells.length, b = ⟨⟨(slices - 2) * m.cells.length + i, 5⟩, top⟩ := by
  obtain ⟨m', hm', h, hvertices⟩ := exists_extrudes hslices hheight hmax
  refine ⟨fun b => le_maxIndicator, m.maxIndicator_attained, m', m.maxIndicator + 1,
    m.maxIndicator + 2, hm', ?_, ?_, ?_, h.length_cells, ?_, ?_, ?_⟩
  · rw [UInt32.toNat_add]
    exact Nat.mod_eq_of_lt (Nat.lt_trans (Nat.lt_succ_self _) hmax)
  · rw [UInt32.toNat_add]
    exact Nat.mod_eq_of_lt hmax
  · rw [hvertices, List.size_toArray, List.length_flatMap]
    simp
  · intro k hk v p hp
    obtain ⟨hv, -⟩ := Array.getElem?_eq_some_iff.mp hp
    rw [hvertices, List.getElem?_toArray, getElem?_flatMap_of_length (n := m.vertices.size)
      (fun k => by simp) _ _ _ hv, List.getElem?_range hk, Option.bind_some, List.getElem?_map,
      Array.getElem?_toList, hp]
    rfl
  · intro k hk i c hc
    refine ⟨m.hexahedron k c, ?_, m.toList_hexahedron k c⟩
    rw [h.getElem?_cells hk (List.getElem?_eq_some_iff.mp hc).1, hc]
    rfl
  · exact fun b => h.mem_boundaryFaces hm hapart hslices

/-- Two squares side by side with a triangle attached, whose last corner is repeated. -/
def stripWithTip : Mesh ℚ 2 :=
  { vertices := #[.xy 0 0, .xy 1 0, .xy 2 0, .xy 0 1, .xy 1 1, .xy 2 1, .xy 3 0]
    cells := [#v[0, 1, 3, 4], #v[1, 2, 4, 5], #v[2, 6, 5, 5]]
    indicators := KeyMap.ofEntries [([0, 3], 7), ([2, 6], 4294967293)] }

theorem extrude_boundaryFaces_strip :
    stripWithTip.CellsValid ∧ stripWithTip.CellsApart ∧ 2 ≤ 3 ∧ ¬(5 / 2 : ℚ) ≤ ((0 : Nat) : ℚ) ∧
      stripWithTip.maxIndicator.toNat + 2 < 2 ^ 32 ∧
      ∃ (m' : Mesh ℚ 3) (bottom top : Indicator), stripWithTip.extrude 3 (5 / 2) = .ok m' ∧
        bottom.toNat = stripWithTip.maxIndicator.toNat + 1 ∧
        top.toNat = stripWithTip.maxIndicator.toNat + 2 ∧
        m'.vertices.size = 21 ∧ m'.cells.length = 6 := by
  have hm : stripWithTip.CellsValid := by decide +kernel
  have hapart : stripWithTip.CellsApart := by decide +kernel
  have hheight : ¬(5 / 2 : ℚ) ≤ ((0 : Nat) : ℚ) := by norm_num
  have hmax : stripWithTip.maxIndicator.toNat + 2 < 2 ^ 32 := by decide +kernel
  obtain ⟨-, -, m', bottom, top, hm', hbottom, htop, hvertices, hcells, -⟩ :=
    extrude_boundaryFaces hm hapart (show 2 ≤ 3 by decide) hheight hmax
  exact ⟨hm, hapart, by decide, hheight, hmax, m', bottom, top, hm', hbottom, htop, hvertices,
    hcells⟩

end Mesh
end HexMesh
