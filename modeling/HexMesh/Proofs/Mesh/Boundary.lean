import HexMesh.Mesh.Boundary
import HexMesh.Proofs.Topology.Key
import Mathlib.Data.List.Nodup

/-!
Which faces lie on the boundary.

`Mesh.IsOuter` says in terms of single faces what the tally of keys computes: a
face is on the boundary when no other face has its key.  Everything that is
listed or counted along the boundary is described by this relation.
-/

namespace HexMesh

/-- One face comes before another one in the order of cells and of faces within a cell. -/
def FaceRef.Before (r s : FaceRef) : Prop := r.cell < s.cell ∨ r.cell = s.cell ∧ r.face < s.face

theorem FaceRef.Before.ne {r s : FaceRef} (h : r.Before s) : r ≠ s := by
  intro hx
  subst hx
  unfold FaceRef.Before at h
  omega

theorem FaceRef.Before.face_lt {r s : FaceRef} (h : r.Before s) (hcell : r.cell = s.cell) :
    r.face < s.face := by
  unfold FaceRef.Before at h
  omega

theorem FaceRef.Before.asymm {r s : FaceRef} (h : r.Before s) : ¬s.Before r := by
  unfold FaceRef.Before at *
  omega

namespace Mesh

variable {K : Type} {d : Nat}

/-- The mesh has a face with this reference, and this is its key. -/
def HasFace (m : Mesh K d) (r : FaceRef) (k : Key) : Prop :=
  ∃ c, m.cells[r.cell]? = some c ∧ r.face < Cube.faceCount d ∧ c.faceKey r.face = k

/-- The face lies on the boundary: no other face of the mesh has its key. -/
def IsOuter (m : Mesh K d) (r : FaceRef) (k : Key) : Prop :=
  m.HasFace r k ∧ ∀ s, m.HasFace s k → s = r

theorem IsOuter.face_lt {m : Mesh K d} {r : FaceRef} {k : Key} (h : m.IsOuter r k) :
    r.face < Cube.faceCount d := by
  obtain ⟨⟨c, -, hface, -⟩, -⟩ := h
  exact hface

/-- Which faces are on the boundary is a matter of the cells. -/
theorem isOuter_congr {K' : Type} {m : Mesh K d} {m' : Mesh K' d} (h : m.cells = m'.cells)
    {r : FaceRef} {k : Key} : m.IsOuter r k ↔ m'.IsOuter r k := by
  simp only [IsOuter, HasFace, h]

theorem HasFace.key_eq {m : Mesh K d} {r : FaceRef} {k l : Key} (hk : m.HasFace r k)
    (hl : m.HasFace r l) : k = l := by
  obtain ⟨c, hc, -, rfl⟩ := hk
  obtain ⟨c', hc', -, rfl⟩ := hl
  rw [hc] at hc'
  cases hc'
  rfl

theorem mem_faces {m : Mesh K d} {r : FaceRef} {k : Key} : (r, k) ∈ m.faces ↔ m.HasFace r k := by
  simp only [faces, List.mem_flatMap, List.mem_map, List.mem_range, Prod.mk.injEq]
  constructor
  · intro h
    obtain ⟨⟨c, i⟩, hc, f, hf, rfl, rfl⟩ := h
    exact ⟨c, List.mem_zipIdx_iff_getElem?.mp hc, hf, rfl⟩
  · intro h
    obtain ⟨c, hc, hf, rfl⟩ := h
    exact ⟨(c, r.cell), List.mem_zipIdx_iff_getElem?.mpr hc, r.face, hf, rfl, rfl⟩

theorem pairwise_faces (m : Mesh K d) : m.faces.Pairwise fun f g => f.1.Before g.1 := by
  unfold faces
  refine List.pairwise_flatMap.mpr ⟨fun ⟨c, i⟩ _ => ?_, ?_⟩
  · refine List.pairwise_map.mpr (List.pairwise_lt_range.imp fun h => ?_)
    exact Or.inr ⟨rfl, h⟩
  · have hnumbers : (m.cells.zipIdx.map (·.2)).Pairwise (· < ·) := by
      rw [List.zipIdx_map_snd]
      exact List.pairwise_lt_range'
    apply (List.pairwise_map.mp hnumbers).imp
    intro c e h x hx y hy
    obtain ⟨f, -, rfl⟩ := List.mem_map.mp hx
    obtain ⟨g, -, rfl⟩ := List.mem_map.mp hy
    exact Or.inl h

theorem nodup_faces (m : Mesh K d) : m.faces.Nodup :=
  m.pairwise_faces.imp fun h he => h.ne (congrArg Prod.fst he)

/-- A key has one owner when exactly one face has it. -/
theorem owners_eq_one_iff {m : Mesh K d} {k : Key} :
    m.owners.getD k 0 = 1 ↔ ∃ r, m.IsOuter r k := by
  rw [owners, KeyMap.getD_tally, List.count, List.countP_map, List.countP_eq_length_filter,
    List.length_eq_one_iff]
  constructor
  · intro h
    obtain ⟨⟨r, l⟩, hsingle⟩ := h
    have hmem : ∀ s, m.HasFace s k ↔ (s, k) = (r, l) := by
      intro s
      rw [← List.mem_singleton, ← hsingle, List.mem_filter, mem_faces]
      simp
    have hl : l = k := by
      have hself : (r, l) ∈ m.faces.filter ((· == k) ∘ (·.2)) := by simp [hsingle]
      simpa using (List.mem_filter.mp hself).2
    subst hl
    exact ⟨r, (hmem r).mpr rfl, fun s hs => congrArg Prod.fst ((hmem s).mp hs)⟩
  · intro h
    obtain ⟨r, hface, honly⟩ := h
    refine ⟨(r, k), List.perm_singleton.mp ?_⟩
    refine (List.perm_ext_iff_of_nodup (m.nodup_faces.filter _) (List.nodup_singleton _)).mpr ?_
    intro h
    obtain ⟨s, l⟩ := h
    rw [List.mem_filter, List.mem_singleton, mem_faces]
    constructor
    · intro h
      obtain ⟨hs, hl⟩ := h
      have hl : l = k := by simpa using hl
      subst hl
      rw [honly s hs]
    · intro he
      cases he
      exact ⟨hface, by simp⟩

theorem mem_outerFaces {m : Mesh K d} {r : FaceRef} {k : Key} :
    (r, k) ∈ m.outerFaces ↔ m.IsOuter r k := by
  unfold outerFaces
  rw [List.mem_filter, mem_faces, beq_iff_eq, owners_eq_one_iff]
  constructor
  · intro hx
    obtain ⟨hface, s, -, honly⟩ := hx
    have hrs := honly r hface
    subst hrs
    exact ⟨hface, honly⟩
  · intro h
    exact ⟨h.1, r, h⟩

theorem mem_boundaryFaces {m : Mesh K d} {b : BoundaryFace} :
    b ∈ m.boundaryFaces ↔ ∃ k, m.IsOuter b.toFaceRef k ∧ m.indicator k = b.indicator := by
  unfold boundaryFaces
  rw [List.mem_map]
  constructor
  · intro h
    obtain ⟨⟨r, k⟩, hmem, rfl⟩ := h
    exact ⟨k, mem_outerFaces.mp hmem, rfl⟩
  · intro h
    obtain ⟨k, houter, hindicator⟩ := h
    refine ⟨(b.toFaceRef, k), mem_outerFaces.mpr houter, ?_⟩
    rw [hindicator]

theorem indicator_eq_of_mem_boundaryFaces {m : Mesh K d} {b c : BoundaryFace}
    (hb : b ∈ m.boundaryFaces) (hc : c ∈ m.boundaryFaces) (h : b.toFaceRef = c.toFaceRef) :
    b.indicator = c.indicator := by
  obtain ⟨k, hk, hb⟩ := mem_boundaryFaces.mp hb
  obtain ⟨l, hl, hc⟩ := mem_boundaryFaces.mp hc
  have hkl := hk.1.key_eq (h ▸ hl.1)
  rw [← hb, ← hc, hkl]

/-- An indicator is stored for each face on the boundary and for nothing else. -/
def IndicatorsOuter (m : Mesh K d) : Prop := ∀ k, k ∈ m.indicators ↔ ∃ r, m.IsOuter r k

/-- Then the boundary shows all that is stored. -/
theorem IndicatorsOuter.indicators_eq {m m' : Mesh K d} (h : m.IndicatorsOuter)
    (h' : m'.IndicatorsOuter) (hcells : m.cells = m'.cells)
    (hboundary : ∀ b ∈ m.boundaryFaces, b ∈ m'.boundaryFaces) : m.indicators = m'.indicators := by
  have houter (r : FaceRef) (k : Key) : m'.IsOuter r k ↔ m.IsOuter r k := isOuter_congr hcells.symm
  have hstored {m : Mesh K d} {k : Key} (hk : k ∈ m.indicators) :
      m.indicators[k]? = some (m.indicator k) := by
    rw [indicator, Std.ExtTreeMap.getD_eq_getD_getElem?]
    obtain ⟨i, hi⟩ := Option.isSome_iff_exists.mp (Std.ExtTreeMap.mem_iff_isSome_getElem?.mp hk)
    rw [hi]
    rfl
  refine Std.ExtTreeMap.ext_getElem? fun k => ?_
  by_cases hk : ∃ r, m.IsOuter r k
  · rw [hstored ((h k).mpr hk),
      hstored ((h' k).mpr (hk.imp fun r hr => (houter r k).mpr hr))]
    obtain ⟨r, hr⟩ := hk
    have hb := hboundary ⟨r, m.indicator k⟩ (mem_boundaryFaces.mpr ⟨k, hr, rfl⟩)
    have hb' : ⟨r, m'.indicator k⟩ ∈ m'.boundaryFaces :=
      mem_boundaryFaces.mpr ⟨k, (houter r k).mpr hr, rfl⟩
    exact congrArg some (indicator_eq_of_mem_boundaryFaces hb hb' rfl)
  · have hk' : ¬∃ r, m'.IsOuter r k := fun hx => hk (hx.imp fun r hr => (houter r k).mp hr)
    rw [Std.ExtTreeMap.getElem?_eq_none (mt (h k).mp hk),
      Std.ExtTreeMap.getElem?_eq_none (mt (h' k).mp hk')]

theorem face_lt_of_mem_boundaryFaces {m : Mesh K d} {b : BoundaryFace} (hb : b ∈ m.boundaryFaces) :
    b.face < Cube.faceCount d := by
  obtain ⟨k, houter, -⟩ := mem_boundaryFaces.mp hb
  exact houter.face_lt

theorem cell_lt_of_mem_boundaryFaces {m : Mesh K d} {b : BoundaryFace} (hb : b ∈ m.boundaryFaces) :
    b.cell < m.cells.length := by
  obtain ⟨k, ⟨⟨c, hc, -, -⟩, -⟩, -⟩ := mem_boundaryFaces.mp hb
  exact (List.getElem?_eq_some_iff.mp hc).1

theorem pairwise_boundaryFaces (m : Mesh K d) :
    m.boundaryFaces.Pairwise fun b c => b.toFaceRef.Before c.toFaceRef := by
  unfold boundaryFaces outerFaces
  exact List.pairwise_map.mpr (m.pairwise_faces.filter _)

theorem nodup_boundaryFaces (m : Mesh K d) : m.boundaryFaces.Nodup :=
  m.pairwise_boundaryFaces.imp fun h he => h.ne (congrArg BoundaryFace.toFaceRef he)

theorem of_foldl_maxIndicator {bs : List BoundaryFace} {i top : Indicator}
    (h : bs.foldl (fun i f => if i < f.indicator then f.indicator else i) i = top) :
    i ≤ top ∧ (∀ b ∈ bs, b.indicator ≤ top) ∧ (top = i ∨ ∃ b ∈ bs, b.indicator = top) := by
  induction bs generalizing i with
  | nil => simp [← h]
  | cons b rest ih =>
    rw [List.foldl_cons] at h
    obtain ⟨hstart, hall, hattained⟩ := ih h
    by_cases hb : i < b.indicator
    · rw [if_pos hb] at hstart hattained
      refine ⟨UInt32.le_trans (UInt32.le_of_lt hb) hstart, ?_, ?_⟩
      · simpa using ⟨hstart, hall⟩
      · rcases hattained with rfl | ⟨c, hc, h⟩
        · exact Or.inr ⟨b, List.mem_cons_self, rfl⟩
        · exact Or.inr ⟨c, List.mem_cons_of_mem b hc, h⟩
    · rw [if_neg hb] at hstart hattained
      refine ⟨hstart, ?_, ?_⟩
      · simpa using ⟨UInt32.le_trans (UInt32.not_lt.mp hb) hstart, hall⟩
      · exact hattained.imp_right fun ⟨c, hc, h⟩ => ⟨c, List.mem_cons_of_mem b hc, h⟩

theorem le_maxIndicator {m : Mesh K d} {b : BoundaryFace} (hb : b ∈ m.boundaryFaces) :
    b.indicator ≤ m.maxIndicator :=
  (of_foldl_maxIndicator rfl).2.1 b hb

theorem maxIndicator_attained (m : Mesh K d) :
    m.maxIndicator = 0 ∨ ∃ b ∈ m.boundaryFaces, b.indicator = m.maxIndicator :=
  (of_foldl_maxIndicator rfl).2.2

theorem maxIndicator_congr {K' : Type} {d' : Nat} {m : Mesh K d} {m' : Mesh K' d'}
    (h : ∀ i, (∃ b ∈ m.boundaryFaces, b.indicator = i) ↔ ∃ b ∈ m'.boundaryFaces, b.indicator = i) :
    m.maxIndicator = m'.maxIndicator := by
  have hle {K K' : Type} {d d' : Nat} {m : Mesh K d} {m' : Mesh K' d'}
      (h : ∀ b ∈ m.boundaryFaces, ∃ b' ∈ m'.boundaryFaces, b'.indicator = b.indicator) :
      m.maxIndicator ≤ m'.maxIndicator := by
    rcases m.maxIndicator_attained with hzero | ⟨b, hb, hmax⟩
    · rw [hzero]
      exact UInt32.zero_le
    · obtain ⟨b', hb', hsame⟩ := h b hb
      rw [← hmax, ← hsame]
      exact le_maxIndicator hb'
  exact UInt32.le_antisymm (hle fun b hb => (h _).mp ⟨b, hb, rfl⟩)
    (hle fun b hb => (h _).mpr ⟨b, hb, rfl⟩)

theorem getElem?_indicatorCounts (m : Mesh K d) (i : Indicator) :
    m.indicatorCounts[i]? =
      if m.boundaryFaces.countP (·.indicator = i) = 0 then none
      else some (m.boundaryFaces.countP (·.indicator = i)) := by
  rw [indicatorCounts, KeyMap.getElem?_foldl_tally BoundaryFace.indicator]
  simp

end Mesh
end HexMesh
