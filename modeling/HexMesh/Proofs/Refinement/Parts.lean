import HexMesh.Proofs.Geometry.Length
import HexMesh.Proofs.Refinement.Curved

/-!
The vertices on a part of the boundary.

A vertex that refinement creates lies on a part of the boundary exactly when the piece in
whose middle it was created lies in a face of that part, and this does not change when the
mesh is refined further.  So with one shape for one part, whatever rule it is, the shape has
placed the new vertices of that part and no others.  It does not matter that an edge of the part may also
belong to faces of other parts, which are flat.
-/

namespace HexMesh

open HexMesh.Cube

namespace Mesh

variable {K : Type} {d : Nat} {m : Mesh K d} {i : Indicator} {k : Key} {v n : Nat} {r : FaceRef}
  {s : Shape K d}

/-- The vertices lie on one boundary face with this indicator. -/
def OnPart (m : Mesh K d) (i : Indicator) (vs : List Nat) : Prop :=
  ∃ b ∈ m.boundaryFaces, b.indicator = i ∧ ∃ k, m.HasFace b.toFaceRef k ∧ vs ⊆ k

/-- Refining the mesh once creates this vertex between the vertices of the key. -/
structure Creates (m : Mesh K d) (k : Key) (v : Nat) : Prop where
  piece : m.IsPiece k
  length : 1 < k.length
  middle : m.middle k = v

/-! ## Vertices of faces -/

theorem FaceHolds.subset (h : m.FaceHolds r k) (hface : r.face < faceCount d) :
    ∃ l, m.HasFace r l ∧ k ⊆ l := by
  obtain ⟨c, hc, hk⟩ := h
  exact ⟨_, ⟨c, hc, hface, rfl⟩, Cell.subset_faceKey hface hk⟩

theorem HasFace.faceHolds_singleton (h : m.HasFace r k) (hv : v ∈ k) : m.FaceHolds r [v] := by
  obtain ⟨c, hc, hface, rfl⟩ := h
  obtain ⟨w, hw, rfl⟩ := Cell.mem_faceKey.mp hv
  exact ⟨c, hc, _, childPoint_lt w w, (latticeOnFace_childPoint hface w w).mpr ⟨hw, hw⟩,
    c.latticeKey_self w⟩

theorem onPart_singleton_iff :
    m.OnPart i [v] ↔ ∃ b ∈ m.boundaryFaces, b.indicator = i ∧ m.FaceHolds b.toFaceRef [v] := by
  refine exists_congr fun b => and_congr_right fun hb => and_congr_right fun _ => ?_
  constructor
  · rintro ⟨k, hk, hv⟩
    exact hk.faceHolds_singleton (hv List.mem_cons_self)
  · exact fun h => h.subset (face_lt_of_mem_boundaryFaces hb)

/-! ## One refinement -/

variable [Scalar K]

theorem onPart_refineOnce (hd : d ≤ 3) (hm : m.Regular) :
    m.refineOnce.OnPart i [v] ↔ ∃ b ∈ m.boundaryFaces, b.indicator = i ∧
      ∃ k, m.FaceHolds b.toFaceRef k ∧ m.middle k = v := by
  have hboundary {b : BoundaryFace} :=
    mem_boundaryFaces_refineOnce (b := b) hm.valid hm.distinct (hm.piecesConform hd)
  constructor
  · rintro ⟨b', hb', rfl, l, hl, hv⟩
    obtain ⟨b, hb, w, hw, rfl⟩ := hboundary.mp hb'
    have hface := face_lt_of_mem_boundaryFaces hb
    obtain ⟨c, hc⟩ : ∃ c, m.cells[b.cell]? = some c :=
      ⟨_, List.getElem?_eq_getElem (cell_lt_of_mem_boundaryFaces hb)⟩
    have hchild : m.refineOnce.HasFace (b.toFaceRef.child w)
        ((m.childCell m.newKeys c w).faceKey b.face) :=
      hasFace_refineOnce.mpr ⟨b.toFaceRef, w, c, hc, hface, rfl, rfl⟩
    obtain rfl := hl.key_eq hchild
    obtain ⟨k, hk, -, hmiddle⟩ :=
      (mem_faceKey_child hm.distinct hc hface hw).mp (hv List.mem_cons_self)
    exact ⟨b, hb, rfl, k, hk, hmiddle⟩
  · rintro ⟨b, hb, rfl, k, hk, rfl⟩
    have hface := face_lt_of_mem_boundaryFaces hb
    obtain ⟨c, hc, p, hp, hon, rfl⟩ := hk
    obtain ⟨w, hw⟩ := exists_supports (d := d) (p := p)
    have honFace := onFace_of_supports hface hon hw
    refine ⟨b.child w, hboundary.mpr ⟨b, hb, w, honFace, rfl⟩, rfl, _,
      hasFace_refineOnce.mpr ⟨b.toFaceRef, w, c, hc, hface, rfl, rfl⟩, fun u hu => ?_⟩
    rw [List.mem_singleton.mp hu]
    exact (mem_faceKey_child hm.distinct hc hface honFace).mpr
      ⟨_, ⟨c, hc, p, hp, hon, rfl⟩, Cell.mem_latticeKey.mpr ⟨w, hw, rfl⟩, rfl⟩

theorem Creates.onPart_iff (h : m.Creates k v) (hd : d ≤ 3) (hm : m.Regular) :
    m.refineOnce.OnPart i [v] ↔
      ∃ b ∈ m.boundaryFaces, b.indicator = i ∧ m.FaceHolds b.toFaceRef k := by
  rw [onPart_refineOnce hd hm]
  refine exists_congr fun b => and_congr_right fun _ => and_congr_right fun _ => ?_
  constructor
  · rintro ⟨l, hl, hmiddle⟩
    rwa [← injOn_middle hm.valid hl.isPiece h.piece (hmiddle.trans h.middle.symm)]
  · exact fun hk => ⟨k, hk, h.middle⟩

/-- Old vertices stay on the parts on which they are, and come to no others. -/
theorem onPart_refineOnce_of_lt (hd : d ≤ 3) (hm : m.Regular) (hv : v < m.vertices.size) :
    m.refineOnce.OnPart i [v] ↔ m.OnPart i [v] := by
  rw [onPart_refineOnce hd hm, onPart_singleton_iff]
  refine exists_congr fun b => and_congr_right fun _ => and_congr_right fun _ => ?_
  constructor
  · rintro ⟨k, hk, rfl⟩
    rcases hk.isPiece.singleton_or_length with ⟨w, rfl⟩ | hlength
    · exact hk
    · rw [middle_of_length hlength] at hv
      omega
  · exact fun hk => ⟨[v], hk, m.middle_singleton v⟩

theorem exists_creates (hm : m.CellsValid) (hlow : m.vertices.size ≤ v)
    (hhigh : v < m.refineOnce.vertices.size) : ∃ k, m.Creates k v := by
  obtain ⟨k, ⟨hk, hlength⟩, hmiddle⟩ := (bijOn_middle hm).surjOn ⟨hlow, hhigh⟩
  exact ⟨k, hk, hlength, hmiddle⟩

theorem Creates.position_eq (h : m.Creates k v) :
    m.refineOnce.position v = m.newPosition m.curvedKeys k := by
  rw [position, ← h.middle, getElem?_middle h.piece h.length]
  rfl

theorem position_refineOnce_of_lt (hv : v < m.vertices.size) :
    m.refineOnce.position v = m.position v := by
  rw [position, getElem?_vertices_refineOnce hv]
  rfl

/-- Where there is one shape, it places the vertices in its own part and no others. -/
theorem Creates.position_cases (h : m.Creates k v) (hd : d ≤ 3) (hm : m.Regular)
    (hshapes : ∀ j, m.shapes[j]? = if j = i then some s else none) :
    m.refineOnce.OnPart i [v] ∧ m.OnPart i k ∧
        m.refineOnce.position v = s.place (k.map m.position) ∨
      ¬m.refineOnce.OnPart i [v] ∧
        m.refineOnce.position v = Point.average (k.map m.position) := by
  have hbends (b : BoundaryFace) (t : Shape K d) :
      m.Bends b t k ↔
        b ∈ m.boundaryFaces ∧ b.indicator = i ∧ m.FaceHolds b.toFaceRef k ∧ t = s := by
    constructor
    · intro hb
      have hshape := hb.shape
      rw [hshapes] at hshape
      by_cases hi : b.indicator = i
      · rw [if_pos hi] at hshape
        exact ⟨hb.boundary, hi, hb.holds, (Option.some.inj hshape).symm⟩
      · rw [if_neg hi] at hshape
        cases hshape
    · rintro ⟨hb, hi, hk, rfl⟩
      exact ⟨hb, (hshapes _).trans (if_pos hi), hk⟩
  rw [h.onPart_iff hd hm, h.position_eq]
  -- Which face bends the piece last does not matter, since all that bend it have the one shape.
  by_cases hpart : ∃ b ∈ m.boundaryFaces, b.indicator = i ∧ m.FaceHolds b.toFaceRef k
  · refine Or.inl ⟨hpart, ?_, ?_⟩
    · obtain ⟨b, hb, hi, hk⟩ := hpart
      exact ⟨b, hb, hi, hk.subset (face_lt_of_mem_boundaryFaces hb)⟩
    · obtain ⟨b, hb, hi, hk⟩ := hpart
      obtain ⟨a, t, ha⟩ := ((hbends b s).mpr ⟨hb, hi, hk, rfl⟩).exists_bendsLast h.length
      rw [newPosition_of_bendsLast h.length ha, ((hbends a t).mp ha.toBends).2.2.2]
  · refine Or.inr ⟨hpart, newPosition_of_not_bends h.length fun b t hb => hpart ?_⟩
    obtain ⟨hb, hi, hk, -⟩ := (hbends b t).mp hb
    exact ⟨b, hb, hi, hk⟩

/-! ## Repeated refinement -/

/-- How a vertex of a refined mesh has come about: it was there, or some refinement created it.
Then the shape placed it if it lies on the part, between vertices that lay on one face of the
part, and otherwise it lies at the mean of its parents. -/
theorem refine_cases (hd : d ≤ 3) (hm : m.Regular)
    (hshapes : ∀ j, m.shapes[j]? = if j = i then some s else none)
    (hv : v < (m.refine n).vertices.size) :
    v < m.vertices.size ∧ (m.refine n).position v = m.position v ∨
      ∃ t < n, ∃ k, (m.refine t).Creates k v ∧
        ((m.refine n).OnPart i [v] ∧ (m.refine t).OnPart i k ∧
            (m.refine n).position v = s.place (k.map (m.refine t).position) ∨
          ¬(m.refine n).OnPart i [v] ∧
            (m.refine n).position v = Point.average (k.map (m.refine t).position)) := by
  induction n with
  | zero => exact Or.inl ⟨hv, rfl⟩
  | succ n ih =>
    -- What was there before the last refinement keeps its position and its parts.
    have hn := hm.refine n
    rw [refine_succ] at hv ⊢
    rcases Nat.lt_or_ge v (m.refine n).vertices.size with hold | hnew
    · rw [position_refineOnce_of_lt hold, onPart_refineOnce_of_lt hd hn hold]
      exact (ih hold).imp_right fun ⟨t, ht, h⟩ => ⟨t, Nat.lt_succ_of_lt ht, h⟩
    · obtain ⟨k, hk⟩ := exists_creates hn.valid hnew hv
      refine Or.inr ⟨n, Nat.lt_succ_self n, k, hk, hk.position_cases hd hn fun j => ?_⟩
      rw [shapes_refine]
      exact hshapes j

omit [Scalar K] in
/-- With a shape for one indicator only, the vertices that lie on boundary faces with this indicator
were there at first, or the shape placed them between vertices of one such face; all other new
vertices lie at the mean of their parents.  The shape may be any rule.  If it is a ball, and
coordinates are real numbers, what it has placed lies on the sphere unless the mean was next to the
center. -/
theorem refine_onPart (hd : d = 2 ∨ d = 3) (n : Nat) :
    (∀ (K : Type) [Scalar K] (m : Mesh K d) (i : Indicator) (s : Shape K d),
      m.Regular → (∀ j, m.shapes[j]? = if j = i then some s else none) →
      ∀ v < (m.refine n).vertices.size,
        v < m.vertices.size ∧ (m.refine n).position v = m.position v ∨
        ∃ t < n, ∃ k, (m.refine t).Creates k v ∧
          ((m.refine n).OnPart i [v] ∧ (m.refine t).OnPart i k ∧
              (m.refine n).position v = s.place (k.map (m.refine t).position) ∨
            ¬(m.refine n).OnPart i [v] ∧
              (m.refine n).position v = Point.average (k.map (m.refine t).position))) ∧
    ∀ (m : Mesh ℝ d) (i : Indicator) (center : Point ℝ d) (radius : ℝ),
      m.Regular → (∀ j, m.shapes[j]? = if j = i then some (.ball center radius) else none) →
      ∀ v < (m.refine n).vertices.size, (m.refine n).OnPart i [v] →
        v < m.vertices.size ∨
        √(∑ a, (((m.refine n).position v).coords.get a - center.coords.get a) ^ 2) = |radius| ∨
        ∃ t < n, ∃ k, (m.refine t).Creates k v ∧
          √(∑ a, ((Point.average (k.map (m.refine t).position)).coords.get a -
            center.coords.get a) ^ 2) ≤ 1 / 10 ^ 12 := by
  have hd : d ≤ 3 := by omega
  refine ⟨fun K _ m i s hm hshapes v hv => refine_cases hd hm hshapes hv,
    fun m i center radius hm hshapes v hv hpart => ?_⟩
  simp only [← Point.distance_eq]
  rcases refine_cases hd hm hshapes hv with ⟨hold, -⟩ | ⟨t, ht, k, hk, ⟨-, -, hplace⟩ | ⟨hoff, -⟩⟩
  · exact Or.inl hold
  · rw [hplace]
    refine Or.inr ((Shape.distance_project center radius _).imp_right fun hnear => ?_)
    exact ⟨t, ht, k, hk, hnear⟩
  · exact absurd hpart hoff

/-- A square with a shape for its boundary.  No indicator is set, so that its sides have the
indicator zero. -/
noncomputable def cushion (shape : Shape ℝ 2) : Mesh ℝ 2 :=
  { vertices := #[.xy (-1) 1, .xy (-1) (-1), .xy 1 1, .xy 1 (-1)]
    cells := [#v[1, 3, 0, 2]]
    shapes := (∅ : Std.ExtTreeMap Indicator (Shape ℝ 2)).insert 0 shape }

theorem shapes_cushion (shape : Shape ℝ 2) (j : Indicator) :
    (cushion shape).shapes[j]? = if j = 0 then some shape else none := by
  rw [cushion, Std.ExtTreeMap.getElem?_insert, Std.ExtTreeMap.getElem?_empty]
  simp only [Std.LawfulEqOrd.compare_eq_iff_eq]
  exact if_congr eq_comm rfl rfl

/-- A new vertex goes half as far again from the origin as the mean of its parents. -/
noncomputable def bulge : Shape ℝ 2 := ⟨fun parents => (Point.average parents).scale (3 / 2)⟩

noncomputable def disk : Mesh ℝ 2 := cushion (.ball (.xy 0 0) 2)

noncomputable def pillow : Mesh ℝ 2 := cushion bulge

theorem refine_onPart_disk :
    (2 = 2 ∨ 2 = 3) ∧ pillow.Regular ∧ disk.Regular ∧
      (∀ j : Indicator, pillow.shapes[j]? = if j = 0 then some bulge else none) ∧
      (∀ j : Indicator, disk.shapes[j]? = if j = 0 then some (.ball (.xy 0 0) 2) else none) ∧
      (∀ v < (pillow.refine 3).vertices.size,
        v < 4 ∧ (pillow.refine 3).position v = pillow.position v ∨
        ∃ t < 3, ∃ k, (pillow.refine t).Creates k v ∧
          ((pillow.refine 3).OnPart 0 [v] ∧ (pillow.refine t).OnPart 0 k ∧
              (pillow.refine 3).position v = bulge.place (k.map (pillow.refine t).position) ∨
            ¬(pillow.refine 3).OnPart 0 [v] ∧
              (pillow.refine 3).position v =
                Point.average (k.map (pillow.refine t).position))) ∧
      ∀ v < (disk.refine 3).vertices.size, (disk.refine 3).OnPart 0 [v] →
        v < 4 ∨
        √(∑ a, (((disk.refine 3).position v).coords.get a -
          (Point.xy 0 0 : Point ℝ 2).coords.get a) ^ 2) = |2| ∨
        ∃ t < 3, ∃ k, (disk.refine t).Creates k v ∧
          √(∑ a, ((Point.average (k.map (disk.refine t).position)).coords.get a -
            (Point.xy 0 0 : Point ℝ 2).coords.get a) ^ 2) ≤ 1 / 10 ^ 12 := by
  have hpillow : pillow.Regular := by decide +kernel
  have hdisk : disk.Regular := by decide +kernel
  have hparts := refine_onPart (d := 2) (by decide) 3
  exact ⟨by decide, hpillow, hdisk, shapes_cushion _, shapes_cushion _,
    hparts.1 ℝ pillow 0 bulge hpillow (shapes_cushion _),
    hparts.2 disk 0 _ _ hdisk (shapes_cushion _)⟩

end Mesh
end HexMesh
