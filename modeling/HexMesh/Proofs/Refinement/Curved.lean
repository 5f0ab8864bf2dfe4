import HexMesh.Proofs.Refinement.Boundary

/-!
Which part of the boundary places a new vertex.

A boundary face whose indicator has a shape bends the pieces that lie in it.  Apart from the
edges of a mesh in space, a piece that gets a new vertex lies in one boundary face at most,
and nothing has to be decided.  Several boundary faces may meet at an edge, and then the
last of them that bends it has its way, in the order of cells and of faces within a cell.
-/

namespace HexMesh

open HexMesh.Cube

namespace Mesh

variable {K : Type} {d : Nat} {m : Mesh K d} {r : FaceRef} {a b : BoundaryFace} {k : Key}
  {i : Indicator} {s t : Shape K d}

/-- The piece with this key lies in the face. -/
def FaceHolds (m : Mesh K d) (r : FaceRef) (k : Key) : Prop :=
  ∃ c, m.cells[r.cell]? = some c ∧ k ∈ c.facePieces r.face

/-- The piece with this key lies in a boundary face with this shape. -/
structure Bends (m : Mesh K d) (b : BoundaryFace) (s : Shape K d) (k : Key) : Prop where
  boundary : b ∈ m.boundaryFaces
  shape : m.shapes[b.indicator]? = some s
  holds : m.FaceHolds b.toFaceRef k

theorem FaceHolds.isPiece (h : m.FaceHolds r k) : m.IsPiece k := by
  obtain ⟨c, hc, p, hp, -, rfl⟩ := h
  exact ⟨c, List.mem_of_getElem? hc, p, hp, rfl⟩

/-! ## The last face that bends a piece -/

/-- The pieces that a boundary face bends, if its indicator has a shape. -/
def bentBy (m : Mesh K d) (b : BoundaryFace) : List Key :=
  match m.cells[b.cell]? with
  | some c =>
    if m.shapes.contains b.indicator then
      (((List.range (latticeCount d)).filter (latticeOnFace b.face)).map c.latticeKey).filter
        (1 < ·.length)
    else []
  | none => []

/-- All bent pieces with the faces that bend them. -/
def bentPieces (m : Mesh K d) : List (BoundaryFace × Key) :=
  m.boundaryFaces.flatMap fun b => (m.bentBy b).map fun k => (b, k)

theorem curvedKeys_eq (m : Mesh K d) :
    m.curvedKeys = KeyMap.ofEntries (m.bentPieces.map fun x => (x.2, x.1.indicator)) := by
  rw [curvedKeys, bentPieces, List.map_flatMap]
  simp only [List.getElem?_toArray, List.map_map]
  congr 1
  refine List.flatMap_congr fun b _ => ?_
  unfold bentBy
  cases m.cells[b.cell]? with
  | none => rfl
  | some c =>
    dsimp only
    split <;> rfl

theorem mem_bentBy (hb : b ∈ m.boundaryFaces) :
    k ∈ m.bentBy b ↔ 1 < k.length ∧ ∃ s, m.Bends b s k := by
  unfold bentBy
  constructor
  · intro hk
    cases hc : m.cells[b.cell]? with
    | none => simp [hc] at hk
    | some c =>
      simp only [hc] at hk
      by_cases hshape : m.shapes.contains b.indicator = true
      · rw [if_pos hshape, List.mem_filter] at hk
        obtain ⟨hk, hlength⟩ := hk
        obtain ⟨p, hp, rfl⟩ := List.mem_map.mp hk
        obtain ⟨hp, hon⟩ := List.mem_filter.mp hp
        rw [Std.ExtTreeMap.contains_eq_isSome_getElem?] at hshape
        obtain ⟨s, hs⟩ := Option.isSome_iff_exists.mp hshape
        exact ⟨of_decide_eq_true hlength, s, hb, hs, c, hc, p, List.mem_range.mp hp, hon, rfl⟩
      · simp [hshape] at hk
  · rintro ⟨hlength, s, -, hs, c, hc, p, hp, hon, rfl⟩
    have hshape : m.shapes.contains b.indicator = true := by
      rw [Std.ExtTreeMap.contains_eq_isSome_getElem?, hs]
      rfl
    simp only [hc, if_pos hshape]
    refine List.mem_filter.mpr ⟨?_, decide_eq_true hlength⟩
    exact List.mem_map.mpr ⟨p, List.mem_filter.mpr ⟨List.mem_range.mpr hp, hon⟩, rfl⟩

theorem mem_bentPieces : (b, k) ∈ m.bentPieces ↔ 1 < k.length ∧ ∃ s, m.Bends b s k := by
  rw [bentPieces, List.mem_flatMap]
  constructor
  · rintro ⟨a, ha, hmem⟩
    obtain ⟨l, hl, he⟩ := List.mem_map.mp hmem
    obtain ⟨rfl, rfl⟩ := Prod.mk.inj he
    exact (mem_bentBy ha).mp hl
  · rintro ⟨hlength, s, hbends⟩
    refine ⟨b, hbends.boundary, List.mem_map.mpr ⟨k, ?_, rfl⟩⟩
    exact (mem_bentBy hbends.boundary).mpr ⟨hlength, s, hbends⟩

theorem pairwise_bentPieces (m : Mesh K d) :
    m.bentPieces.Pairwise fun x y => x.1 = y.1 ∨ x.1.toFaceRef.Before y.1.toFaceRef := by
  refine List.pairwise_flatMap.mpr ⟨fun b _ => ?_, m.pairwise_boundaryFaces.imp ?_⟩
  · exact List.pairwise_map.mpr (List.pairwise_of_forall fun _ _ => Or.inl rfl)
  · intro a b hab x hx y hy
    obtain ⟨_, -, rfl⟩ := List.mem_map.mp hx
    obtain ⟨_, -, rfl⟩ := List.mem_map.mp hy
    exact Or.inr hab

/-- The face bends the piece, and every other face that does comes before it. -/
structure BendsLast (m : Mesh K d) (b : BoundaryFace) (s : Shape K d) (k : Key) : Prop extends
    m.Bends b s k where
  last : ∀ a t, m.Bends a t k → a = b ∨ a.toFaceRef.Before b.toFaceRef

theorem curvedKeys_cases (m : Mesh K d) (hlength : 1 < k.length) :
    m.curvedKeys[k]? = none ∧ (∀ b s, ¬m.Bends b s k) ∨
      ∃ b s, m.curvedKeys[k]? = some b.indicator ∧ m.BendsLast b s k := by
  rw [curvedKeys_eq, KeyMap.getElem?_ofEntries_map]
  have hmem {b : BoundaryFace} :
      (b, k) ∈ m.bentPieces.filter (fun x => x.2 = k) ↔ ∃ s, m.Bends b s k := by
    rw [List.mem_filter, mem_bentPieces]
    simp [hlength]
  cases hlast : (m.bentPieces.filter fun x => x.2 = k).getLast? with
  | none =>
    refine Or.inl ⟨rfl, fun b s hbends => ?_⟩
    have hin := hmem.mpr ⟨s, hbends⟩
    rw [List.getLast?_eq_none_iff.mp hlast] at hin
    cases hin
  | some x =>
    obtain ⟨b, l⟩ := x
    obtain ⟨before, hsplit⟩ := List.getLast?_eq_some_iff.mp hlast
    have hin : (b, l) ∈ m.bentPieces.filter fun x => x.2 = k := by
      rw [hsplit]
      exact List.mem_concat_self
    obtain rfl : l = k := of_decide_eq_true (List.mem_filter.mp hin).2
    obtain ⟨s, hbends⟩ := hmem.mp hin
    refine Or.inr ⟨b, s, rfl, hbends, fun a t ha => ?_⟩
    -- The entries for one key stand in the order of their faces, so what is left over is before.
    have hpairwise := m.pairwise_bentPieces.filter fun x => x.2 = l
    rw [hsplit, List.pairwise_append] at hpairwise
    have ha := hmem.mpr ⟨t, ha⟩
    rw [hsplit, List.mem_append, List.mem_singleton] at ha
    rcases ha with ha | ha
    · exact hpairwise.2.2 _ ha _ (List.mem_singleton_self _)
    · exact Or.inl (congrArg Prod.fst ha)

/-! ## The position of a new vertex -/

section Position

variable [Scalar K]

theorem newPosition_of_not_bends (hlength : 1 < k.length) (h : ∀ b s, ¬m.Bends b s k) :
    m.newPosition m.curvedKeys k = Point.average (k.map m.position) := by
  rcases m.curvedKeys_cases hlength with ⟨hnone, -⟩ | ⟨b, s, -, hlast⟩
  · rw [newPosition, shapeOfKey, hnone]
    rfl
  · exact absurd hlast.toBends (h b s)

theorem newPosition_of_bendsLast (hlength : 1 < k.length) (h : m.BendsLast b s k) :
    m.newPosition m.curvedKeys k = s.place (k.map m.position) := by
  rcases m.curvedKeys_cases hlength with ⟨-, hnone⟩ | ⟨a, t, hcurved, hlast⟩
  · exact absurd h.toBends (hnone b s)
  · obtain rfl : b = a := by
      rcases hlast.last b s h.toBends with rfl | hba
      · rfl
      · rcases h.last a t hlast.toBends with rfl | hab
        · rfl
        · exact absurd hba hab.asymm
    rw [newPosition, shapeOfKey, hcurved, Option.bind_some, h.shape]
    rfl

omit [Scalar K] in
theorem Bends.exists_bendsLast (h : m.Bends b s k) (hlength : 1 < k.length) :
    ∃ a t, m.BendsLast a t k := by
  rcases m.curvedKeys_cases hlength with ⟨-, hnone⟩ | ⟨a, t, -, hlast⟩
  · exact absurd h (hnone b s)
  · exact ⟨a, t, hlast⟩

end Position

/-! ## Faces of children -/

/-- The vertices of a child's face on a face of its parent are the middles of pieces of that face,
and all of these have the child's corner. -/
theorem mem_faceKey_child (hdistinct : m.CellsDistinct) {c : Cell d}
    (hc : m.cells[r.cell]? = some c) (hface : r.face < faceCount d) {v : Corner d}
    (hv : onFace r.face v = true) {u : Nat} :
    u ∈ (m.childCell m.newKeys c v).faceKey r.face ↔
      ∃ k, m.FaceHolds r k ∧ c.get v ∈ k ∧ m.middle k = u := by
  rw [mem_faceKey_childCell]
  refine exists_congr fun k => ?_
  rw [Cell.mem_childPieces_of_onFace (hdistinct c (List.mem_of_getElem? hc)) hface hv, and_assoc]
  refine and_congr_left fun _ => ⟨fun hk => ⟨c, hc, hk⟩, fun ⟨e, he, hk⟩ => ?_⟩
  rw [hc] at he
  cases he
  exact hk

theorem Bends.exists_parent [Scalar K] (hd : d ≤ 3) (hm : m.Regular)
    (h : m.refineOnce.Bends b s k) :
    ∃ a c v, a ∈ m.boundaryFaces ∧ m.shapes[a.indicator]? = some s ∧
      m.cells[a.cell]? = some c ∧ k.Nodup ∧
      ∀ u ∈ k, ∃ l, m.FaceHolds a.toFaceRef l ∧ c.get v ∈ l ∧ m.middle l = u := by
  obtain ⟨a, ha, v, hv, rfl⟩ :=
    (mem_boundaryFaces_refineOnce hm.valid hm.distinct (hm.piecesConform hd)).mp h.boundary
  have hface := face_lt_of_mem_boundaryFaces ha
  obtain ⟨c', hc', hk⟩ := h.holds
  obtain ⟨c, hc, rfl⟩ : ∃ c, m.cells[a.cell]? = some c ∧ m.childCell m.newKeys c v = c' := by
    have hcell : m.refineOnce.cells[a.cell * cornerCount d + v]? = some c' := hc'
    rwa [getElem?_cells_refineOnce, Option.map_eq_some_iff] at hcell
  refine ⟨a, c, v, ha, h.shape, hc, ?_, fun u hu => ?_⟩
  · obtain ⟨p, -, -, rfl⟩ := hk
    exact Cell.nodup_latticeKey (nodup_childCell hm.valid (List.mem_of_getElem? hc)
      (hm.distinct c (List.mem_of_getElem? hc)) v) p
  · exact (mem_faceKey_child hm.distinct hc hface hv).mp
      (Cell.subset_faceKey hface hk hu)

/-! ## Pieces in one boundary face only -/

/-- Up to three dimensions only edges of a mesh in space can lie in several faces. -/
theorem FaceHolds.hasFace (hd : d ≤ 3) (h : m.FaceHolds r k) (hface : r.face < faceCount d)
    (hlength : 1 < k.length) (hedge : d = 3 → k.length ≠ 2) : m.HasFace r k := by
  obtain ⟨c, hc, p, hp, hon, rfl⟩ := h
  rw [Cell.latticeKey, Cell.length_key] at hlength hedge
  refine ⟨c, hc, hface, ?_⟩
  rcases length_latticeCorners_of_onFace hd hface hon with hone | hhalf | ⟨hthree, htwo⟩
  · omega
  · rw [Cell.latticeKey, latticeCorners_eq_faceCorners hface hon hhalf]
    rfl
  · exact absurd htwo (hedge hthree)

theorem Bends.eq_or_edge (hd : d ≤ 3) (ha : m.Bends a s k) (hb : m.Bends b t k)
    (hlength : 1 < k.length) : a = b ∨ d = 3 ∧ k.length = 2 := by
  by_cases hedge : d = 3 → k.length ≠ 2
  · have hface {x : BoundaryFace} {s : Shape K d} (hx : m.Bends x s k) :
        m.IsOuter x.toFaceRef k := by
      obtain ⟨l, houter, -⟩ := mem_boundaryFaces.mp hx.boundary
      have hk := hx.holds.hasFace hd houter.face_lt hlength hedge
      exact houter.1.key_eq hk ▸ houter
    have href : a.toFaceRef = b.toFaceRef := (hface hb).2 _ (hface ha).1
    obtain ⟨r, i⟩ := a
    obtain ⟨r', i'⟩ := b
    obtain rfl : r = r' := href
    exact Or.inl (congrArg (BoundaryFace.mk r)
      (indicator_eq_of_mem_boundaryFaces ha.boundary hb.boundary rfl))
  · push Not at hedge
    exact Or.inr hedge

end Mesh
end HexMesh
