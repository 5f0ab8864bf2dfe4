import HexMesh.Proofs.Refinement.ChildFaces

/-!
Conforming meshes.

Two cells conform along a common face when they divide its boundary into the same
edges.  Up to three dimensions this is the same as having the same pieces there,
which is what refinement needs.  Refinement also provides it: the pieces that meet
at a child's face are ordered by containment of their keys, and each piece of that
face is an interval in this order.
-/

namespace HexMesh

open HexMesh.Cube

namespace Cube

variable {d : Nat}

/-- Up to three dimensions a piece of a face is a corner, an edge or the whole face. -/
theorem length_latticeCorners_of_onFace (hd : d ≤ 3) {face p : Nat} (hface : face < faceCount d)
    (hon : latticeOnFace face p = true) :
    (latticeCorners d p).length = 1 ∨ 2 * (latticeCorners d p).length = cornerCount d ∨
      d = 3 ∧ (latticeCorners d p).length = 2 := by
  have hlt := length_openAxes_lt_iff.mpr ⟨face, hface, hon⟩
  rw [length_latticeCorners]
  generalize (openAxes d p).length = n at hlt
  rcases Nat.eq_zero_or_pos n with rfl | hpos
  · exact Or.inl rfl
  rcases Nat.eq_or_lt_of_le (Nat.succ_le_of_lt hlt) with rfl | hedge
  · exact Or.inr (Or.inl Nat.pow_succ'.symm)
  · obtain rfl : n = 1 := by omega
    exact Or.inr (Or.inr ⟨by omega, rfl⟩)

theorem latticeCorners_eq_faceCorners {face p : Nat} (hface : face < faceCount d)
    (h : latticeOnFace face p = true) (hlength : 2 * (latticeCorners d p).length = cornerCount d) :
    latticeCorners d p = faceCorners d face := by
  have hsub : List.Sublist (latticeCorners d p) (faceCorners d face) := by
    apply List.monotone_filter_right (corners d)
    intro v hv
    exact onFace_of_supports hface h hv
  refine hsub.eq_of_length ?_
  have hhalf := two_mul_length_faceCorners hface
  omega

end Cube

namespace Cell

variable {d : Nat}

/-- The edges of a face of a cell, as keys. -/
def faceEdges (c : Cell d) (face : Nat) : List Key :=
  ((Cube.edges d).filter fun e => onFace face e.1 && onFace face e.2).map fun e =>
    c.key [e.1, e.2]

theorem latticeKey_edge (c : Cell d) {e : Corner d × Corner d} (he : e ∈ Cube.edges d) :
    c.latticeKey (childPoint e.1 e.2) = c.key [e.1, e.2] :=
  Key.ofList_eq_ofList.mpr ((latticeCorners_edge he).map c.get)

theorem mem_faceEdges {c : Cell d} {face : Nat} (hface : face < faceCount d) {k : Key} :
    k ∈ c.faceEdges face ↔ k ∈ c.facePieces face ∧ k.length = 2 := by
  unfold faceEdges
  rw [List.mem_map]
  constructor
  · intro h
    obtain ⟨e, he, rfl⟩ := h
    obtain ⟨he, hon⟩ := List.mem_filter.mp he
    rw [Bool.and_eq_true] at hon
    refine ⟨⟨childPoint e.1 e.2, childPoint_lt _ _, ?_, ?_⟩, length_key _ _⟩
    · exact (latticeOnFace_childPoint hface _ _).mpr hon
    · exact c.latticeKey_edge he
  · intro h
    obtain ⟨⟨p, hp, hon, rfl⟩, hlength⟩ := h
    rw [latticeKey, length_key] at hlength
    obtain ⟨e, he, rfl⟩ := exists_edge_of_length_two hp hlength
    refine ⟨e, List.mem_filter.mpr ⟨he, ?_⟩, (c.latticeKey_edge he).symm⟩
    rw [Bool.and_eq_true]
    exact (latticeOnFace_childPoint hface _ _).mp hon

end Cell

namespace Mesh

variable {K : Type} {d : Nat} {m : Mesh K d}

/-- Cell faces with the same vertices have the same edges.  Containment is enough, since it
is asked for both ways round. -/
def FacesConform (m : Mesh K d) : Prop :=
  ∀ c ∈ m.cells, ∀ e ∈ m.cells, ∀ f < faceCount d, ∀ g < faceCount d,
    c.faceKey f = e.faceKey g → c.faceEdges f ⊆ e.faceEdges g

instance (m : Mesh K d) : Decidable m.FacesConform :=
  inferInstanceAs (Decidable (∀ c ∈ m.cells, ∀ e ∈ m.cells, ∀ f < faceCount d, ∀ g < faceCount d,
    c.faceKey f = e.faceKey g → c.faceEdges f ⊆ e.faceEdges g))

/-- Cell faces with the same vertices have the same pieces. -/
def PiecesConform (m : Mesh K d) : Prop :=
  ∀ c ∈ m.cells, ∀ e ∈ m.cells, ∀ f < faceCount d, ∀ g < faceCount d,
    c.faceKey f = e.faceKey g → c.facePieces f = e.facePieces g

theorem PiecesConform.facesConform {m : Mesh K 3} (h : m.PiecesConform) : m.FacesConform := by
  intro c hc e he f hf g hg hkeys k
  rw [Cell.mem_faceEdges hf, Cell.mem_faceEdges hg, h c hc e he f hf g hg hkeys]
  exact id

end Mesh

namespace Cell

variable {d : Nat} {c e : Cell d}

theorem facePieces_subset (hd : d ≤ 3) {f g : Nat} (hf : f < faceCount d) (hg : g < faceCount d)
    (hkeys : c.faceKey f = e.faceKey g)
    (hedges : d = 3 → c.faceEdges f ⊆ e.faceEdges g) :
    c.facePieces f ⊆ e.facePieces g := by
  intro k h
  obtain ⟨p, hp, hon, rfl⟩ := h
  rcases length_latticeCorners_of_onFace hd hf hon with hlength | hlength | ⟨rfl, hlength⟩
  · obtain ⟨v, hv⟩ := List.length_eq_one_iff.mp hlength
    have hsupport : supports p v = true := mem_latticeCorners.mp (by simp [hv])
    have hmem : c.get v ∈ e.faceKey g :=
      hkeys ▸ mem_faceKey.mpr ⟨v, onFace_of_supports hf hon hsupport, rfl⟩
    obtain ⟨w, hw, hvertex⟩ := mem_faceKey.mp hmem
    refine ⟨childPoint w w, childPoint_lt w w, (latticeOnFace_childPoint hg w w).mpr ⟨hw, hw⟩, ?_⟩
    rw [latticeKey_self, hvertex, latticeKey, hv]
    rfl
  · obtain ⟨w, hw, -⟩ := mem_faceKey.mp (List.head_mem (e.faceKey_ne_nil hg))
    refine ⟨_, childPoint_lt w (acrossOnFace hg w), ?_, ?_⟩
    · exact (latticeOnFace_childPoint hg _ _).mpr ⟨hw, onFace_acrossOnFace hg hw⟩
    · rw [latticeKey_acrossOnFace e hg hw, ← hkeys, latticeKey,
        latticeCorners_eq_faceCorners hf hon hlength]
      rfl
  · have hmem : c.latticeKey p ∈ c.faceEdges f :=
      (mem_faceEdges hf).mpr ⟨⟨p, hp, hon, rfl⟩, (length_key _ _).trans hlength⟩
    exact ((mem_faceEdges hg).mp (hedges rfl hmem)).1

end Cell

namespace Mesh

variable {K : Type} {d : Nat} {m : Mesh K d}

/-- On the line and in the plane every mesh conforms, and in space it does when the edges
agree. -/
theorem piecesConform (hd : d ≤ 3) (h : d = 3 → m.FacesConform) : m.PiecesConform := by
  intro c hc e he f hf g hg hkeys
  refine Set.Subset.antisymm ?_ ?_
  · exact Cell.facePieces_subset hd hf hg hkeys fun hthree => h hthree c hc e he f hf g hg hkeys
  · exact Cell.facePieces_subset hd hg hf hkeys.symm fun hthree =>
      h hthree e he c hc g hg f hf hkeys.symm

/-! ## Conformity of refined meshes -/

/-- The corners of a child's piece are the middles of the pieces between those of its nearest
and its farthest corner. -/
theorem mem_latticeKey_childCell {c : Cell d} (hc : c.toList.Nodup) {child near far : Corner d}
    (hbetween : supports (childPoint child far) near = true) {u : Nat} :
    u ∈ (m.childCell m.newKeys c child).latticeKey (childPoint near far) ↔
      ∃ w, c.latticeKey (childPoint child near) ⊆ c.latticeKey (childPoint child w) ∧
        c.latticeKey (childPoint child w) ⊆ c.latticeKey (childPoint child far) ∧
        m.middle (c.latticeKey (childPoint child w)) = u := by
  rw [Cell.mem_latticeKey]
  refine exists_congr fun w => ?_
  rw [supports_childPoint_between hbetween, Cell.latticeKey_subset_iff hc,
    Cell.latticeKey_subset_iff hc, and_assoc, m.get_childCell c child w]

/-- On a face, these pieces belong to the same face of the child. -/
theorem mem_latticeKey_childCell_of_onFace {c : Cell d} (hc : c.toList.Nodup)
    {child near far : Corner d} {face : Nat} (hface : face < faceCount d)
    (hnear : onFace face near = true) (hfar : onFace face far = true)
    (hbetween : supports (childPoint child far) near = true) {u : Nat} :
    u ∈ (m.childCell m.newKeys c child).latticeKey (childPoint near far) ↔
      ∃ k ∈ c.childPieces child face, c.latticeKey (childPoint child near) ⊆ k ∧
        k ⊆ c.latticeKey (childPoint child far) ∧ m.middle k = u := by
  have hon : latticeOnFace face (childPoint near far) = true :=
    (latticeOnFace_childPoint hface near far).mpr ⟨hnear, hfar⟩
  rw [mem_latticeKey_childCell hc hbetween]
  constructor
  · intro h
    obtain ⟨w, hlow, hhigh, rfl⟩ := h
    have hw := (supports_childPoint_between hbetween).mpr
      ⟨(Cell.latticeKey_subset_iff hc).mp hlow, (Cell.latticeKey_subset_iff hc).mp hhigh⟩
    exact ⟨_, ⟨w, onFace_of_supports hface hon hw, rfl⟩, hlow, hhigh, rfl⟩
  · intro h
    obtain ⟨_, ⟨w, -, rfl⟩, hlow, hhigh, rfl⟩ := h
    exact ⟨w, hlow, hhigh, rfl⟩

theorem facePieces_childCell_subset (hm : m.CellsValid) (hdistinct : m.CellsDistinct)
    {c e : Cell d} (hc : c ∈ m.cells) (he : e ∈ m.cells) {v w : Corner d} {f g : Nat}
    (hf : f < faceCount d) (hg : g < faceCount d) (h : c.childPieces v f = e.childPieces w g) :
    (m.childCell m.newKeys c v).facePieces f ⊆ (m.childCell m.newKeys e w).facePieces g := by
  intro k hx
  obtain ⟨p, hp, hon, rfl⟩ := hx
  obtain ⟨near, far, rfl, hbetween⟩ := exists_near_far hp v
  obtain ⟨hnear, hfar⟩ := (latticeOnFace_childPoint hf near far).mp hon
  -- The other parent has its own corners for the same two pieces.
  have hnearPiece : c.latticeKey (childPoint v near) ∈ e.childPieces w g := h ▸ ⟨near, hnear, rfl⟩
  have hfarPiece : c.latticeKey (childPoint v far) ∈ e.childPieces w g := h ▸ ⟨far, hfar, rfl⟩
  obtain ⟨near', hnear', hnearKey⟩ := hnearPiece
  obtain ⟨far', hfar', hfarKey⟩ := hfarPiece
  have hbetween' : supports (childPoint w far') near' = true := by
    rw [← Cell.latticeKey_subset_iff (hdistinct e he), hnearKey, hfarKey]
    exact (Cell.latticeKey_subset_iff (hdistinct c hc)).mpr hbetween
  refine ⟨childPoint near' far', childPoint_lt _ _,
    (latticeOnFace_childPoint hg _ _).mpr ⟨hnear', hfar'⟩, ?_⟩
  refine Key.eq_of_mem_iff (Cell.pairwise_key _ _) (Cell.pairwise_key _ _)
    (Cell.nodup_latticeKey (nodup_childCell hm he (hdistinct e he) w) _)
    (Cell.nodup_latticeKey (nodup_childCell hm hc (hdistinct c hc) v) _) fun u => ?_
  rw [mem_latticeKey_childCell_of_onFace (hdistinct e he) hg hnear' hfar' hbetween',
    mem_latticeKey_childCell_of_onFace (hdistinct c hc) hf hnear hfar hbetween, hnearKey, hfarKey,
    h]

/-- Whatever the parents were like, faces of children with the same vertices have the same
pieces. -/
theorem piecesConform_refineOnce [Scalar K] (hm : m.CellsValid)
    (hdistinct : m.CellsDistinct) : m.refineOnce.PiecesConform := by
  intro a ha b hb f hf g hg hkeys
  obtain ⟨c, hc, v, rfl⟩ := mem_cells_refineOnce.mp ha
  obtain ⟨e, he, w, rfl⟩ := mem_cells_refineOnce.mp hb
  have hpieces := (faceKey_childCell_eq_iff hm hdistinct hc he).mp hkeys
  exact Set.Subset.antisymm (facePieces_childCell_subset hm hdistinct hc he hf hg hpieces)
    (facePieces_childCell_subset hm hdistinct he hc hg hf hpieces.symm)

end Mesh
end HexMesh
