import HexMesh.Proofs.Refinement.Vertices
import Mathlib.Data.List.Perm.Subperm

/-!
Faces of children and the pieces that meet there.

The corners of a child's face are middles of pieces of the parent.  Since middles
tell pieces apart, two such faces have the same key exactly when the same pieces
meet at them, `faceKey_childCell_eq_iff`.  On a face of the parent these are the
pieces of that face around one corner.  Inside the parent they are shared with the
neighboring child, and the parent itself is among them, which tells the two kinds
of faces apart.
-/

namespace HexMesh

open HexMesh.Cube

namespace Cell

variable {d : Nat}

/-- The keys of the pieces of a face. -/
def facePieces (c : Cell d) (face : Nat) : Set Key :=
  {k | ∃ p < latticeCount d, latticeOnFace face p = true ∧ c.latticeKey p = k}

/-- The keys of the pieces whose middles are the corners of a face of a child. -/
def childPieces (c : Cell d) (child : Corner d) (face : Nat) : Set Key :=
  {k | ∃ v, onFace face v = true ∧ c.latticeKey (childPoint child v) = k}

theorem latticeKey_acrossOnFace (c : Cell d) {face : Nat} (h : face < faceCount d) {v : Corner d}
    (hv : onFace face v = true) :
    c.latticeKey (childPoint v (acrossOnFace h v)) = c.faceKey face := by
  have hcorners : latticeCorners d (childPoint v (acrossOnFace h v)) = faceCorners d face :=
    List.filter_congr fun w _ => Bool.eq_iff_iff.mpr (supports_acrossOnFace h hv)
  rw [latticeKey, hcorners]
  rfl

theorem subset_faceKey {c : Cell d} {face : Nat} (h : face < faceCount d) {k : Key}
    (hk : k ∈ c.facePieces face) : k ⊆ c.faceKey face := by
  obtain ⟨p, -, hp, rfl⟩ := hk
  intro u hu
  obtain ⟨v, hv, rfl⟩ := mem_latticeKey.mp hu
  exact mem_faceKey.mpr ⟨v, onFace_of_supports h hp hv, rfl⟩

theorem length_latticeKey_rev (c : Cell d) (child : Corner d) :
    (c.latticeKey (childPoint child child.rev)).length = cornerCount d := by
  rw [latticeKey_rev, Key.length_ofList, Vector.length_toList]

theorem faceKey_mem_childPieces (c : Cell d) {face : Nat} (h : face < faceCount d)
    {child : Corner d} (hchild : onFace face child = true) :
    c.faceKey face ∈ c.childPieces child face :=
  ⟨acrossOnFace h child, onFace_acrossOnFace h hchild, c.latticeKey_acrossOnFace h hchild⟩

/-- The pieces that meet at the neighboring child across the axis of an inner face are the
same. -/
theorem childPieces_flip (c : Cell d) {face : Nat} (h : face < faceCount d) {child : Corner d}
    (hchild : onFace face child = false) :
    c.childPieces (child.flip (faceAxis h)) (acrossFace face) = c.childPieces child face := by
  refine Set.ext fun k => ⟨?_, ?_⟩
  · intro hx
    obtain ⟨w, hw, rfl⟩ := hx
    have hback : onFace face (w.flip (faceAxis h)) = true := by
      rw [onFace_flip, ← onFace_acrossFace]
      exact hw
    refine ⟨w.flip (faceAxis h), hback, ?_⟩
    rw [← childPoint_flip h hchild hback, Corner.flip_flip]
  · intro hx
    obtain ⟨v, hv, rfl⟩ := hx
    refine ⟨v.flip (faceAxis h), ?_, ?_⟩
    · rw [onFace_acrossFace, onFace_flip, Bool.not_not]
      exact hv
    · rw [childPoint_flip h hchild hv]

section Distinct

variable {c e : Cell d}

/-- At a child on a face of its parent meet the pieces of the face around the corner. -/
theorem mem_childPieces_of_onFace (hc : c.toList.Nodup) {face : Nat} (h : face < faceCount d)
    {child : Corner d} (hchild : onFace face child = true) {k : Key} :
    k ∈ c.childPieces child face ↔ k ∈ c.facePieces face ∧ c.get child ∈ k := by
  constructor
  · intro hx
    obtain ⟨v, hv, rfl⟩ := hx
    refine ⟨⟨_, childPoint_lt child v, ?_, rfl⟩, ?_⟩
    · exact (latticeOnFace_childPoint h child v).mpr ⟨hchild, hv⟩
    · exact (get_mem_latticeKey hc).mpr (supports_childPoint_left child v)
  · intro hx
    obtain ⟨⟨p, hp, hface, rfl⟩, hmem⟩ := hx
    obtain ⟨v, rfl⟩ := exists_childPoint hp ((get_mem_latticeKey hc).mp hmem)
    exact ⟨v, onFace_of_supports h hface (supports_childPoint_right child v), rfl⟩

/-- On a face of the parent no piece is as large as the parent. -/
theorem length_lt_of_mem_childPieces (hc : c.toList.Nodup) {face : Nat} (h : face < faceCount d)
    {child : Corner d} (hchild : onFace face child = true) {k : Key}
    (hk : k ∈ c.childPieces child face) : k.length < cornerCount d := by
  have hsub : k ⊆ c.faceKey face :=
    subset_faceKey h ((mem_childPieces_of_onFace hc h hchild).mp hk).1
  obtain ⟨v, -, rfl⟩ := hk
  have hle := (List.subperm_of_subset (nodup_latticeKey hc _) hsub).length_le
  have hface := c.length_faceKey h
  have hpos : 0 < cornerCount d := Nat.two_pow_pos d
  omega

theorem faceKey_eq_of_subset (hc : c.toList.Nodup) (he : e.toList.Nodup) {f g : Nat}
    (hcf : c.faceKey f ⊆ e.faceKey g) (heg : e.faceKey g ⊆ c.faceKey f) :
    c.faceKey f = e.faceKey g := by
  exact Key.eq_of_mem_iff (c.pairwise_key _) (e.pairwise_key _) (nodup_faceKey hc f)
    (nodup_faceKey he g) fun v => ⟨fun hv => hcf hv, fun hv => heg hv⟩

/-- A child's face on a face of its parent shows which face of which parent that is, and at
which corner. -/
theorem of_childPieces_eq (hc : c.toList.Nodup) (he : e.toList.Nodup) {f g : Nat}
    (hf : f < faceCount d) (hg : g < faceCount d) {v w : Corner d} (hv : onFace f v = true)
    (h : c.childPieces v f = e.childPieces w g) :
    onFace g w = true ∧ c.faceKey f = e.faceKey g ∧ c.get v = e.get w := by
  have hw : onFace g w = true := by
    -- Otherwise all of the second parent is a piece there, which is too large.
    by_contra hw
    have hrev : onFace g w.rev = true := by
      rw [onFace_iff hg] at hw ⊢
      rw [Corner.high_rev]
      revert hw
      cases w.high (faceAxis hg) <;> cases g % 2 == 1 <;> simp
    have hwhole : e.latticeKey (childPoint w w.rev) ∈ c.childPieces v f := h ▸ ⟨w.rev, hrev, rfl⟩
    have hlt := length_lt_of_mem_childPieces hc hf hv hwhole
    rw [length_latticeKey_rev] at hlt
    exact Nat.lt_irrefl _ hlt
  refine ⟨hw, ?_, ?_⟩
  · refine faceKey_eq_of_subset hc he ?_ ?_
    · have hmem : c.faceKey f ∈ e.childPieces w g := h ▸ c.faceKey_mem_childPieces hf hv
      exact subset_faceKey hg ((mem_childPieces_of_onFace he hg hw).mp hmem).1
    · have hmem : e.faceKey g ∈ c.childPieces v f := h ▸ e.faceKey_mem_childPieces hg hw
      exact subset_faceKey hf ((mem_childPieces_of_onFace hc hf hv).mp hmem).1
  · have hcorner : [c.get v] ∈ e.childPieces w g := h ▸ ⟨v, hv, c.latticeKey_self v⟩
    have hmem := ((mem_childPieces_of_onFace he hg hw).mp hcorner).2
    exact (List.mem_singleton.mp hmem).symm

end Distinct
end Cell

namespace Mesh

variable {K : Type} {d : Nat} {m : Mesh K d}

theorem mem_faceKey_childCell {c : Cell d} {child : Corner d} {face u : Nat} :
    u ∈ (m.childCell m.newKeys c child).faceKey face ↔
      ∃ k ∈ c.childPieces child face, m.middle k = u := by
  rw [Cell.mem_faceKey]
  constructor
  · intro h
    obtain ⟨v, hv, rfl⟩ := h
    exact ⟨_, ⟨v, hv, rfl⟩, (m.get_childCell c child v).symm⟩
  · intro h
    obtain ⟨_, ⟨v, hv, rfl⟩, rfl⟩ := h
    exact ⟨v, hv, m.get_childCell c child v⟩

theorem isPiece_of_mem_childPieces {c : Cell d} (hc : c ∈ m.cells) {child : Corner d} {face : Nat}
    {k : Key} (hk : k ∈ c.childPieces child face) : m.IsPiece k := by
  obtain ⟨v, -, rfl⟩ := hk
  exact isPiece_latticeKey hc child v

theorem nodup_childCell (hm : m.CellsValid) {c : Cell d} (hc : c ∈ m.cells)
    (hdistinct : c.toList.Nodup) (child : Corner d) :
    (m.childCell m.newKeys c child).toList.Nodup := by
  apply Cell.nodup_of_get_injective
  intro v w he
  rw [get_childCell, get_childCell] at he
  exact Cell.latticeKey_childPoint_injective hdistinct child
    (injOn_middle hm (isPiece_latticeKey hc child v) (isPiece_latticeKey hc child w) he)

theorem childPieces_subset (hm : m.CellsValid) {c e : Cell d} (hc : c ∈ m.cells)
    (he : e ∈ m.cells) {v w : Corner d} {f g : Nat}
    (hkeys : (m.childCell m.newKeys c v).faceKey f = (m.childCell m.newKeys e w).faceKey g) :
    c.childPieces v f ⊆ e.childPieces w g := by
  intro k hk
  have hmem : m.middle k ∈ (m.childCell m.newKeys c v).faceKey f :=
    mem_faceKey_childCell.mpr ⟨k, hk, rfl⟩
  rw [hkeys] at hmem
  obtain ⟨l, hl, hmiddle⟩ := mem_faceKey_childCell.mp hmem
  rwa [← injOn_middle hm (isPiece_of_mem_childPieces he hl) (isPiece_of_mem_childPieces hc hk)
    hmiddle]

/-- Faces of children have the same key exactly when the same pieces meet there. -/
theorem faceKey_childCell_eq_iff (hm : m.CellsValid) (hdistinct : m.CellsDistinct) {c e : Cell d}
    (hc : c ∈ m.cells) (he : e ∈ m.cells) {v w : Corner d} {f g : Nat} :
    (m.childCell m.newKeys c v).faceKey f = (m.childCell m.newKeys e w).faceKey g ↔
      c.childPieces v f = e.childPieces w g := by
  constructor
  · intro hkeys
    exact Set.Subset.antisymm (childPieces_subset hm hc he hkeys)
      (childPieces_subset hm he hc hkeys.symm)
  · intro hpieces
    refine Cell.faceKey_eq_of_subset (nodup_childCell hm hc (hdistinct c hc) v)
      (nodup_childCell hm he (hdistinct e he) w) ?_ ?_ <;> intro u hu
    · rw [mem_faceKey_childCell] at hu ⊢
      rwa [← hpieces]
    · rw [mem_faceKey_childCell] at hu ⊢
      rwa [hpieces]

/-- A child shows its parent, the piece with most corners that meets there, and the only
corner of the parent that it has. -/
theorem childCell_inj (hm : m.CellsValid) {c e : Cell d} (hc : c ∈ m.cells) (he : e ∈ m.cells)
    (hdistinct : e.toList.Nodup) {v w : Corner d}
    (h : Key.ofList (m.childCell m.newKeys c v).toList =
      Key.ofList (m.childCell m.newKeys e w).toList) :
    Key.ofList c.toList = Key.ofList e.toList ∧ c.get v = e.get w := by
  have hpiece (x : Corner d) :
      ∃ y, e.latticeKey (childPoint w y) = c.latticeKey (childPoint v x) := by
    have hmem : m.middle (c.latticeKey (childPoint v x)) ∈ (m.childCell m.newKeys e w).toList := by
      rw [← Key.mem_ofList, ← h, Key.mem_ofList, ← get_childCell]
      exact Cell.get_mem _ x
    obtain ⟨y, hy⟩ := Cell.mem_toList_iff.mp hmem
    rw [get_childCell] at hy
    exact ⟨y, injOn_middle hm (isPiece_latticeKey he w y) (isPiece_latticeKey hc v x) hy⟩
  constructor
  · obtain ⟨y, hy⟩ := hpiece v.rev
    rw [Cell.latticeKey_rev] at hy
    have hlength := congrArg List.length hy
    rw [Key.length_ofList, Vector.length_toList, Cell.latticeKey, Cell.length_key] at hlength
    have hall : latticeCorners d (childPoint w y) = corners d :=
      List.filter_sublist.eq_of_length (hlength.trans length_corners.symm)
    rw [← hy, Cell.latticeKey, hall, Cell.key, Cell.map_get_corners]
  · obtain ⟨y, hy⟩ := hpiece v
    rw [Cell.latticeKey_self] at hy
    have hmem := (Cell.get_mem_latticeKey hdistinct).mpr (supports_childPoint_left w y)
    rw [hy] at hmem
    exact (List.mem_singleton.mp hmem).symm

end Mesh
end HexMesh
