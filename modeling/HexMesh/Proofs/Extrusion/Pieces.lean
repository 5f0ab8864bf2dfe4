import HexMesh.Proofs.Extrusion.Boundary
import HexMesh.Proofs.Number.Radix
import HexMesh.Proofs.Refinement.Boundary
import Mathlib.Tactic.IntervalCases

/-!
Pieces of an extruded mesh.

A piece of a hexahedron is a piece of the plane that lies in a layer or reaches from one
layer to the next.  Levels count both: `2 k` is layer `k` and `2 k + 1` the gap above it.  A
level and a key of the plane make a key in space, `Mesh.slice`, and no two pairs make the
same one.  So pieces, conformity and regularity of the extruded mesh are those of the plane.
-/

namespace HexMesh

open HexMesh.Cube

namespace Cube

theorem latticeCorners_layers :
    ∀ p < latticeCount 3, latticeCorners 3 p =
      match latticeDigit p 2 with
      | 0 => (latticeCorners 2 (p % 9)).map Corner.below
      | 1 => (latticeCorners 2 (p % 9)).map Corner.below ++
          (latticeCorners 2 (p % 9)).map Corner.above
      | _ => (latticeCorners 2 (p % 9)).map Corner.above := by
  decide +kernel

theorem childPoint_mod :
    ∀ child v : Corner 3, childPoint child v % 9 = childPoint child.base v.base := by
  decide +kernel

theorem latticeOnFace_mod {face : Nat} (h : face < 4) (p : Nat) :
    latticeOnFace face (p % 9) = latticeOnFace face p := by
  have hdigit : ∀ a < 2, latticeDigit (p % 9) a = latticeDigit p a := by
    intro a ha
    interval_cases a
    · show p % 9 / 1 % 3 = p / 1 % 3
      omega
    · show p % 9 / 3 % 3 = p / 3 % 3
      omega
  rw [latticeOnFace, latticeOnFace, hdigit _ (by omega)]

theorem latticeDigit_last (p : Nat) : latticeDigit p 2 = p / 9 % 3 := rfl

theorem latticePoint_stack {e q : Nat} (he : e < 3) (hq : q < latticeCount 2) :
    e * 9 + q < latticeCount 3 ∧ (e * 9 + q) % 9 = q ∧ latticeDigit (e * 9 + q) 2 = e := by
  replace hq : q < 9 := hq
  rw [latticeDigit_last]
  refine ⟨?_, by omega, by omega⟩
  show _ < 27
  omega

end Cube

namespace Mesh

variable {K : Type} {m : Mesh K 2} {m' : Mesh K 3} {slices : Nat}

/-! ## Slices -/

/-- The key of a plane piece at a level. -/
def slice (m : Mesh K 2) (level : Nat) (k : Key) : Key :=
  Key.ofList (if level % 2 = 0 then k.map (m.layered (level / 2)) else m.lateral (level / 2) k)

theorem slice_even (m : Mesh K 2) (j : Nat) (k : Key) :
    m.slice (2 * j) k = Key.ofList (k.map (m.layered j)) := by
  rw [slice, if_pos (by omega), Nat.mul_div_cancel_left j Nat.two_pos]

theorem slice_odd (m : Mesh K 2) (j : Nat) (k : Key) :
    m.slice (2 * j + 1) k = Key.ofList (m.lateral j k) := by
  have hhalf : (2 * j + 1) / 2 = j := by omega
  rw [slice, if_neg (by omega), hhalf]

theorem slice_inj {i j : Nat} {k l : Key} (hk : k.Pairwise (· ≤ ·)) (hl : l.Pairwise (· ≤ ·))
    (hkm : ∀ v ∈ k, v < m.vertices.size) (hlm : ∀ v ∈ l, v < m.vertices.size) (hkne : k ≠ [])
    (hlne : l ≠ []) (h : m.slice i k = m.slice j l) : i = j ∧ k = l := by
  have hsame (h : Key.ofList k = Key.ofList l) : k = l := by
    rwa [Key.ofList_of_pairwise hk, Key.ofList_of_pairwise hl] at h
  obtain ⟨i, rfl | rfl⟩ := i.even_or_odd' <;> obtain ⟨j, rfl | rfl⟩ := j.even_or_odd' <;>
    simp only [slice_even, slice_odd] at h
  · obtain ⟨rfl, hkeys⟩ := ofList_layered_inj hkm hlm hkne h
    exact ⟨rfl, hsame hkeys⟩
  · exact absurd h.symm (ofList_lateral_ne_layered hlm hkm hlne)
  · exact absurd h (ofList_lateral_ne_layered hkm hlm hkne)
  · obtain ⟨rfl, hkeys⟩ := ofList_lateral_inj hkm hlm hkne h
    exact ⟨rfl, hsame hkeys⟩

theorem latticeKey_hexahedron (m : Mesh K 2) (k : Nat) (c : Cell 2) {p : Nat}
    (hp : p < latticeCount 3) :
    (m.hexahedron k c).latticeKey p =
      m.slice (2 * k + latticeDigit p 2) (c.latticeKey (p % 9)) := by
  have hcorners := latticeCorners_layers p hp
  have hlt := latticeDigit_lt p 2
  rw [Cell.latticeKey, Cell.latticeKey, hcorners]
  generalize latticeDigit p 2 = e at hlt
  interval_cases e
  · rw [Nat.add_zero, slice_even]
    exact m.key_hexahedron_below k c _
  · rw [slice_odd]
    exact m.key_hexahedron_lateral k c _
  · rw [← Nat.mul_succ, slice_even]
    exact m.key_hexahedron_above k c _

theorem mem_facePieces_lateral {k face : Nat} {c : Cell 2} (h : face < 4) {x : Key} :
    x ∈ (m.hexahedron k c).facePieces face ↔
      ∃ e < 3, ∃ l ∈ c.facePieces face, m.slice (2 * k + e) l = x := by
  constructor
  · intro hx
    obtain ⟨p, hp, hon, rfl⟩ := hx
    refine ⟨_, latticeDigit_lt p 2, _, ⟨p % 9, Nat.mod_lt _ (by decide), ?_, rfl⟩,
      (m.latticeKey_hexahedron k c hp).symm⟩
    rw [latticeOnFace_mod h]
    exact hon
  · intro hx
    obtain ⟨e, he, _, ⟨q, hq, hon, rfl⟩, rfl⟩ := hx
    obtain ⟨hp, hmod, hdigit⟩ := latticePoint_stack he hq
    refine ⟨e * 9 + q, hp, ?_, ?_⟩
    · rw [← latticeOnFace_mod h, hmod]
      exact hon
    · rw [latticeKey_hexahedron m k c hp, hmod, hdigit]

theorem mem_facePieces_end {k side : Nat} {c : Cell 2} (h : side < 2) {x : Key} :
    x ∈ (m.hexahedron k c).facePieces (4 + side) ↔
      ∃ q < latticeCount 2, m.slice (2 * (k + side)) (c.latticeKey q) = x := by
  have hface {p : Nat} : latticeOnFace (4 + side) p = true ↔ latticeDigit p 2 = 2 * side := by
    have hdiv : (4 + side) / 2 = 2 := by omega
    have hmod : (4 + side) % 2 = side := by omega
    rw [latticeOnFace_iff, hdiv, hmod]
  constructor
  · intro hx
    obtain ⟨p, hp, hon, rfl⟩ := hx
    refine ⟨p % 9, Nat.mod_lt _ (by decide), ?_⟩
    rw [latticeKey_hexahedron m k c hp, hface.mp hon, Nat.mul_add]
  · intro hx
    obtain ⟨q, hq, rfl⟩ := hx
    obtain ⟨hp, hmod, hdigit⟩ := latticePoint_stack (e := 2 * side) (by omega) hq
    refine ⟨_, hp, hface.mpr hdigit, ?_⟩
    rw [latticeKey_hexahedron m k c hp, hmod, hdigit, Nat.mul_add]

/-! ## Pieces of the extruded mesh -/

theorem Extrudes.mem_cells (h : m.Extrudes slices m') {a : Cell 3} :
    a ∈ m'.cells ↔ ∃ k < slices - 1, ∃ c ∈ m.cells, m.hexahedron k c = a := by
  rw [h.cells, List.mem_flatMap]
  simp only [List.mem_range, List.mem_map]

theorem Extrudes.isPiece_iff (h : m.Extrudes slices m') (hslices : 2 ≤ slices) {x : Key} :
    m'.IsPiece x ↔ ∃ j < 2 * slices - 1, ∃ l, m.IsPiece l ∧ m.slice j l = x := by
  constructor
  · intro hx
    obtain ⟨a, ha, p, hp, rfl⟩ := hx
    obtain ⟨k, hk, c, hc, rfl⟩ := h.mem_cells.mp ha
    have hlt := latticeDigit_lt p 2
    exact ⟨2 * k + latticeDigit p 2, by omega, _, ⟨c, hc, p % 9, Nat.mod_lt _ (by decide), rfl⟩,
      (m.latticeKey_hexahedron k c hp).symm⟩
  · intro hx
    obtain ⟨j, hj, _, ⟨c, hc, q, hq, rfl⟩, rfl⟩ := hx
    -- The last layer belongs to the hexahedra below it, every other one to those above it too.
    let k := min (j / 2) (slices - 2)
    have hk : k < slices - 1 := by omega
    obtain ⟨hp, hmod, hdigit⟩ := latticePoint_stack (e := j - 2 * k) (by omega) hq
    refine ⟨_, h.mem_cells.mpr ⟨k, hk, c, hc, rfl⟩, _, hp, ?_⟩
    have hlevel : 2 * k + (j - 2 * k) = j := by omega
    rw [latticeKey_hexahedron m k c hp, hmod, hdigit, hlevel]

theorem Extrudes.piecesConform (h : m.Extrudes slices m') (hm : m.CellsValid)
    (hapart : m.CellsApart) : m'.PiecesConform := by
  have hplane : m.PiecesConform := Mesh.piecesConform (by decide) fun hd => absurd hd (by decide)
  have hcell {c : Cell 2} (hc : c ∈ m.cells) :
      (∀ v ∈ Key.ofList c.toList, v < m.vertices.size) ∧ Key.ofList c.toList ≠ [] := by
    refine ⟨fun v hv => hm c hc v (Key.mem_ofList.mp hv), ?_⟩
    rw [← Cell.latticeKey_rev c (Corner.low 2)]
    exact c.latticeKey_ne_nil _
  have hedge {c : Cell 2} (hc : c ∈ m.cells) {f : Nat} (hf : f < 4) :
      (∀ v ∈ c.faceKey f, v < m.vertices.size) ∧ c.faceKey f ≠ [] := by
    refine ⟨fun u hu => ?_, c.faceKey_ne_nil hf⟩
    obtain ⟨v, -, rfl⟩ := Cell.mem_faceKey.mp hu
    exact hm c hc _ (c.get_mem v)
  have hkey (k : Nat) (c : Cell 2) {f : Nat} (hf : f < 6) :
      f < 4 ∧ (m.hexahedron k c).faceKey f = m.slice (2 * k + 1) (c.faceKey f) ∨
        ∃ side < 2, f = 4 + side ∧
          (m.hexahedron k c).faceKey f = m.slice (2 * (k + side)) (Key.ofList c.toList) := by
    rcases m.faceKey_hexahedron k c hf with ⟨hf, hkey⟩ | ⟨rfl, hkey⟩ | ⟨rfl, hkey⟩
    · exact Or.inl ⟨hf, hkey.trans (m.slice_odd k _).symm⟩
    · refine Or.inr ⟨0, by decide, rfl, ?_⟩
      rw [hkey, slice_even, Key.ofList_map_ofList, Nat.add_zero]
    · refine Or.inr ⟨1, by decide, rfl, ?_⟩
      rw [hkey, slice_even, Key.ofList_map_ofList]
  intro a ha b hb f hf g hg hkeys
  obtain ⟨k, -, c, hc, rfl⟩ := h.mem_cells.mp ha
  obtain ⟨l, -, e, he, rfl⟩ := h.mem_cells.mp hb
  refine Set.ext fun x => ?_
  rcases hkey k c hf with ⟨hf, hcf⟩ | ⟨s, hs, rfl, hcf⟩ <;>
    rcases hkey l e hg with ⟨hg, heg⟩ | ⟨t, ht, rfl, heg⟩ <;> rw [hcf, heg] at hkeys
  · obtain ⟨hlevel, hsame⟩ := slice_inj (c.pairwise_key _) (e.pairwise_key _) (hedge hc hf).1
      (hedge he hg).1 (hedge hc hf).2 (hedge he hg).2 hkeys
    obtain rfl : k = l := by omega
    rw [mem_facePieces_lateral hf, mem_facePieces_lateral hg, hplane c hc e he f hf g hg hsame]
  · have hlevel := (slice_inj (c.pairwise_key _) (Key.pairwise_ofList _) (hedge hc hf).1
      (hcell he).1 (hedge hc hf).2 (hcell he).2 hkeys).1
    omega
  · have hlevel := (slice_inj (Key.pairwise_ofList _) (e.pairwise_key _) (hcell hc).1
      (hedge he hg).1 (hcell hc).2 (hedge he hg).2 hkeys).1
    omega
  · obtain ⟨hlevel, hsame⟩ := slice_inj (Key.pairwise_ofList _) (Key.pairwise_ofList _)
      (hcell hc).1 (hcell he).1 (hcell hc).2 (hcell he).2 hkeys
    obtain ⟨i, hi⟩ := List.mem_iff_getElem?.mp hc
    obtain ⟨j, hj⟩ := List.mem_iff_getElem?.mp he
    obtain rfl := hapart.eq_of_perm hi hj hsame
    obtain rfl := Option.some.inj (hi.symm.trans hj)
    rw [mem_facePieces_end hs, mem_facePieces_end ht, hlevel]

theorem nodup_hexahedron {c : Cell 2} (hc : ∀ v ∈ c.toList, v < m.vertices.size)
    (hdistinct : c.toList.Nodup) (k : Nat) : (m.hexahedron k c).toList.Nodup := by
  refine Cell.nodup_of_get_injective fun v w he => ?_
  rw [get_hexahedron, get_hexahedron] at he
  obtain ⟨hlayer, hbase⟩ := block_inj (hc _ (c.get_mem _)) (hc _ (c.get_mem _)) he
  refine Corner.ext_base v w (Cell.get_injective hdistinct hbase) ?_
  revert hlayer
  cases Corner.high v 2 <;> cases Corner.high w 2 <;> simp

/-! ## The extruded mesh with its vertices -/

/-- The second mesh is the extruded first one: its vertices are those of the plane in each
layer. -/
structure Stacks [Scalar K] (m : Mesh K 2) (slices : Nat) (height : K) (m' : Mesh K 3) : Prop
    extends m.Extrudes slices m' where
  size : m'.vertices.size = slices * m.vertices.size
  position : ∀ k < slices, ∀ v < m.vertices.size, m'.position (m.layered k v) =
    .xyz (m.position v).abscissa (m.position v).ordinate
      (height * (k : K) / ((slices - 1 : Nat) : K))

section Stacked

variable [Scalar K] {height : K}

theorem stacks_of_extrude (hm' : m.extrude slices height = .ok m') : m.Stacks slices height m' := by
  obtain ⟨-, h, hvertices⟩ := extrudes_of_extrude hm'
  refine ⟨h, ?_, fun k hk v hv => ?_⟩
  · rw [hvertices, List.size_toArray, List.length_flatMap]
    simp
  · rw [Mesh.position, layered, hvertices, List.getElem?_toArray,
      getElem?_flatMap_of_length (n := m.vertices.size) (fun k => by simp) _ _ _ hv,
      List.getElem?_range hk, Option.bind_some, List.getElem?_map, Array.getElem?_toList,
      position_eq hv]
    rfl

theorem Stacks.cellsValid (h : m.Stacks slices height m') (hm : m.CellsValid) : m'.CellsValid := by
  intro a ha u hu
  obtain ⟨k, hk, c, hc, rfl⟩ := h.mem_cells.mp ha
  rw [toList_hexahedron] at hu
  rw [h.size]
  exact lateral_lt hk (hm c hc) u hu

theorem Stacks.regular (h : m.Stacks slices height m') (hm : m.CellsValid)
    (hdistinct : m.CellsDistinct) (hapart : m.CellsApart) : m'.Regular := by
  refine ⟨h.cellsValid hm, fun a ha => ?_, fun _ => (h.piecesConform hm hapart).facesConform⟩
  obtain ⟨k, -, c, hc, rfl⟩ := h.mem_cells.mp ha
  exact nodup_hexahedron (hm c hc) (hdistinct c hc) k

/-- The last layer belongs to the hexahedra below it, every other one to those above it too. -/
theorem Stacks.exists_mem_hexahedron (h : m.Stacks slices height m') (hslices : 2 ≤ slices)
    {k v : Nat} (hk : k < slices) {c : Cell 2} (hc : c ∈ m.cells) (hv : v ∈ c.toList) :
    ∃ a ∈ m'.cells, m.layered k v ∈ a.toList := by
  by_cases hlast : k = slices - 1
  · have hlayer : slices - 2 + 1 = k := by omega
    refine ⟨_, h.mem_cells.mpr ⟨slices - 2, by omega, c, hc, rfl⟩, ?_⟩
    rw [toList_hexahedron, hlayer]
    exact List.mem_append_right _ (List.mem_map_of_mem hv)
  · refine ⟨_, h.mem_cells.mpr ⟨k, by omega, c, hc, rfl⟩, ?_⟩
    rw [toList_hexahedron]
    exact List.mem_append_left _ (List.mem_map_of_mem hv)

theorem Stacks.verticesUsed (h : m.Stacks slices height m') (hslices : 2 ≤ slices)
    (hused : m.VerticesUsed) : m'.VerticesUsed := by
  intro u hu
  rw [h.size] at hu
  obtain ⟨k, hk, v, hv, rfl⟩ := exists_layered hu
  obtain ⟨c, hc, hv⟩ := hused v hv
  exact h.exists_mem_hexahedron hslices hk hc hv

end Stacked

end Mesh
end HexMesh
