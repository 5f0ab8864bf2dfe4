import Mathlib.Data.Set.Card
import Mathlib.Order.Interval.Finset.Nat
import HexMesh.Mesh.Inspection
import HexMesh.Proofs.Extrusion.Pieces
import HexMesh.Proofs.Mesh.Constructions
import HexMesh.Proofs.Number.Rational
import HexMesh.Proofs.Workshop

/-!
Vertices that no cell uses.

An inspection counts them, whatever the coordinates are.  Refinement makes no vertex without
a cell, since each point of the halving lattice is a corner of a child, and an old vertex stays
a corner of the child at it.  A vertex that survives identification has only lost its cells if
it had none, so that the count never grows.
-/

namespace HexMesh

open HexMesh.Cube

namespace Mesh

variable {K : Type} {d : Nat} {m m' : Mesh K d}

/-- The vertices of the table that are no corner of any cell. -/
def strays (m : Mesh K d) : Set Nat := {v | v < m.vertices.size ∧ ∀ c ∈ m.cells, v ∉ c.toList}

theorem finite_strays (m : Mesh K d) : m.strays.Finite :=
  (Set.finite_Iio m.vertices.size).subset fun _ h => h.1

/-- Which vertices are stray depends on nothing but the cells and the number of vertices. -/
theorem strays_congr (hsize : m'.vertices.size = m.vertices.size) (hcells : m'.cells = m.cells) :
    m'.strays = m.strays := by
  rw [strays, strays, hsize, hcells]

/-! ## Counting -/

theorem getD_foldl_mark (vs : List Nat) (used : Array Bool) (v : Nat) :
    (vs.foldl (fun u w => u.setIfInBounds w true) used).getD v false = true ↔
      used.getD v false = true ∨ v ∈ vs ∧ v < used.size := by
  induction vs generalizing used with
  | nil => simp
  | cons w rest ih =>
    rw [List.foldl_cons, ih, Array.size_setIfInBounds, Array.getD_eq_getD_getElem?,
      Array.getElem?_setIfInBounds, Array.getD_eq_getD_getElem?]
    by_cases hv : w = v
    · subst hv
      by_cases hsize : w < used.size
      · simp [hsize]
      · simp [hsize]
    · simp [hv, Ne.symm hv]

theorem mem_unusedVertices {v : Nat} : v ∈ m.unusedVertices ↔ v ∈ m.strays := by
  have hflat : m.cells.foldl
      (fun used c => c.toList.foldl (fun u w => u.setIfInBounds w true) used)
        (Array.replicate m.vertices.size false) =
      (m.cells.flatMap fun c => c.toList).foldl (fun u w => u.setIfInBounds w true)
        (Array.replicate m.vertices.size false) :=
    List.foldl_flatMap.symm
  have hnone : (Array.replicate m.vertices.size false).getD v false = false := by
    rw [Array.getD_eq_getD_getElem?, Array.getElem?_replicate]
    split <;> rfl
  rw [unusedVertices, hflat, List.mem_filter, List.mem_range, strays, Set.mem_ofPred_eq]
  refine and_congr_right fun hv => ?_
  rw [Bool.not_eq_true', ← Bool.not_eq_true, getD_foldl_mark, hnone]
  simp [hv]

theorem length_unusedVertices (m : Mesh K d) : m.unusedVertices.length = m.strays.ncard := by
  have hnodup : m.unusedVertices.Nodup := List.nodup_range.filter _
  have hset : m.strays = (m.unusedVertices.toFinset : Set Nat) := by
    ext v
    rw [List.coe_toFinset, Set.mem_ofPred_eq, mem_unusedVertices]
  rw [hset, Set.ncard_coe_finset, List.toFinset_card_of_nodup hnodup]

theorem unused_inspect [Scalar K] [SquareRoot K] (m : Mesh K d) :
    m.inspect.unused = m.strays.ncard :=
  m.length_unusedVertices

/-! ## Refinement -/

section Refined

variable [Scalar K]

/-- The middle of each piece is a corner of a child: of the one at any corner of the piece. -/
theorem IsPiece.exists_mem_child {k : Key} (h : m.IsPiece k) :
    ∃ a ∈ m.refineOnce.cells, m.middle k ∈ a.toList := by
  obtain ⟨c, hc, p, hp, rfl⟩ := h
  obtain ⟨child, hchild⟩ := exists_supports (d := d) (p := p)
  obtain ⟨v, rfl⟩ := exists_childPoint hp hchild
  refine ⟨_, mem_cells_refineOnce.mpr ⟨c, hc, child, rfl⟩, Cell.mem_toList_iff.mpr ⟨v, ?_⟩⟩
  exact m.get_childCell c child v

theorem strays_refineOnce (m : Mesh K d) : m.refineOnce.strays = m.strays := by
  refine Set.ext fun v => ⟨fun h => ?_, fun h => ?_⟩
  · obtain ⟨hlt, hfree⟩ := h
    constructor
    · by_contra hnew
      obtain ⟨i, rfl⟩ := Nat.exists_eq_add_of_le (Nat.le_of_not_lt hnew)
      rw [size_refineOnce] at hlt
      have hi : i < m.newKeys.keys.size := Nat.lt_of_add_lt_add_left hlt
      obtain ⟨hpiece, hlength⟩ := mem_newKeys.mp (Array.getElem_mem hi)
      obtain ⟨a, ha, hmem⟩ := hpiece.exists_mem_child
      rw [middle_of_length hlength,
        m.valid_newKeys.number_eq (Array.getElem?_eq_getElem hi)] at hmem
      exact hfree a ha hmem
    · intro c hc hv
      obtain ⟨w, rfl⟩ := Cell.mem_toList_iff.mp hv
      obtain ⟨a, ha, hmem⟩ := (isPiece_latticeKey hc w w).exists_mem_child
      rw [c.latticeKey_self w, middle_singleton] at hmem
      exact hfree a ha hmem
  · obtain ⟨hlt, hfree⟩ := h
    refine ⟨?_, fun a ha hv => ?_⟩
    · rw [size_refineOnce]
      exact Nat.lt_add_right _ hlt
    · obtain ⟨c, hc, child, rfl⟩ := mem_cells_refineOnce.mp ha
      obtain ⟨w, rfl⟩ := Cell.mem_toList_iff.mp hv
      rw [get_childCell] at hlt hfree
      rcases (isPiece_latticeKey hc child w).singleton_or_length with ⟨u, hu⟩ | hlength
      · rw [hu, middle_singleton] at hfree
        have hmem : u ∈ c.latticeKey (childPoint child w) := hu ▸ List.mem_cons_self
        obtain ⟨x, -, rfl⟩ := Cell.mem_latticeKey.mp hmem
        exact hfree c hc (c.get_mem x)
      · rw [middle_of_length hlength] at hlt
        omega

theorem strays_refine (m : Mesh K d) (n : Nat) : (m.refine n).strays = m.strays := by
  induction n with
  | zero => rfl
  | succ n ih => rw [refine_succ, strays_refineOnce, ih]

end Refined

/-! ## Extrusion -/

section Stacked

variable [Scalar K] {e : Mesh K 2} {e' : Mesh K 3} {slices : Nat} {height : K}

/-- Each layer has the stray vertices of the plane. -/
theorem Stacks.strays (h : e.Stacks slices height e') (hslices : 2 ≤ slices) (he : e.CellsValid) :
    e'.strays = (fun p => e.layered p.1 p.2) '' (Set.Iio slices ×ˢ e.strays) := by
  refine Set.ext fun u => ⟨fun hu => ?_, fun hu => ?_⟩
  · obtain ⟨hlt, hfree⟩ := hu
    rw [h.size] at hlt
    obtain ⟨k, hk, v, hv, rfl⟩ := exists_layered hlt
    refine ⟨(k, v), ⟨hk, hv, fun c hc hmem => ?_⟩, rfl⟩
    obtain ⟨a, ha, hmem⟩ := h.exists_mem_hexahedron hslices hk hc hmem
    exact hfree a ha hmem
  · obtain ⟨⟨k, v⟩, ⟨hk, hv, hfree⟩, rfl⟩ := hu
    refine ⟨?_, fun a ha hmem => ?_⟩
    · rw [h.size]
      exact layered_lt hk hv
    · obtain ⟨l, -, c, hc, rfl⟩ := h.mem_cells.mp ha
      rw [toList_hexahedron, List.mem_append, List.mem_map, List.mem_map] at hmem
      obtain ⟨j, w, hw, hsame⟩ : ∃ j, ∃ w ∈ c.toList, e.layered j w = e.layered k v := by
        obtain ⟨w, hw, hsame⟩ | ⟨w, hw, hsame⟩ := hmem
        · exact ⟨l, w, hw, hsame⟩
        · exact ⟨l + 1, w, hw, hsame⟩
      obtain ⟨-, rfl⟩ := block_inj (he c hc w hw) hv hsame
      exact hfree c hc hw

theorem Stacks.ncard_strays (h : e.Stacks slices height e') (hslices : 2 ≤ slices)
    (he : e.CellsValid) : e'.strays.ncard = slices * e.strays.ncard := by
  have hinj : Set.InjOn (fun p => e.layered p.1 p.2) (Set.Iio slices ×ˢ e.strays) := by
    intro p hp q hq hsame
    obtain ⟨hlayer, hvertex⟩ := block_inj hp.2.1 hq.2.1 hsame
    exact Prod.ext hlayer hvertex
  rw [h.strays hslices he, hinj.ncard_image, Set.ncard_prod, ← Finset.coe_Iio,
    Set.ncard_coe_finset, Nat.card_Iio]

end Stacked

/-! ## Identification -/

theorem strays_append_subset (a b : Mesh K d) :
    (a.append b).strays ⊆ a.strays ∪ (· + a.vertices.size) '' b.strays := by
  intro v hv
  obtain ⟨hlt, hfree⟩ := hv
  rw [size_vertices_append] at hlt
  rcases Nat.lt_or_ge v a.vertices.size with hold | hnew
  · exact Or.inl ⟨hold, fun c hc => hfree c (List.mem_append_left _ hc)⟩
  · obtain ⟨w, rfl⟩ := Nat.exists_eq_add_of_le' hnew
    refine Or.inr ⟨w, ⟨by omega, fun c hc hw => ?_⟩, rfl⟩
    refine hfree _ (List.mem_append_right _ (List.mem_map_of_mem hc)) ?_
    rw [Vector.toList_map]
    exact List.mem_map_of_mem hw

theorem ncard_strays_append_le (a b : Mesh K d) :
    (a.append b).strays.ncard ≤ a.strays.ncard + b.strays.ncard := by
  have himage : ((· + a.vertices.size) '' b.strays).ncard = b.strays.ncard :=
    Set.ncard_image_of_injective _ fun _ _ h => Nat.add_right_cancel h
  have hfinite : (a.strays ∪ (· + a.vertices.size) '' b.strays).Finite :=
    a.finite_strays.union (b.finite_strays.image _)
  calc (a.append b).strays.ncard
      ≤ (a.strays ∪ (· + a.vertices.size) '' b.strays).ncard :=
        Set.ncard_le_ncard (strays_append_subset a b) hfinite
    _ ≤ a.strays.ncard + ((· + a.vertices.size) '' b.strays).ncard := Set.ncard_union_le _ _
    _ = a.strays.ncard + b.strays.ncard := by rw [himage]

section Identified

variable [Scalar K]

/-- A survivor without cells had none before, for its cells would have followed it. -/
theorem Identifies.ncard_strays_le {r : Identification} {f : Nat → Nat}
    (h : m.Identifies m' r f) (hsize : r.representative.size = m.vertices.size) :
    m'.strays.ncard ≤ m.strays.ncard := by
  have hnodup : r.survivors.Nodup := r.pairwise_survivors.imp fun h => Nat.ne_of_lt h
  have hlength {i : Nat} (hi : i ∈ m'.strays) : i < r.survivors.length :=
    h.size_vertices ▸ hi.1
  have hget {i : Nat} (hi : i ∈ m'.strays) : r.survivors[i]? = some (r.survivors.getD i 0) := by
    rw [List.getD_eq_getElem?_getD, List.getElem?_eq_getElem (hlength hi)]
    rfl
  refine Set.ncard_le_ncard_of_injOn (fun i => r.survivors.getD i 0) (fun i hi => ?_)
    (fun i hi j hj hsame => ?_) m.finite_strays
  · obtain ⟨hlt, hself⟩ := Identification.mem_survivors.mp (List.mem_of_getElem? (hget hi))
    rw [hsize] at hlt
    refine ⟨hlt, fun c hc hmem => ?_⟩
    have hplace := h.place _ hlt
    rw [hself, ← hget hi] at hplace
    have hstay : f (r.survivors.getD i 0) = i :=
      ((List.getElem?_inj (hlength hi) hnodup).mp hplace.symm).symm
    refine hi.2 (c.map f) (h.cells ▸ List.mem_map_of_mem hc) ?_
    rw [Vector.toList_map, ← hstay]
    exact List.mem_map_of_mem hmem
  · refine (List.getElem?_inj (hlength hi) hnodup).mp ?_
    rw [hget hi, hget hj]
    exact congrArg some hsame

theorem ncard_strays_deduplicate_le {tol : K} {n : Nat} (h : m.deduplicate tol = .ok (m', n)) :
    m'.strays.ncard ≤ m.strays.ncard := by
  obtain ⟨f, hf⟩ := identifies_deduplicate h
  exact hf.ncard_strays_le (m.sound_identify tol).size

variable [SquareRoot K]

theorem ncard_strays_merge_le {a b : Mesh K d} (h : a.merge b = .ok m') :
    m'.strays.ncard ≤ a.strays.ncard + b.strays.ncard := by
  rw [merge_eq] at h
  obtain ⟨⟨glued, n⟩, hglued, h⟩ := bind_eq_ok_iff.mp h
  cases h
  calc glued.pruneIndicators.strays.ncard
      = glued.strays.ncard := rfl
    _ ≤ (({ a with shapes := ∅ } : Mesh K d).append b).strays.ncard :=
        ncard_strays_deduplicate_le hglued
    _ ≤ a.strays.ncard + b.strays.ncard :=
        ncard_strays_append_le { a with shapes := ∅ } b

/-! ## All operations -/

theorem ncard_strays_apply_le {c : Change K d} (h : c.apply m = .ok m') :
    m'.strays.ncard ≤ m.strays.ncard := by
  cases c with
  | setIndicator vs i =>
    cases h
    exact Nat.le_refl _
  | setFaceIndicator cell face i =>
    obtain ⟨c, -, h⟩ := bind_eq_ok_iff.mp h
    cases h
    exact Nat.le_refl _
  | setShape i s =>
    cases h
    exact Nat.le_refl _
  | clearShape i =>
    cases h
    exact Nat.le_refl _
  | refine times =>
    cases h
    rw [strays_refine]
  | transform f =>
    cases h
    have hsame : (m.transform f).strays = m.strays := strays_congr Array.size_map rfl
    rw [hsame]
  | distort factor keepBoundary words =>
    cases h
    obtain ⟨vertices, hsize, hm⟩ := m.exists_distort factor keepBoundary words
    have hsame : (m.distort factor keepBoundary words).strays = m.strays := by
      rw [hm]
      exact strays_congr hsize rfl
    rw [hsame]
  | deduplicate tol =>
    obtain ⟨⟨glued, n⟩, hglued, h⟩ := bind_eq_ok_iff.mp h
    cases h
    exact ncard_strays_deduplicate_le hglued

/-- How many unused vertices an inspection counts, and what becomes of them.  The count is that
of the vertices in no cell, whatever their coordinates are.  Refinement keeps it, extrusion
multiplies it by the number of layers where there are indicators enough for it, identification and
all other changes never increase it, and gluing makes it at most the sum of both. -/
theorem unused_of_operations (m : Mesh K d) :
    m.inspect.unused = {v | v < m.vertices.size ∧ ∀ c ∈ m.cells, v ∉ c.toList}.ncard ∧
    (∀ n, (m.refine n).inspect.unused = m.inspect.unused) ∧
    (∀ (e : Mesh K 2) (slices : Nat) (height : K), e.CellsValid → 2 ≤ slices →
      ¬height ≤ ((0 : Nat) : K) →
      ((∃ e', e.extrude slices height = .ok e') ↔ e.maxIndicator.toNat + 2 < 2 ^ 32) ∧
      ∀ e', e.extrude slices height = .ok e' → e'.inspect.unused = slices * e.inspect.unused) ∧
    (∀ tol m' n, m.deduplicate tol = .ok (m', n) → m'.inspect.unused ≤ m.inspect.unused) ∧
    (∀ b m', m.merge b = .ok m' → m'.inspect.unused ≤ m.inspect.unused + b.inspect.unused) ∧
    (∀ (c : Change K d) m', c.apply m = .ok m' → m'.inspect.unused ≤ m.inspect.unused) ∧
    (m.WellFormed → (∀ tol, ∃ m' n, m.deduplicate tol = .ok (m', n)) ∧
      ∀ b, b.WellFormed → ∃ m', m.merge b = .ok m') := by
  refine ⟨m.unused_inspect, fun n => ?_, fun e slices height he hslices hheight => ?_,
    fun tol m' n h => ?_, fun b m' h => ?_, fun c m' h => ?_, fun hm => ⟨fun tol => ?_, ?_⟩⟩
  · rw [unused_inspect, unused_inspect, strays_refine]
  · refine ⟨exists_extrude_iff hslices hheight, fun e' he' => ?_⟩
    rw [unused_inspect, unused_inspect, (stacks_of_extrude he').ncard_strays hslices he]
  · rw [unused_inspect, unused_inspect]
    exact ncard_strays_deduplicate_le h
  · rw [unused_inspect, unused_inspect, unused_inspect]
    exact ncard_strays_merge_le h
  · rw [unused_inspect, unused_inspect]
    exact ncard_strays_apply_le h
  · exact exists_deduplicate hm.key_lt tol
  · intro b hb
    obtain ⟨m', hm', -⟩ := exists_merge hm hb
    exact ⟨m', hm'⟩

end Identified

/-- A quadrilateral that is folded onto a line, with a vertex that it does not use. -/
def foldedWithSpare : Mesh ℚ 2 :=
  { vertices := #[.xy 0 0, .xy 1 0, .xy 7 7, .xy 1 0]
    cells := [#v[0, 1, 0, 3]] }

theorem unused_of_operations_foldedWithSpare :
    foldedWithSpare.WellFormed ∧ foldedWithSpare.CellsValid ∧ 2 ≤ 3 ∧
      ¬(1 / 2 : ℚ) ≤ ((0 : Nat) : ℚ) ∧
      (∀ n, (foldedWithSpare.refine n).inspect.unused = 1) ∧
      (∃ m', foldedWithSpare.extrude 3 (1 / 2) = .ok m' ∧ m'.inspect.unused = 3) ∧
      (∃ m' n, foldedWithSpare.deduplicate 0 = .ok (m', n) ∧ m'.inspect.unused ≤ 1) ∧
      ∃ m', foldedWithSpare.merge foldedWithSpare = .ok m' ∧ m'.inspect.unused ≤ 2 := by
  have hwell : foldedWithSpare.WellFormed :=
    wellFormed_iff.mpr ⟨by decide, fun k hk => by simp [foldedWithSpare] at hk⟩
  have hheight : ¬(1 / 2 : ℚ) ≤ ((0 : Nat) : ℚ) := by norm_num
  have hone : foldedWithSpare.inspect.unused = 1 := by decide +kernel
  obtain ⟨-, hrefine, hextrude, hdeduplicate, hmerge, -, hsuccess⟩ :=
    unused_of_operations foldedWithSpare
  obtain ⟨hexists, htriples⟩ :=
    hextrude foldedWithSpare 3 (1 / 2) hwell.cell_lt (by decide) hheight
  obtain ⟨m, hm⟩ := hexists.mpr (by decide +kernel)
  obtain ⟨m', n, hm'⟩ := (hsuccess hwell).1 0
  obtain ⟨m'', hm''⟩ := (hsuccess hwell).2 foldedWithSpare hwell
  refine ⟨hwell, hwell.cell_lt, by decide, hheight, fun n => ?_, ⟨m, hm, ?_⟩, ⟨m', n, hm', ?_⟩,
    m'', hm'', ?_⟩
  · rw [hrefine, hone]
  · rw [htriples m hm, hone]
  · rw [← hone]
    exact hdeduplicate 0 m' n hm'
  · have hsum := hmerge foldedWithSpare m'' hm''
    rwa [hone] at hsum

end Mesh
end HexMesh
