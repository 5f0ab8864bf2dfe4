import HexMesh.Mesh.Merge
import HexMesh.Number.Binary64
import HexMesh.Proofs.Identification.Deduplication

/-!
The boundary of two meshes that are glued together.

Side by side the meshes have no vertex in common, so that keys of one are never keys
of the other and each face keeps what it had.  Everything else is the identification
of vertices, which takes faces off the boundary and never puts one there.
-/

namespace HexMesh

open HexMesh.Cube

/-- The same face after the cells of another mesh. -/
def FaceRef.behind (r : FaceRef) (n : Nat) : FaceRef := ⟨n + r.cell, r.face⟩

def BoundaryFace.behind (b : BoundaryFace) (n : Nat) : BoundaryFace :=
  { b.toFaceRef.behind n with indicator := b.indicator }

theorem FaceRef.behind_inj {r s : FaceRef} {n : Nat} (h : r.behind n = s.behind n) : r = s := by
  obtain ⟨i, f⟩ := r
  obtain ⟨j, g⟩ := s
  obtain ⟨hcell, rfl⟩ := FaceRef.mk.inj h
  have hcell : i = j := Nat.add_left_cancel hcell
  rw [hcell]

theorem Key.ofList_shift (vs : List Nat) (n : Nat) :
    Key.ofList (vs.map (· + n)) = (Key.ofList vs).map (· + n) := by
  rw [← ofList_map_ofList]
  refine ofList_of_pairwise (List.pairwise_map.mpr ((pairwise_ofList vs).imp fun h => ?_))
  exact Nat.add_le_add_right h n

theorem Key.shift_injective (n : Nat) : Function.Injective fun k : Key => k.map (· + n) :=
  List.map_injective_iff.mpr fun _ _ h => Nat.add_right_cancel h

theorem Cell.faceKey_shift {d : Nat} (c : Cell d) (n face : Nat) :
    Cell.faceKey (c.map (· + n)) face = (c.faceKey face).map (· + n) := by
  rw [faceKey_map, faceKey, key, Key.ofList_map_ofList, Key.ofList_shift]

namespace Mesh

variable {K : Type} {d : Nat} {a b : Mesh K d}

/-! ## Meshes side by side -/

theorem getElem?_cells_append {t : Nat} {e : Cell d} :
    (a.append b).cells[t]? = some e ↔ a.cells[t]? = some e ∨
      ∃ s c, b.cells[s]? = some c ∧ t = a.cells.length + s ∧ e = c.map (· + a.vertices.size) := by
  show (a.cells ++ b.cells.map (·.map (· + a.vertices.size)))[t]? = some e ↔ _
  constructor
  · intro h
    rcases Nat.lt_or_ge t a.cells.length with ht | ht
    · rw [List.getElem?_append_left ht] at h
      exact Or.inl h
    · rw [List.getElem?_append_right ht, List.getElem?_map, Option.map_eq_some_iff] at h
      obtain ⟨c, hc, rfl⟩ := h
      exact Or.inr ⟨t - a.cells.length, c, hc, (Nat.add_sub_cancel' ht).symm, rfl⟩
  · intro h
    obtain h | ⟨s, c, hc, rfl, rfl⟩ := h
    · rw [List.getElem?_append_left (List.getElem?_eq_some_iff.mp h).1]
      exact h
    · rw [List.getElem?_append_right (Nat.le_add_right _ _), Nat.add_sub_cancel_left,
        List.getElem?_map, hc]
      rfl

theorem hasFace_append {r : FaceRef} {k : Key} :
    (a.append b).HasFace r k ↔ a.HasFace r k ∨
      ∃ s l, b.HasFace s l ∧ r = s.behind a.cells.length ∧ k = l.map (· + a.vertices.size) := by
  constructor
  · intro h
    obtain ⟨e, he, hface, rfl⟩ := h
    rcases getElem?_cells_append.mp he with hc | ⟨s, c, hc, hcell, rfl⟩
    · exact Or.inl ⟨e, hc, hface, rfl⟩
    · refine Or.inr ⟨⟨s, r.face⟩, c.faceKey r.face, ⟨c, hc, hface, rfl⟩, ?_, c.faceKey_shift _ _⟩
      rw [FaceRef.behind, ← hcell]
  · intro h
    obtain ⟨c, hc, hface, rfl⟩ | ⟨s, l, ⟨c, hc, hface, rfl⟩, rfl, rfl⟩ := h
    · exact ⟨c, getElem?_cells_append.mpr (Or.inl hc), hface, rfl⟩
    · exact ⟨_, getElem?_cells_append.mpr (Or.inr ⟨s.cell, c, hc, rfl, rfl⟩), hface,
        c.faceKey_shift _ _⟩

theorem indicators_append (a b : Mesh K d) :
    (a.append b).indicators =
      (b.indicators.toList.map fun e => (e.1.map (· + a.vertices.size), e.2)).foldl
        (fun t e => t.insert e.1 e.2) a.indicators := by
  rw [List.foldl_map]
  rfl

/-- A key with an old vertex is not a key of the second mesh. -/
theorem getElem?_indicators_append_left {k : Key} (hk : ∃ v ∈ k, v < a.vertices.size) :
    (a.append b).indicators[k]? = a.indicators[k]? := by
  obtain ⟨v, hv, hlt⟩ := hk
  rw [indicators_append]
  refine KeyMap.getElem?_foldl_insert_of_ne a.indicators fun e he hkey => ?_
  obtain ⟨e', -, rfl⟩ := List.mem_map.mp he
  rw [← hkey] at hv
  obtain ⟨w, -, rfl⟩ := List.mem_map.mp hv
  exact Nat.not_lt.mpr (Nat.le_add_left _ _) hlt

theorem getElem?_indicators_append_right {k : Key}
    (hk : a.indicators[k.map (· + a.vertices.size)]? = none) :
    (a.append b).indicators[k.map (· + a.vertices.size)]? = b.indicators[k]? := by
  rw [indicators_append]
  exact KeyMap.getElem?_foldl_insert_toList (g := fun l => l.map (· + a.vertices.size)) hk
    fun l _ he => Key.shift_injective _ he

theorem mem_indicators_append {k : Key} (hk : k ∈ (a.append b).indicators) :
    k ∈ a.indicators ∨ ∃ l ∈ b.indicators, k = l.map (· + a.vertices.size) := by
  by_cases hshift : ∃ l ∈ b.indicators, k = l.map (· + a.vertices.size)
  · exact Or.inr hshift
  · rw [Std.ExtTreeMap.mem_iff_isSome_getElem?, indicators_append,
      KeyMap.getElem?_foldl_insert_of_ne] at hk
    · exact Or.inl (Std.ExtTreeMap.mem_iff_isSome_getElem?.mpr hk)
    · intro e he h
      subst h
      obtain ⟨⟨l, i⟩, hl, rfl⟩ := List.mem_map.mp he
      have hstored : b.indicators[l]? = some i :=
        Std.ExtTreeMap.mem_toList_iff_getElem?_eq_some.mp hl
      refine hshift ⟨l, Std.ExtTreeMap.mem_iff_isSome_getElem?.mpr ?_, rfl⟩
      rw [hstored]
      rfl

theorem size_vertices_append (a b : Mesh K d) :
    (a.append b).vertices.size = a.vertices.size + b.vertices.size :=
  Array.size_append

theorem length_cells_append (a b : Mesh K d) :
    (a.append b).cells.length = a.cells.length + b.cells.length := by
  show (a.cells ++ b.cells.map _).length = _
  rw [List.length_append, List.length_map]

/-- A mesh put behind nothing is the mesh without its shapes. -/
theorem empty_append (a : Mesh K d) : ({} : Mesh K d).append a = { a with shapes := ∅ } := by
  have hzero : ∀ k : Key, k.map (· + 0) = k := fun k => List.map_id'' (fun _ => rfl) k
  have hcells : ([] : List (Cell d)) ++ a.cells.map (fun c => c.map (· + 0)) = a.cells :=
    List.map_id'' (fun c => Vector.map_id c) _
  have hindicators : (({} : Mesh K d).append a).indicators = a.indicators := by
    refine Std.ExtTreeMap.ext_getElem? fun k => ?_
    have hk : (({} : Mesh K d).append a).indicators[k.map (· + 0)]? = a.indicators[k]? :=
      getElem?_indicators_append_right Std.ExtTreeMap.getElem?_empty
    rwa [hzero] at hk
  have hvertices : #[] ++ a.vertices = a.vertices := Array.empty_append
  rw [append, Mesh.mk.injEq]
  exact ⟨hvertices, hcells, hindicators, rfl⟩

theorem keysOnFaces_append (ha : a.KeysOnFaces) (hb : b.KeysOnFaces) :
    (a.append b).KeysOnFaces := by
  intro k hk
  rcases mem_indicators_append hk with hk | ⟨l, hl, rfl⟩
  · obtain ⟨r, hr⟩ := ha k hk
    exact ⟨r, hasFace_append.mpr (Or.inl hr)⟩
  · obtain ⟨s, hs⟩ := hb l hl
    exact ⟨_, hasFace_append.mpr (Or.inr ⟨s, l, hs, rfl, rfl⟩)⟩

theorem boundaryFaces_append (ha : a.WellFormed) {x : BoundaryFace}
    (hx : x ∈ (a.append b).boundaryFaces) :
    x ∈ a.boundaryFaces ∨ ∃ y ∈ b.boundaryFaces, x = y.behind a.cells.length := by
  obtain ⟨k, ⟨hface, honly⟩, hindicator⟩ := mem_boundaryFaces.mp hx
  rw [indicator, Std.ExtTreeMap.getD_eq_getD_getElem?] at hindicator
  rcases hasFace_append.mp hface with hk | ⟨s, l, hl, href, rfl⟩
  · refine Or.inl (mem_boundaryFaces.mpr ⟨k, ⟨hk, fun t ht => ?_⟩, ?_⟩)
    · exact honly t (hasFace_append.mpr (Or.inl ht))
    · obtain ⟨v, hv⟩ := hk.exists_mem
      rw [getElem?_indicators_append_left ⟨v, hv, hk.lt_size ha.cell_lt v hv⟩] at hindicator
      rw [← hindicator, indicator, Std.ExtTreeMap.getD_eq_getD_getElem?]
  · have hnone : a.indicators[l.map (· + a.vertices.size)]? = none := by
      by_contra hsome
      have hmem := Std.ExtTreeMap.mem_iff_isSome_getElem?.mpr (Option.isSome_iff_ne_none.mpr hsome)
      obtain ⟨v, hv⟩ := hl.exists_mem
      have hlt := ha.key_lt _ hmem _ (List.mem_map_of_mem hv)
      exact Nat.not_lt.mpr (Nat.le_add_left _ _) hlt
    rw [getElem?_indicators_append_right hnone] at hindicator
    refine Or.inr ⟨⟨s, x.indicator⟩, mem_boundaryFaces.mpr ⟨l, ⟨hl, fun t ht => ?_⟩, ?_⟩, ?_⟩
    · have hbehind := honly _ (hasFace_append.mpr (Or.inr ⟨t, l, ht, rfl, rfl⟩))
      exact FaceRef.behind_inj (hbehind.trans href)
    · rw [← hindicator, indicator, Std.ExtTreeMap.getD_eq_getD_getElem?]
    · rw [BoundaryFace.behind, ← href]

/-! ## Forgetting indicators -/

theorem isOuter_of_mem_pruneIndicators {m : Mesh K d} {k : Key}
    (hk : k ∈ m.pruneIndicators.indicators) : ∃ r, m.pruneIndicators.IsOuter r k := by
  obtain ⟨hstored, howners⟩ := Std.ExtTreeMap.mem_filter.mp hk
  rw [Std.ExtTreeMap.getKey_eq] at howners
  exact owners_eq_one_iff.mp (beq_iff_eq.mp howners)

theorem boundaryFaces_pruneIndicators_subset (m : Mesh K d) :
    m.pruneIndicators.boundaryFaces ⊆ m.boundaryFaces := by
  intro x hx
  obtain ⟨k, houter, hindicator⟩ := mem_boundaryFaces.mp hx
  have houter : m.IsOuter x.toFaceRef k := houter
  refine mem_boundaryFaces.mpr ⟨k, houter, ?_⟩
  have howners : (m.owners.getD k 0 == 1) = true :=
    beq_iff_eq.mpr (owners_eq_one_iff.mpr ⟨_, houter⟩)
  rw [← hindicator, indicator, indicator, Std.ExtTreeMap.getD_eq_getD_getElem?,
    Std.ExtTreeMap.getD_eq_getD_getElem?, pruneIndicators, Std.ExtTreeMap.getElem?_filter']
  cases m.indicators[k]? with
  | none => rfl
  | some i => rw [Option.filter_some, if_pos howners]

theorem key_lt_append (ha : a.WellFormed) (hb : b.WellFormed) :
    ∀ k ∈ (a.append b).indicators, ∀ v ∈ k, v < (a.append b).vertices.size := by
  intro k hk v hv
  rw [size_vertices_append]
  rcases mem_indicators_append hk with hk | ⟨l, hl, rfl⟩
  · exact Nat.lt_add_right _ (ha.key_lt k hk v hv)
  · obtain ⟨w, hw, rfl⟩ := List.mem_map.mp hv
    have hlt := hb.key_lt l hl w hw
    omega

/-! ## Gluing -/

variable [Scalar K] [SquareRoot K]

/-- Gluing is identification in the meshes side by side, and forgetting the indicators of
faces inside. -/
theorem merge_eq (a b : Mesh K d) :
    a.merge b = (({ a with shapes := ∅ } : Mesh K d).append b).deduplicate
      (a.append b).mergeTolerance >>= fun glued => .ok glued.1.pruneIndicators := by
  rw [merge, empty_append]
  rfl

/-- What becomes of two meshes that are glued together.  The cells of both stay, in order
and with new vertex numbers: `f v` is the place of vertex `v` or of one to which `v` is
close.  A face is on the boundary of the result only if it was on the boundary of its own
mesh, with the same indicator, and each stored key is the key of exactly one face. -/
theorem merge_boundaryFaces (ha : a.WellFormed) (hb : b.WellFormed) (haKeys : a.KeysOnFaces)
    (hbKeys : b.KeysOnFaces) :
    ∃ (m : Mesh K d) (f : Nat → Nat), a.merge b = .ok m ∧
      m.cells = a.cells.map (·.map f) ++
        b.cells.map (·.map fun v => f (v + a.vertices.size)) ∧
      (∀ v < a.vertices.size + b.vertices.size, f v < m.vertices.size ∧
        ∃ r < a.vertices.size + b.vertices.size,
          m.vertices[f v]? = (a.vertices ++ b.vertices)[r]? ∧
          (r = v ∨ (a.append b).close (a.append b).mergeTolerance r v = true)) ∧
      (∀ x ∈ m.boundaryFaces, x.cell < a.cells.length ∧ x ∈ a.boundaryFaces ∨
        ∃ y ∈ b.boundaryFaces, x = ⟨⟨a.cells.length + y.cell, y.face⟩, y.indicator⟩) ∧
      (∀ r : FaceRef, r.cell < a.cells.length → (∀ y ∈ a.boundaryFaces, y.toFaceRef ≠ r) →
        ∀ x ∈ m.boundaryFaces, x.toFaceRef ≠ r) ∧
      (∀ r : FaceRef, (∀ y ∈ b.boundaryFaces, y.toFaceRef ≠ r) →
        ∀ x ∈ m.boundaryFaces, x.toFaceRef ≠ ⟨a.cells.length + r.cell, r.face⟩) ∧
      ∀ k ∈ m.indicators, ∃ r, m.IsOuter r k := by
  let bare : Mesh K d := { a with shapes := ∅ }
  have hbare : bare.WellFormed := ⟨ha.cell_lt, ha.key_lt, ha.key_sorted⟩
  have hbareKeys : bare.KeysOnFaces := haKeys
  obtain ⟨glued, n, hglued⟩ :=
    exists_deduplicate (key_lt_append hbare hb) (a.append b).mergeTolerance
  obtain ⟨f, hf⟩ := identifies_deduplicate hglued
  have hsubset := boundaryFaces_deduplicate_subset (keysOnFaces_append hbareKeys hbKeys) hglued
  have hboundary : ∀ x ∈ glued.pruneIndicators.boundaryFaces,
      x.cell < a.cells.length ∧ x ∈ a.boundaryFaces ∨
        ∃ y ∈ b.boundaryFaces, x = y.behind a.cells.length := by
    intro x hx
    rcases boundaryFaces_append hbare (hsubset (boundaryFaces_pruneIndicators_subset _ hx)) with
      hx | hx
    · have hx : x ∈ a.boundaryFaces := hx
      exact Or.inl ⟨cell_lt_of_mem_boundaryFaces hx, hx⟩
    · exact Or.inr hx
  refine ⟨glued.pruneIndicators, f, ?_, ?_, fun v hv => ?_, hboundary, ?_, ?_, ?_⟩
  · rw [merge_eq, hglued]
    rfl
  · show glued.cells = _
    rw [hf.cells]
    show (a.cells ++ b.cells.map (·.map (· + a.vertices.size))).map (·.map f) = _
    rw [List.map_append, List.map_map]
    congr 1
    exact List.map_congr_left fun c _ => Vector.map_map
  · have hv : v < (bare.append b).vertices.size := by
      rw [size_vertices_append]
      exact hv
    have hplace := hf.getElem?_vertices hv
    have hsound := (bare.append b).sound_identify (a.append b).mergeTolerance
    have hlt := hsound.lt v hv
    refine ⟨?_, ((bare.append b).identify (a.append b).mergeTolerance).of v, ?_, ?_, hsound.near v⟩
    · exact (Array.getElem?_eq_some_iff.mp hplace).1
    · rw [size_vertices_append] at hlt
      exact hlt
    · exact hplace.trans (position_eq hlt).symm
  · intro r hr hinner x hx
    rcases hboundary x hx with ⟨-, hxa⟩ | ⟨y, -, rfl⟩
    · exact hinner x hxa
    · intro h
      subst h
      exact Nat.not_lt.mpr (Nat.le_add_right _ _) hr
  · intro r hinner x hx he
    rcases hboundary x hx with ⟨hlt, -⟩ | ⟨y, hy, rfl⟩
    · rw [he] at hlt
      exact Nat.not_lt.mpr (Nat.le_add_right _ _) hlt
    · exact hinner y hy (FaceRef.behind_inj he)
  · exact fun k hk => isOuter_of_mem_pruneIndicators hk

/-- A unit square with indicators on both sides that are orthogonal to the first axis. -/
def square (left : Float) (i j : Indicator) : Mesh Float 2 :=
  { vertices := #[.xy left 0, .xy (left + 1) 0, .xy left 1, .xy (left + 1) 1]
    cells := [#v[0, 1, 2, 3]]
    indicators := KeyMap.ofEntries [([0, 2], i), ([1, 3], j)] }

theorem wellFormed_square (left : Float) (i j : Indicator) : (square left i j).WellFormed := by
  refine ⟨?_, KeyMap.forall_mem_ofEntries ?_, KeyMap.forall_mem_ofEntries ?_⟩
  · show ∀ c ∈ [(#v[0, 1, 2, 3] : Cell 2)], ∀ v ∈ c.toList, v < 4
    decide
  · simp [square]
  · simp

theorem keysOnFaces_square (left : Float) (i j : Indicator) : (square left i j).KeysOnFaces := by
  apply KeyMap.forall_mem_ofEntries
  intro e he
  rcases List.mem_pair.mp he with rfl | rfl
  · exact ⟨⟨0, 0⟩, #v[0, 1, 2, 3], rfl, by decide, rfl⟩
  · exact ⟨⟨0, 1⟩, #v[0, 1, 2, 3], rfl, by decide, rfl⟩

theorem merge_boundaryFaces_squares :
    (square 0 5 6).WellFormed ∧ (square 1 7 8).WellFormed ∧ (square 0 5 6).KeysOnFaces ∧
      (square 1 7 8).KeysOnFaces ∧
      ∃ m, (square 0 5 6).merge (square 1 7 8) = .ok m ∧
        ∀ k ∈ m.indicators, ∃ r, m.IsOuter r k := by
  have hleft := wellFormed_square 0 5 6
  have hright := wellFormed_square 1 7 8
  have hleftKeys := keysOnFaces_square 0 5 6
  have hrightKeys := keysOnFaces_square 1 7 8
  obtain ⟨m, f, hm, -, -, -, -, -, hkeys⟩ :=
    merge_boundaryFaces hleft hright hleftKeys hrightKeys
  exact ⟨hleft, hright, hleftKeys, hrightKeys, m, hm, hkeys⟩

end Mesh
end HexMesh
