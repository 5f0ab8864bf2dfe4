import HexMesh.Mesh.Hole
import HexMesh.Proofs.Box.Boundary
import HexMesh.Proofs.Extrusion.Boundary
import HexMesh.Proofs.Identification.Gluing
import HexMesh.Proofs.Mesh.WellFormed
import HexMesh.Proofs.Msh.Gathered
import HexMesh.Proofs.Refinement.Boundary

/-!
Well-formedness of meshes that are made from others or from nothing.

Each construction builds its vertices, its cells and its keys apart from each other, so each
has to number all three alike.
-/

namespace HexMesh

open HexMesh.Cube

variable {K : Type} {d : Nat}

namespace Mesh

theorem HasFace.fits {m : Mesh K d} (hm : m.CellsValid) {r : FaceRef} {k : Key}
    (h : m.HasFace r k) : k.Fits m.vertices.size := by
  obtain ⟨c, hc, -, rfl⟩ := h
  exact Cell.fits_key (hm c (List.mem_of_getElem? hc)) _

theorem WellFormed.colorize {m : Mesh K d} (h : m.WellFormed) : m.colorize.WellFormed := by
  refine wellFormed_iff.mpr ⟨h.cell_lt, KeyMap.forall_mem_foldl_insert h.fits fun f hf => ?_⟩
  exact (mem_outerFaces.mp hf).1.fits h.cell_lt

theorem ringCell_lt : ∀ k < 8, ∀ v ∈ (ringCell k).toList, v < 16 := by decide

theorem wellFormed_foldl_ring {cells : List (Cell 2)} {m : Mesh K 2} (hm : m.WellFormed)
    (h : ∀ c ∈ cells, c ∈ m.cells) :
    (cells.foldl (fun m c => (m.setFaceIndicator c 0 1).setFaceIndicator c 1 0) m).WellFormed := by
  induction cells generalizing m with
  | nil => exact hm
  | cons c rest ih =>
    have ⟨hc, hrest⟩ := List.forall_mem_cons.mp h
    exact ih ((hm.setFaceIndicator hc 0 1).setFaceIndicator hc 1 0) hrest

section Generators

variable [Scalar K]

theorem wellFormed_ofBox (b : Box K d) : (ofBox b).WellFormed :=
  wellFormed_iff.mpr ⟨b.cellsValid_mesh false, fun k hk => by simp [ofBox] at hk⟩

theorem wellFormed_box {repetitions : Vector Nat d} {p q : Point K d} {colorize : Bool}
    {m : Mesh K d} (h : box repetitions p q colorize = .ok m) : m.WellFormed := by
  rw [(Box.of_box_eq_ok h).2]
  cases colorize with
  | false => exact wellFormed_ofBox _
  | true => exact (wellFormed_ofBox _).colorize

theorem wellFormed_squareWithHole [Transcendental K] {inner outer : K} {m : Mesh K 2}
    (h : squareWithHole inner outer = .ok m) : m.WellFormed := by
  unfold squareWithHole at h
  split at h
  · cases h
    refine wellFormed_foldl_ring (wellFormed_iff.mpr ⟨?_, fun k hk => by simp at hk⟩) fun c hc => hc
    intro c hc
    obtain ⟨k, hk, rfl⟩ := List.mem_map.mp hc
    exact ringCell_lt k (List.mem_range.mp hk)
  · cases h

/-! ## Files -/

theorem wellFormed_read [Numeral K] {bytes : List UInt8} {m : Mesh K d}
    (h : Msh.read d bytes = .ok m) : m.WellFormed := by
  by_cases hd : d = 2 ∨ d = 3
  · rw [Msh.read, Msh.readLines_eq hd, bind_eq_ok_iff] at h
    obtain ⟨g, hscan, hfinish⟩ := h
    obtain ⟨-, -, -, rfl⟩ := Msh.Gathered.finish_eq_ok_iff.mp hfinish
    exact (Msh.scan_valid hscan).1.wellFormed_mesh
  · rw [Msh.read, Msh.readLines, if_pos (by omega)] at h
    cases h

/-! ## Extrusion -/

theorem wellFormed_extrude {m : Mesh K 2} (hm : m.WellFormed) {slices : Nat} {height : K}
    {m' : Mesh K 3} (h : m.extrude slices height = .ok m') : m'.WellFormed := by
  obtain ⟨hslices, hextrudes, hvertices⟩ := extrudes_of_extrude h
  have hsize : m'.vertices.size = slices * m.vertices.size := by
    rw [hvertices, List.size_toArray, List.length_flatMap]
    simp
  have hcell {k : Nat} (hk : k < slices - 1) {c : Cell 2} (hc : c ∈ m.cells) :
      ∀ v ∈ (m.hexahedron k c).toList, v < m'.vertices.size := by
    intro v hv
    rw [toList_hexahedron] at hv
    rw [hsize]
    exact lateral_lt hk (hm.cell_lt c hc) v hv
  refine wellFormed_iff.mpr ⟨fun c hc => ?_, ?_⟩
  · rw [hextrudes.cells] at hc
    obtain ⟨k, hk, hc⟩ := List.mem_flatMap.mp hc
    obtain ⟨e, he, rfl⟩ := List.mem_map.mp hc
    exact hcell (List.mem_range.mp hk) he
  · rw [hextrudes.indicators]
    refine KeyMap.forall_mem_ofEntries fun e he => ?_
    rcases mem_extrudedIndicators.mp he with ⟨r, k, layer, hlayer, hk, rfl⟩ | ⟨c, hc, rfl⟩ |
      ⟨c, hc, rfl⟩
    · refine Key.fits_ofList fun v hv => ?_
      rw [hsize]
      exact lateral_lt hlayer (hk.1.lt_size hm.cell_lt) v hv
    -- Bottom and top are keys of cells, of the first layer and of the last.
    · exact Cell.fits_key (hcell (by omega) hc) _
    · exact Cell.fits_key (hcell (by omega) hc) _

end Generators

/-! ## Gluing -/

theorem wellFormed_append {a b : Mesh K d} (ha : a.WellFormed) (hb : b.WellFormed) :
    (a.append b).WellFormed := by
  refine ⟨fun c hc v hv => ?_, key_lt_append ha hb, fun k hk => ?_⟩
  · rw [size_vertices_append]
    rcases List.mem_append.mp hc with hc | hc
    · have hlt := ha.cell_lt c hc v hv
      omega
    · obtain ⟨e, he, rfl⟩ := List.mem_map.mp hc
      rw [Vector.toList_map] at hv
      obtain ⟨w, hw, rfl⟩ := List.mem_map.mp hv
      have hlt := hb.cell_lt e he w hw
      omega
  · rcases mem_indicators_append hk with hk | ⟨l, hl, rfl⟩
    · exact ha.key_sorted k hk
    · -- The second mesh's keys are shifted and not sorted again.
      exact List.pairwise_map.mpr ((hb.key_sorted l hl).imp fun h => by omega)

theorem WellFormed.renumber {m : Mesh K d} (h : m.WellFormed) {vertices : Array (Point K d)}
    {f : Nat → Nat} (hf : ∀ v < m.vertices.size, f v < vertices.size) :
    (m.renumber vertices f).WellFormed := by
  refine wellFormed_iff.mpr ⟨fun c hc v hv => ?_, KeyMap.forall_mem_ofEntries fun e he => ?_⟩
  · obtain ⟨e, he, rfl⟩ := List.mem_map.mp hc
    rw [Vector.toList_map] at hv
    obtain ⟨w, hw, rfl⟩ := List.mem_map.mp hv
    exact hf w (h.cell_lt e he w hw)
  · obtain ⟨⟨k, i⟩, hk, rfl⟩ := List.mem_map.mp he
    have hk : k ∈ m.indicators := by
      rw [Std.ExtTreeMap.mem_iff_isSome_getElem?,
        Std.ExtTreeMap.mem_toList_iff_getElem?_eq_some.mp hk]
      rfl
    refine Key.fits_ofList fun v hv => ?_
    obtain ⟨w, hw, rfl⟩ := List.mem_map.mp hv
    exact hf w (h.key_lt k hk w hw)

theorem WellFormed.pruneIndicators {m : Mesh K d} (h : m.WellFormed) :
    m.pruneIndicators.WellFormed :=
  wellFormed_iff.mpr ⟨h.cell_lt, fun k hk => h.fits k (Std.ExtTreeMap.mem_filter.mp hk).1⟩

variable [Scalar K]

theorem WellFormed.deduplicate {m : Mesh K d} (h : m.WellFormed) {tol : K} {m' : Mesh K d}
    {n : Nat} (hm' : m.deduplicate tol = .ok (m', n)) : m'.WellFormed := by
  obtain ⟨-, ⟨-, rfl⟩ | rfl⟩ := deduplicate_cases hm'
  · exact h
  · refine h.renumber fun v hv => ?_
    have hplace := (identifies_renumber m tol).place v hv
    rw [List.size_toArray, List.length_map]
    exact (List.getElem?_eq_some_iff.mp hplace).1

theorem exists_merge [SquareRoot K] {a b : Mesh K d} (ha : a.WellFormed) (hb : b.WellFormed) :
    ∃ m, a.merge b = .ok m ∧ m.WellFormed := by
  have hboth : (({ a with shapes := ∅ } : Mesh K d).append b).WellFormed :=
    wellFormed_append ⟨ha.cell_lt, ha.key_lt, ha.key_sorted⟩ hb
  obtain ⟨glued, n, hglued⟩ := exists_deduplicate hboth.key_lt (a.append b).mergeTolerance
  rw [merge_eq, hglued]
  exact ⟨glued.pruneIndicators, rfl, (hboth.deduplicate hglued).pruneIndicators⟩

/-! ## Refinement -/

theorem WellFormed.refineOnce {m : Mesh K d} (h : m.WellFormed) : m.refineOnce.WellFormed := by
  have hchild {c : Cell d} (hc : c ∈ m.cells) (child : Corner d) :
      ∀ v ∈ (m.childCell m.newKeys c child).toList, v < m.refineOnce.vertices.size := by
    intro v hv
    obtain ⟨corner, rfl⟩ := Cell.mem_toList_iff.mp hv
    rw [get_childCell]
    exact middle_lt h.cell_lt (isPiece_latticeKey hc child corner)
  refine wellFormed_iff.mpr ⟨fun a ha => ?_, ?_⟩
  · obtain ⟨c, hc, child, rfl⟩ := mem_cells_refineOnce.mp ha
    exact hchild hc child
  · rw [indicators_refineOnce]
    refine KeyMap.forall_mem_ofEntries fun e he => ?_
    obtain ⟨c, hc, child, f, -, -, -, hkey⟩ := mem_inheritedEntries.mp he
    rw [← hkey]
    exact Cell.fits_key (hchild hc child) _

theorem WellFormed.refine {m : Mesh K d} (h : m.WellFormed) (n : Nat) :
    (m.refine n).WellFormed := by
  induction n with
  | zero => exact h
  | succ n ih =>
    rw [refine_succ]
    exact ih.refineOnce

end Mesh
end HexMesh
