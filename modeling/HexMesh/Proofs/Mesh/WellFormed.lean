import HexMesh.Mesh.Access
import HexMesh.Mesh.Distortion
import HexMesh.Proofs.Mesh.Fault
import HexMesh.Proofs.Mesh.Cell
import HexMesh.Proofs.Topology.Key

/-!
Well-formedness of what is built from cells, and of a mesh after a change that touches
no cell.

Everything here asks for two facts about keys, that they are ascending and that they stay
below a bound.  `Key.Fits` is the two together.
-/

namespace HexMesh

/-- The key is ascending and names only vertices below a bound. -/
structure Key.Fits (n : Nat) (k : Key) : Prop where
  lt : ∀ v ∈ k, v < n
  sorted : k.Pairwise (· ≤ ·)

theorem Key.fits_ofList {n : Nat} {vs : List Nat} (h : ∀ v ∈ vs, v < n) : (Key.ofList vs).Fits n :=
  ⟨fun v hv => h v (Key.mem_ofList.mp hv), Key.pairwise_ofList vs⟩

theorem Cell.fits_key {d n : Nat} {c : Cell d} (h : ∀ v ∈ c.toList, v < n)
    (vs : List (Cube.Corner d)) : (c.key vs).Fits n := by
  refine Key.fits_ofList fun v hv => ?_
  obtain ⟨corner, -, rfl⟩ := List.mem_map.mp hv
  exact h _ (c.get_mem corner)

namespace Mesh

open HexMesh.Cube

variable {K : Type} {d : Nat}

theorem wellFormed_iff {m : Mesh K d} :
    m.WellFormed ↔ m.CellsValid ∧ ∀ k ∈ m.indicators, k.Fits m.vertices.size := by
  constructor
  · intro h
    exact ⟨h.cell_lt, fun k hk => ⟨h.key_lt k hk, h.key_sorted k hk⟩⟩
  · intro h
    exact ⟨h.1, fun k hk => (h.2 k hk).lt, fun k hk => (h.2 k hk).sorted⟩

theorem WellFormed.fits {m : Mesh K d} (h : m.WellFormed) :
    ∀ k ∈ m.indicators, k.Fits m.vertices.size := (wellFormed_iff.mp h).2

/-! ## Meshes from lists of cells -/

theorem wellFormed_empty : ({} : Mesh K d).WellFormed :=
  wellFormed_iff.mpr ⟨fun c hc => by simp at hc, fun k hk => by simp at hk⟩

/-- What `ofCells` does with one cell. -/
def checkCell (vertices : Array (Point K d)) (numbered : List Nat × Nat) :
    Except (Fault K) (Cell d) :=
  if h : numbered.1.toArray.size = cornerCount d then
    match numbered.1.find? (vertices.size ≤ ·) with
    | some v => throw (.cellVertex numbered.2 v vertices.size)
    | none => pure ⟨numbered.1.toArray, h⟩
  else throw (.cellSize numbered.2 numbered.1.length (cornerCount d))

theorem checkCell_eq_ok_iff {vertices : Array (Point K d)} {vs : List Nat} {i : Nat} {c : Cell d} :
    checkCell vertices (vs, i) = .ok c ↔ c.toList = vs ∧ ∀ v ∈ vs, v < vertices.size := by
  have hfind : vs.find? (vertices.size ≤ ·) = none ↔ ∀ v ∈ vs, v < vertices.size := by
    simp [List.find?_eq_none]
  unfold checkCell
  by_cases hsize : vs.toArray.size = cornerCount d
  · rw [dif_pos hsize]
    cases hv : vs.find? (vertices.size ≤ ·) with
    | some v =>
      have hall : ¬∀ v ∈ vs, v < vertices.size := by
        rw [← hfind, hv]
        exact Option.some_ne_none v
      constructor
      · intro h
        cases h
      · intro h
        exact absurd h.2 hall
    | none =>
      constructor
      · intro h
        cases h
        exact ⟨rfl, hfind.mp hv⟩
      · intro h
        obtain ⟨rfl, -⟩ := h
        rfl
  · rw [dif_neg hsize]
    constructor
    · intro h
      cases h
    · intro h
      obtain ⟨rfl, -⟩ := h
      exact absurd c.size_toArray hsize

/-- A mesh is made exactly when the dimension has cells and every cell has as many entries as
the cube has corners, all of them numbers of vertices. -/
theorem ofCells_eq_ok_iff {vertices : Array (Point K d)} {cells : List (List Nat)}
    {m : Mesh K d} :
    ofCells vertices cells = .ok m ↔ (0 < d ∧ d ≤ 3) ∧ m = { vertices, cells := m.cells } ∧
      m.cells.map Vector.toList = cells ∧ ∀ vs ∈ cells, ∀ v ∈ vs, v < vertices.size := by
  have hunfold : ofCells vertices cells =
      if d = 0 ∨ 3 < d then throw (.unsupportedDimension d)
      else cells.zipIdx.mapM (checkCell vertices) >>= fun checked =>
        pure { vertices, cells := checked } := by
    unfold ofCells
    split <;> rfl
  have hcheck (checked : List (Cell d)) (n : Nat) :
      (cells.zipIdx n).map (checkCell vertices) = checked.map .ok ↔
        checked.map Vector.toList = cells ∧ ∀ vs ∈ cells, ∀ v ∈ vs, v < vertices.size := by
    clear hunfold
    induction cells generalizing checked n with
    | nil => cases checked <;> simp
    | cons vs rest ih =>
      cases checked with
      | nil => simp
      | cons c checked =>
        rw [List.zipIdx_cons, List.map_cons, List.map_cons, List.map_cons, List.cons.injEq,
          List.cons.injEq, checkCell_eq_ok_iff, ih, List.forall_mem_cons]
        tauto
  rw [hunfold]
  by_cases hd : d = 0 ∨ 3 < d
  · rw [if_pos hd]
    constructor
    · intro h
      cases h
    · intro h
      omega
  · rw [if_neg hd, bind_eq_ok_iff]
    constructor
    · intro h
      obtain ⟨checked, hchecked, h⟩ := h
      cases h
      exact ⟨by omega, rfl, (hcheck checked 0).mp (mapM_eq_ok_iff.mp hchecked)⟩
    · intro h
      obtain ⟨-, hm, hcells⟩ := h
      refine ⟨m.cells, mapM_eq_ok_iff.mpr ((hcheck m.cells 0).mpr hcells), ?_⟩
      rw [hm]
      rfl

theorem wellFormed_ofCells {vertices : Array (Point K d)} {cells : List (List Nat)} {m : Mesh K d}
    (h : ofCells vertices cells = .ok m) : m.WellFormed := by
  obtain ⟨-, hm, hcells, hlt⟩ := ofCells_eq_ok_iff.mp h
  rw [hm, wellFormed_iff]
  refine ⟨fun c hc v hv => ?_, fun k hk => by simp at hk⟩
  exact hlt c.toList (hcells ▸ List.mem_map_of_mem hc) v hv

/-! ## Changes of indicators, shapes and positions -/

variable {m : Mesh K d}

theorem WellFormed.setIndicator (h : m.WellFormed) {vs : List Nat}
    (hvs : ∀ v ∈ vs, v < m.vertices.size) (i : Indicator) : (m.setIndicator vs i).WellFormed :=
  wellFormed_iff.mpr ⟨h.cell_lt, KeyMap.forall_mem_insert h.fits (Key.fits_ofList hvs) i⟩

theorem WellFormed.setFaceIndicator (h : m.WellFormed) {c : Cell d} (hc : c ∈ m.cells)
    (face : Nat) (i : Indicator) : (m.setFaceIndicator c face i).WellFormed :=
  wellFormed_iff.mpr ⟨h.cell_lt,
    KeyMap.forall_mem_insert h.fits (Cell.fits_key (h.cell_lt c hc) _) i⟩

theorem cellAt_eq_ok_iff {i : Nat} {c : Cell d} : m.cellAt i = .ok c ↔ m.cells[i]? = some c := by
  unfold cellAt
  cases m.cells[i]? <;> simp

theorem WellFormed.setFaceIndicatorAt (h : m.WellFormed) {cell face : Nat} {i : Indicator}
    {m' : Mesh K d} (hm' : m.setFaceIndicatorAt cell face i = .ok m') : m'.WellFormed := by
  obtain ⟨c, hc, hm'⟩ := bind_eq_ok_iff.mp hm'
  cases hm'
  exact h.setFaceIndicator (List.mem_of_getElem? (cellAt_eq_ok_iff.mp hc)) face i

theorem WellFormed.setShape (h : m.WellFormed) (i : Indicator) (s : Shape K d) :
    (m.setShape i s).WellFormed := ⟨h.cell_lt, h.key_lt, h.key_sorted⟩

theorem WellFormed.clearShape (h : m.WellFormed) (i : Indicator) : (m.clearShape i).WellFormed :=
  ⟨h.cell_lt, h.key_lt, h.key_sorted⟩

/-- Vertices may move freely as long as their number stays. -/
theorem WellFormed.of_vertices (h : m.WellFormed) {vertices : Array (Point K d)}
    (hsize : vertices.size = m.vertices.size) : ({ m with vertices } : Mesh K d).WellFormed where
  cell_lt c hc v hv := Nat.lt_of_lt_of_eq (h.cell_lt c hc v hv) hsize.symm
  key_lt k hk v hv := Nat.lt_of_lt_of_eq (h.key_lt k hk v hv) hsize.symm
  key_sorted := h.key_sorted

theorem WellFormed.transform (h : m.WellFormed) (f : Point K d → Point K d) :
    (m.transform f).WellFormed := h.of_vertices Array.size_map

theorem WellFormed.modifyVertex (h : m.WellFormed) (v : Nat) (f : Point K d → Point K d) :
    (m.modifyVertex v f).WellFormed := h.of_vertices Array.size_modify

/-- Vertices that are moved one by one leave everything but the positions as it was. -/
theorem exists_foldl_modifyVertex {α : Type} (vertex : α → Nat)
    (move : α → Point K d → Point K d) (as : List α) (m : Mesh K d) :
    ∃ vertices : Array (Point K d), vertices.size = m.vertices.size ∧
      as.foldl (fun m a => m.modifyVertex (vertex a) (move a)) m = { m with vertices } := by
  induction as generalizing m with
  | nil => exact ⟨m.vertices, rfl, rfl⟩
  | cons a rest ih =>
    obtain ⟨vertices, hsize, h⟩ := ih (m.modifyVertex (vertex a) (move a))
    exact ⟨vertices, hsize.trans Array.size_modify, h⟩

theorem exists_distort [Scalar K] [SquareRoot K] (m : Mesh K d) (factor : K)
    (keepBoundary : Bool) (words : WordStream) :
    ∃ vertices : Array (Point K d), vertices.size = m.vertices.size ∧
      m.distort factor keepBoundary words = { m with vertices } := by
  unfold Mesh.distort distorting
  refine List.foldlRecOn _ _ (motive := fun s : Distorting K d => ∃ vertices : Array (Point K d),
    vertices.size = m.vertices.size ∧ s.mesh = { m with vertices }) ⟨m.vertices, rfl, rfl⟩ ?_
  rintro s ⟨vertices, hsize, hmesh⟩ ⟨length, v⟩ -
  cases length with
  | none => exact ⟨vertices, hsize, hmesh⟩
  | some length =>
    simp only [Distorting.visit]
    split
    · exact ⟨vertices, hsize, hmesh⟩
    · exact ⟨_, Array.size_modify.trans hsize, by rw [hmesh]; rfl⟩

theorem WellFormed.distort [Scalar K] [SquareRoot K] (h : m.WellFormed) (factor : K)
    (keepBoundary : Bool) (words : WordStream) :
    (m.distort factor keepBoundary words).WellFormed := by
  obtain ⟨vertices, hsize, hm⟩ := m.exists_distort factor keepBoundary words
  rw [hm]
  exact h.of_vertices hsize

end Mesh
end HexMesh
