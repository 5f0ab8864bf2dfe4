import HexMesh.Proofs.Identification.Renumbering

/-!
What identification makes of a mesh.

Whether or not a vertex is removed, the new table holds the survivors in their old
order, and every vertex becomes the place of the survivor that stands for it.  The
only way to fail is a stored key that mentions a vertex outside the table.
-/

namespace HexMesh
namespace Mesh

variable {K : Type} [Scalar K] {d : Nat} {m m' : Mesh K d} {tol : K} {n : Nat}

/-- The first mesh becomes the second one when some vertices stand for others: `f` leads
every vertex to the place of the survivor that stands for it. -/
structure Identifies (m m' : Mesh K d) (r : Identification) (f : Nat → Nat) : Prop where
  vertices : m'.vertices = (r.survivors.map m.position).toArray
  cells : m'.cells = m.cells.map (·.map f)
  place : ∀ v < m.vertices.size, r.survivors[f v]? = some (r.of v)

theorem Identifies.size_vertices {r : Identification} {f : Nat → Nat} (h : m.Identifies m' r f) :
    m'.vertices.size = r.survivors.length := by
  rw [h.vertices, List.size_toArray, List.length_map]

theorem Identifies.getElem?_vertices {r : Identification} {f : Nat → Nat}
    (h : m.Identifies m' r f) {v : Nat} (hv : v < m.vertices.size) :
    m'.vertices[f v]? = some (m.position (r.of v)) := by
  have hlist : (r.survivors.map m.position).toArray[f v]? = (r.survivors.map m.position)[f v]? :=
    List.getElem?_toArray
  rw [h.vertices, hlist, List.getElem?_map, h.place v hv]
  rfl

/-- The vertices that are kept keep their places. -/
theorem Identifies.position_getElem {r : Identification} {f : Nat → Nat} (h : m.Identifies m' r f)
    {i : Nat} (hi : i < r.survivors.length) : m'.position i = m.position r.survivors[i] := by
  rw [position, h.vertices]
  simp [hi]

theorem vertices_eq (m : Mesh K d) :
    m.vertices = ((List.range m.vertices.size).map m.position).toArray := by
  refine Array.ext_getElem? fun v => ?_
  have hlist : ((List.range m.vertices.size).map m.position).toArray[v]? =
      ((List.range m.vertices.size).map m.position)[v]? := List.getElem?_toArray
  rw [hlist, List.getElem?_map]
  rcases Nat.lt_or_ge v m.vertices.size with hv | hv
  · rw [List.getElem?_range hv, position_eq hv]
    rfl
  · rw [Array.getElem?_eq_none hv, List.getElem?_eq_none (by simpa using hv)]
    rfl

theorem identifies_self (h : m.vertices.size ≤ (m.identify tol).survivors.length) :
    m.Identifies m (m.identify tol) id := by
  have hsize := (m.sound_identify tol).size
  have hrange : (m.identify tol).survivors = List.range m.vertices.size := by
    rw [← hsize]
    exact Identification.survivors_eq_range (hsize ▸ h)
  refine ⟨?_, ?_, fun v hv => ?_⟩
  · rw [hrange]
    exact m.vertices_eq
  · exact (List.map_id'' (fun c => Vector.map_id c) _).symm
  · have hmem : v ∈ (m.identify tol).survivors := hrange ▸ List.mem_range.mpr hv
    rw [(Identification.mem_survivors.mp hmem).2, hrange]
    exact List.getElem?_range hv

theorem identifies_renumber (m : Mesh K d) (tol : K) :
    m.Identifies
      (m.renumber ((m.identify tol).survivors.map m.position).toArray
        fun v => (m.identify tol).renumbering.getD v 0)
      (m.identify tol) (fun v => (m.identify tol).renumbering.getD v 0) := by
  refine ⟨rfl, rfl, fun v hv => ?_⟩
  have hsound := m.sound_identify tol
  have hmem := hsound.of_mem_survivors hv
  rw [Identification.getD_renumbering (hsound.size ▸ hv) hmem]
  exact List.getElem?_idxOf hmem

theorem deduplicate_cases (h : m.deduplicate tol = .ok (m', n)) :
    n = m.vertices.size - (m.identify tol).survivors.length ∧
      (n = 0 ∧ m' = m ∨
        m' = m.renumber ((m.identify tol).survivors.map m.position).toArray
          fun v => (m.identify tol).renumbering.getD v 0) := by
  unfold deduplicate at h
  by_cases hremoved : m.vertices.size - (m.identify tol).survivors.length = 0
  · rw [if_pos hremoved] at h
    cases h
    exact ⟨hremoved.symm, Or.inl ⟨rfl, rfl⟩⟩
  · rw [if_neg hremoved] at h
    by_cases hkeys : m.indicators.keys.all (·.below m.vertices.size) = true
    · rw [if_pos hkeys] at h
      cases h
      exact ⟨rfl, Or.inr rfl⟩
    · rw [if_neg hkeys] at h
      cases h

theorem identifies_deduplicate (h : m.deduplicate tol = .ok (m', n)) :
    ∃ f, m.Identifies m' (m.identify tol) f := by
  obtain ⟨hn, ⟨rfl, rfl⟩ | rfl⟩ := deduplicate_cases h
  · exact ⟨id, identifies_self (by omega)⟩
  · exact ⟨_, identifies_renumber m tol⟩

theorem boundaryFaces_deduplicate_subset (hm : m.KeysOnFaces)
    (h : m.deduplicate tol = .ok (m', n)) : m'.boundaryFaces ⊆ m.boundaryFaces := by
  obtain ⟨-, ⟨-, rfl⟩ | rfl⟩ := deduplicate_cases h
  · exact List.Subset.refl _
  · exact boundaryFaces_renumber_subset hm _ _

/-- Identification fails only on a key that mentions a vertex outside the table. -/
theorem exists_key_of_deduplicate_error {e : Fault K} (h : m.deduplicate tol = .error e) :
    ∃ k ∈ m.indicators, ∃ v ∈ k, m.vertices.size ≤ v := by
  unfold deduplicate at h
  by_cases hremoved : m.vertices.size - (m.identify tol).survivors.length = 0
  · rw [if_pos hremoved] at h
    cases h
  · rw [if_neg hremoved] at h
    by_cases hkeys : m.indicators.keys.all (·.below m.vertices.size) = true
    · rw [if_pos hkeys] at h
      cases h
    · simpa [Key.below] using hkeys

theorem exists_deduplicate (hkeys : ∀ k ∈ m.indicators, ∀ v ∈ k, v < m.vertices.size) (tol : K) :
    ∃ m' n, m.deduplicate tol = .ok (m', n) := by
  cases h : m.deduplicate tol with
  | ok result => exact ⟨result.1, result.2, rfl⟩
  | error e =>
    obtain ⟨k, hk, v, hv, hge⟩ := exists_key_of_deduplicate_error h
    exact absurd (hkeys k hk v hv) (Nat.not_lt.mpr hge)

end Mesh
end HexMesh
