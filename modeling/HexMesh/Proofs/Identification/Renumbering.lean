import HexMesh.Proofs.Identification.Sweep
import HexMesh.Proofs.Mesh.Boundary
import HexMesh.Proofs.Mesh.Cell

/-!
The boundary of a renumbered mesh.

A renumbering may give one key to faces that had different keys, with different
indicators.  Such faces lie inside afterwards, since each of them has the key of
another one.  So whatever vertices are identified, a face that is still on the
boundary was there before, and no other stored key can have become its key.  This
needs that every stored key belongs to a face; it does not matter to how many.
-/

namespace HexMesh

theorem Cell.key_map {d : Nat} (c : Cell d) (f : Nat → Nat) (vs : List (Cube.Corner d)) :
    Cell.key (c.map f) vs = Key.ofList ((c.key vs).map f) := by
  rw [key, key, Key.ofList_map_ofList, List.map_map]
  congr 1
  exact List.map_congr_left fun v _ => c.get_map f v

theorem Cell.faceKey_map {d : Nat} (c : Cell d) (f : Nat → Nat) (face : Nat) :
    Cell.faceKey (c.map f) face = Key.ofList ((c.faceKey face).map f) := c.key_map f _

theorem Cell.latticeKey_map {d : Nat} (c : Cell d) (f : Nat → Nat) (p : Nat) :
    Cell.latticeKey (c.map f) p = Key.ofList ((c.latticeKey p).map f) := c.key_map f _

namespace Mesh

variable {K : Type} {d : Nat} {m : Mesh K d}

/-- Every stored key is the key of some face. -/
def KeysOnFaces (m : Mesh K d) : Prop := ∀ k ∈ m.indicators, ∃ r, m.HasFace r k

theorem HasFace.exists_mem {r : FaceRef} {k : Key} (h : m.HasFace r k) : ∃ v, v ∈ k := by
  obtain ⟨c, -, hface, rfl⟩ := h
  exact List.exists_mem_of_ne_nil _ (c.faceKey_ne_nil hface)

theorem HasFace.ne_nil {r : FaceRef} {k : Key} (h : m.HasFace r k) : k ≠ [] := by
  obtain ⟨v, hv⟩ := h.exists_mem
  exact List.ne_nil_of_mem hv

theorem HasFace.pairwise {r : FaceRef} {k : Key} (h : m.HasFace r k) : k.Pairwise (· ≤ ·) := by
  obtain ⟨c, -, -, rfl⟩ := h
  exact c.pairwise_key _

theorem HasFace.cell_lt {r : FaceRef} {k : Key} (h : m.HasFace r k) :
    r.cell < m.cells.length := by
  obtain ⟨c, hc, -, -⟩ := h
  exact (List.getElem?_eq_some_iff.mp hc).1

theorem HasFace.lt_size (hm : m.CellsValid) {r : FaceRef} {k : Key} (h : m.HasFace r k) :
    ∀ v ∈ k, v < m.vertices.size := by
  obtain ⟨c, hc, -, rfl⟩ := h
  intro u hu
  obtain ⟨v, -, rfl⟩ := Cell.mem_faceKey.mp hu
  exact hm c (List.mem_of_getElem? hc) _ (c.get_mem v)

theorem hasFace_renumber {vertices : Array (Point K d)} {f : Nat → Nat} {r : FaceRef} {k : Key} :
    (m.renumber vertices f).HasFace r k ↔ ∃ l, m.HasFace r l ∧ Key.ofList (l.map f) = k := by
  constructor
  · intro h
    obtain ⟨c', hc', hface, rfl⟩ := h
    rw [renumber, List.getElem?_map, Option.map_eq_some_iff] at hc'
    obtain ⟨c, hc, rfl⟩ := hc'
    exact ⟨c.faceKey r.face, ⟨c, hc, hface, rfl⟩, (c.faceKey_map f r.face).symm⟩
  · intro h
    obtain ⟨l, ⟨c, hc, hface, rfl⟩, rfl⟩ := h
    refine ⟨c.map f, ?_, hface, c.faceKey_map f r.face⟩
    rw [renumber, List.getElem?_map, hc]
    rfl

/-- A face that is alone with its new key was alone with its old one. -/
theorem IsOuter.of_renumber {vertices : Array (Point K d)} {f : Nat → Nat} {r : FaceRef} {k : Key}
    (h : (m.renumber vertices f).IsOuter r k) : ∃ l, m.IsOuter r l ∧ Key.ofList (l.map f) = k := by
  obtain ⟨l, hl, hk⟩ := hasFace_renumber.mp h.1
  exact ⟨l, ⟨hl, fun s hs => h.2 s (hasFace_renumber.mpr ⟨l, hs, hk⟩)⟩, hk⟩

/-- On the boundary no two stored keys become one, so that indicators stay what they were. -/
theorem getElem?_indicators_renumber (hm : m.KeysOnFaces) {vertices : Array (Point K d)}
    {f : Nat → Nat} {r : FaceRef} {k : Key}
    (houter : (m.renumber vertices f).IsOuter r (Key.ofList (k.map f))) (hk : m.HasFace r k) :
    (m.renumber vertices f).indicators[Key.ofList (k.map f)]? = m.indicators[k]? := by
  refine KeyMap.getElem?_foldl_insert_toList (g := fun l => Key.ofList (l.map f))
    Std.ExtTreeMap.getElem?_empty fun l hl hrenamed => ?_
  obtain ⟨s, hs⟩ := hm l hl
  have hsr : s = r := houter.2 s (hasFace_renumber.mpr ⟨l, hs, hrenamed⟩)
  subst hsr
  exact hs.key_eq hk

/-- Identifying vertices brings no face to the boundary and changes no indicator there. -/
theorem boundaryFaces_renumber_subset (hm : m.KeysOnFaces) (vertices : Array (Point K d))
    (f : Nat → Nat) : (m.renumber vertices f).boundaryFaces ⊆ m.boundaryFaces := by
  intro b hb
  obtain ⟨k, houter, hindicator⟩ := mem_boundaryFaces.mp hb
  obtain ⟨l, hl, rfl⟩ := houter.of_renumber
  refine mem_boundaryFaces.mpr ⟨l, hl, ?_⟩
  rw [← hindicator, indicator, indicator, Std.ExtTreeMap.getD_eq_getD_getElem?,
    Std.ExtTreeMap.getD_eq_getD_getElem?, getElem?_indicators_renumber hm houter hl.1]

end Mesh
end HexMesh
