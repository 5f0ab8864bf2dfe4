import HexMesh.Mesh.Basic
import HexMesh.Proofs.Topology.Key
import HexMesh.Proofs.Topology.Lattice

/-!
The pieces of a cell and their keys.

The key of a piece lists the vertices at the corners that support it.  When the
corners of the cell are distinct vertices, keys and sets of corners determine each
other, so that a question about keys becomes one about the cube.
-/

namespace HexMesh
namespace Cell

open HexMesh.Cube

variable {d : Nat}

theorem get_eq_getElem {α : Type} {n : Nat} (xs : Vector α n) (i : Fin n) :
    xs.get i = xs[i.val] := rfl

theorem mem_toList_iff {c : Cell d} {u : Nat} : u ∈ c.toList ↔ ∃ v, c.get v = u := by
  rw [Vector.mem_toList_iff, Vector.mem_iff_getElem]
  constructor
  · intro h
    obtain ⟨i, hi, rfl⟩ := h
    exact ⟨⟨i, hi⟩, rfl⟩
  · intro h
    obtain ⟨v, rfl⟩ := h
    exact ⟨v.val, v.isLt, rfl⟩

theorem get_mem (c : Cell d) (v : Corner d) : c.get v ∈ c.toList := mem_toList_iff.mpr ⟨v, rfl⟩

@[simp] theorem get_ofFn (f : Corner d → Nat) (v : Corner d) : (Cell.ofFn f).get v = f v := by
  rw [get_eq_getElem, Cell.ofFn, Vector.getElem_ofFn]

@[simp] theorem get_map (c : Cell d) (f : Nat → Nat) (v : Corner d) :
    Vector.get (Vector.map f c) v = f (c.get v) := by
  rw [get_eq_getElem, Vector.getElem_map]
  rfl

/-- Taking each corner across the last axis exchanges the halves of a cell. -/
theorem toList_across (hd : 0 < d) (c : Cell d) :
    (Cell.ofFn fun v => c.get v.across).toList =
      c.toList.drop (cornerCount d / 2) ++ c.toList.take (cornerCount d / 2) := by
  have hhalf := half_add_half hd
  have hdrop : (c.toList.drop (cornerCount d / 2)).length = cornerCount d / 2 := by
    rw [List.length_drop, Vector.length_toList]
    omega
  have htake : (c.toList.take (cornerCount d / 2)).length = cornerCount d / 2 := by
    rw [List.length_take, Vector.length_toList]
    omega
  refine List.ext_getElem ?_ fun i hi _ => ?_
  · rw [List.length_append, hdrop, htake, hhalf, Vector.length_toList]
  · have hi : i < cornerCount d := by rwa [Vector.length_toList] at hi
    have hget : (Cell.ofFn fun v => c.get v.across)[i] =
        c.get ⟨(i + cornerCount d / 2) % cornerCount d, Nat.mod_lt _ (Nat.two_pow_pos d)⟩ :=
      get_ofFn (fun v => c.get v.across) ⟨i, hi⟩
    rw [Vector.getElem_toList, hget, get_eq_getElem, List.getElem_append]
    split
    next hfirst =>
      rw [List.getElem_drop, Vector.getElem_toList]
      congr 1
      show (i + cornerCount d / 2) % cornerCount d = _
      rw [Nat.mod_eq_of_lt (by omega), Nat.add_comm]
    next hsecond =>
      rw [List.getElem_take, Vector.getElem_toList]
      congr 1
      show (i + cornerCount d / 2) % cornerCount d = _
      rw [Nat.mod_eq_sub_mod (by omega), Nat.mod_eq_of_lt (by omega)]
      omega

theorem map_get_corners (c : Cell d) : (corners d).map c.get = c.toList := by
  refine List.ext_getElem (by rw [List.length_map, length_corners, Vector.length_toList]) ?_
  intro i _ _
  simp [corners, get_eq_getElem]

theorem get_injective {c : Cell d} (h : c.toList.Nodup) : Function.Injective c.get := by
  intro v w he
  have hv : v.val < c.toList.length := by simp
  have hw : w.val < c.toList.length := by simp
  have hsame : c.toList[v.val] = c.toList[w.val] := by
    rw [Vector.getElem_toList, Vector.getElem_toList]
    exact he
  exact Fin.ext ((List.Nodup.getElem_inj_iff h).mp hsame)

theorem nodup_of_get_injective {c : Cell d} (h : Function.Injective c.get) : c.toList.Nodup := by
  apply List.nodup_iff_injective_getElem.mpr
  intro i j he
  have hi : i.val < cornerCount d := by simpa using i.isLt
  have hj : j.val < cornerCount d := by simpa using j.isLt
  have hcorner : c.get ⟨i, hi⟩ = c.get ⟨j, hj⟩ := by
    simp only [Vector.getElem_toList] at he
    exact he
  exact Fin.ext (Fin.mk.inj (h hcorner))

/-! ## Keys -/

theorem mem_key {c : Cell d} {vs : List (Corner d)} {u : Nat} :
    u ∈ c.key vs ↔ ∃ v ∈ vs, c.get v = u := by
  rw [key, Key.mem_ofList, List.mem_map]

theorem length_key (c : Cell d) (vs : List (Corner d)) : (c.key vs).length = vs.length := by
  rw [key, Key.length_ofList, List.length_map]

theorem pairwise_key (c : Cell d) (vs : List (Corner d)) : (c.key vs).Pairwise (· ≤ ·) :=
  Key.pairwise_ofList _

theorem mem_latticeKey {c : Cell d} {p u : Nat} :
    u ∈ c.latticeKey p ↔ ∃ v, supports p v = true ∧ c.get v = u := by
  rw [latticeKey, mem_key]
  exact exists_congr fun v => and_congr_left fun _ => mem_latticeCorners

theorem mem_faceKey {c : Cell d} {face u : Nat} :
    u ∈ c.faceKey face ↔ ∃ v, onFace face v = true ∧ c.get v = u := by
  rw [faceKey, mem_key]
  exact exists_congr fun v => and_congr_left fun _ => mem_faceCorners

theorem length_faceKey (c : Cell d) {face : Nat} (h : face < faceCount d) :
    2 * (c.faceKey face).length = cornerCount d := by
  rw [faceKey, length_key]
  exact two_mul_length_faceCorners h

theorem faceKey_ne_nil (c : Cell d) {face : Nat} (h : face < faceCount d) :
    c.faceKey face ≠ [] := by
  intro hnil
  have hlength := c.length_faceKey h
  have hpos : 0 < cornerCount d := Nat.two_pow_pos d
  rw [hnil, List.length_nil] at hlength
  omega

theorem latticeKey_ne_nil (c : Cell d) (p : Nat) : c.latticeKey p ≠ [] := by
  obtain ⟨v, hv⟩ := exists_supports (d := d) (p := p)
  exact List.ne_nil_of_mem (mem_latticeKey.mpr ⟨v, hv, rfl⟩)

/-- The key at a point that a corner shares with itself is the vertex of the corner. -/
theorem latticeKey_self (c : Cell d) (v : Corner d) :
    c.latticeKey (childPoint v v) = [c.get v] := by
  have hcorners : latticeCorners d (childPoint v v) = [v] := by
    refine List.perm_singleton.mp ((List.perm_ext_iff_of_nodup (nodup_latticeCorners _)
      (List.nodup_singleton v)).mpr fun w => ?_)
    rw [mem_latticeCorners, supports_childPoint, List.mem_singleton]
    constructor
    · exact fun h => Corner.ext_high fun a => (or_self _).mp (h a)
    · intro hx a
      subst hx
      exact Or.inl rfl
  rw [latticeKey, hcorners]
  rfl

/-- The middle of a cell belongs to the whole cell. -/
theorem latticeKey_rev (c : Cell d) (v : Corner d) :
    c.latticeKey (childPoint v v.rev) = Key.ofList c.toList := by
  have hcorners : latticeCorners d (childPoint v v.rev) = corners d :=
    List.filter_eq_self.mpr fun w _ => supports_childPoint_rev v w
  rw [latticeKey, key, hcorners, map_get_corners]

/-! ## Cells with distinct vertices -/

section Distinct

variable {c : Cell d}

theorem nodup_latticeKey (h : c.toList.Nodup) (p : Nat) : (c.latticeKey p).Nodup :=
  Key.nodup_ofList.mpr ((nodup_latticeCorners p).map (get_injective h))

theorem nodup_faceKey (h : c.toList.Nodup) (face : Nat) : (c.faceKey face).Nodup :=
  Key.nodup_ofList.mpr ((nodup_faceCorners face).map (get_injective h))

theorem get_mem_latticeKey (h : c.toList.Nodup) {p : Nat} {v : Corner d} :
    c.get v ∈ c.latticeKey p ↔ supports p v = true := by
  rw [mem_latticeKey]
  constructor
  · intro hx
    obtain ⟨w, hw, he⟩ := hx
    rwa [← get_injective h he]
  · exact fun hv => ⟨v, hv, rfl⟩

theorem get_mem_faceKey (h : c.toList.Nodup) {face : Nat} {v : Corner d} :
    c.get v ∈ c.faceKey face ↔ onFace face v = true := by
  rw [mem_faceKey]
  constructor
  · intro hx
    obtain ⟨w, hw, he⟩ := hx
    rwa [← get_injective h he]
  · exact fun hv => ⟨v, hv, rfl⟩

/-- Among the pieces at one child, containment of keys is containment of the corner that
spans the smaller one. -/
theorem latticeKey_subset_iff (h : c.toList.Nodup) {child v w : Corner d} :
    c.latticeKey (childPoint child v) ⊆ c.latticeKey (childPoint child w) ↔
      supports (childPoint child w) v = true := by
  constructor
  · intro hsub
    have hmem := (get_mem_latticeKey h).mpr (supports_childPoint_right child v)
    exact (get_mem_latticeKey h).mp (hsub hmem)
  · intro hv u hu
    obtain ⟨x, hx, rfl⟩ := mem_latticeKey.mp hu
    exact (get_mem_latticeKey h).mpr (supports_childPoint_trans hx hv)

theorem latticeKey_childPoint_injective (h : c.toList.Nodup) (child : Corner d) :
    Function.Injective fun v => c.latticeKey (childPoint child v) := by
  intro v w he
  have he : c.latticeKey (childPoint child v) = c.latticeKey (childPoint child w) := he
  have hvw : supports (childPoint child w) v = true :=
    (latticeKey_subset_iff h).mp (he ▸ List.Subset.refl _)
  have hwv : supports (childPoint child v) w = true :=
    (latticeKey_subset_iff h).mp (he ▸ List.Subset.refl _)
  rw [supports_childPoint] at hvw hwv
  apply Corner.ext_high
  intro a
  rcases hvw a with hv | hv
  · rcases hwv a with hw | hw
    · rw [hv, hw]
    · exact hw.symm
  · exact hv

end Distinct

end Cell

namespace Mesh

variable {K : Type} {d : Nat}

theorem position_eq [Scalar K] {m : Mesh K d} {v : Nat} (hv : v < m.vertices.size) :
    m.vertices[v]? = some (m.position v) := by
  rw [position, Array.getElem?_eq_getElem hv]
  rfl

/-- Every vertex number that is stored in a cell exists. -/
def CellsValid (m : Mesh K d) : Prop := ∀ c ∈ m.cells, ∀ v ∈ c.toList, v < m.vertices.size

/-- The corners of every cell are distinct vertices. -/
def CellsDistinct (m : Mesh K d) : Prop := ∀ c ∈ m.cells, c.toList.Nodup

/-- No two cells have the same vertices. -/
def CellsDiffer (m : Mesh K d) : Prop := (m.cells.map fun c => Key.ofList c.toList).Nodup

/-- Every vertex is a corner of some cell. -/
def VerticesUsed (m : Mesh K d) : Prop := ∀ v < m.vertices.size, ∃ c ∈ m.cells, v ∈ c.toList

instance (m : Mesh K d) : Decidable m.CellsValid :=
  inferInstanceAs (Decidable (∀ c ∈ m.cells, ∀ v ∈ c.toList, v < m.vertices.size))

instance (m : Mesh K d) : Decidable m.CellsDistinct :=
  inferInstanceAs (Decidable (∀ c ∈ m.cells, c.toList.Nodup))

instance (m : Mesh K d) : Decidable m.CellsDiffer :=
  inferInstanceAs (Decidable (m.cells.map fun c => Key.ofList c.toList).Nodup)

instance (m : Mesh K d) : Decidable m.VerticesUsed :=
  inferInstanceAs (Decidable (∀ v < m.vertices.size, ∃ c ∈ m.cells, v ∈ c.toList))

theorem CellsDiffer.eq_of_key {m : Mesh K d} (h : m.CellsDiffer) {i j : Nat} {c e : Cell d}
    (hc : m.cells[i]? = some c) (he : m.cells[j]? = some e)
    (hsame : Key.ofList c.toList = Key.ofList e.toList) : i = j := by
  have hkey {n : Nat} {a : Cell d} (ha : m.cells[n]? = some a) :
      (m.cells.map fun c => Key.ofList c.toList)[n]? = some (Key.ofList a.toList) := by
    rw [List.getElem?_map, ha]
    rfl
  have hi : i < (m.cells.map fun c => Key.ofList c.toList).length := by
    rw [List.length_map]
    exact (List.getElem?_eq_some_iff.mp hc).1
  exact (List.getElem?_inj hi h).mp ((hkey hc).trans (hsame ▸ (hkey he).symm))

end Mesh
end HexMesh
