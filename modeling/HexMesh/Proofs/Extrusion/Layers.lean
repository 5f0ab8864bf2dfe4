import HexMesh.Mesh.Extrusion
import HexMesh.Proofs.Identification.Renumbering
import HexMesh.Proofs.Number.Radix
import HexMesh.Proofs.Refinement.Vertices

/-!
Layers of an extruded mesh.

A vertex of the extruded mesh is a layer and a vertex of the plane, and division by
the number of plane vertices recovers both.  Keys therefore remember where they
belong: the face above an edge of the plane lies in two neighboring layers, a
face above or below a cell lies in one.
-/

namespace HexMesh

open HexMesh.Cube

namespace Cube.Corner

/-- A corner of the square as a corner of the lower side of the cube. -/
def below (v : Corner 2) : Corner 3 := ⟨v, Nat.lt_trans v.isLt (by decide)⟩

/-- A corner of the square as a corner of the upper side of the cube. -/
def above (v : Corner 2) : Corner 3 := ⟨v + 4, Nat.add_lt_add_right v.isLt 4⟩

/-- The corner of the square below or above which a corner of the cube lies. -/
def base (v : Corner 3) : Corner 2 := ⟨v % 4, Nat.mod_lt _ (by decide)⟩

theorem high_base : ∀ (v : Corner 3) (a : Fin 2), v.base.high a = v.high a := by decide

/-- The corner of the cube on the lower or the upper side. -/
def lift (v : Corner 2) (side : Nat) : Corner 3 := if side % 2 = 0 then v.below else v.above

theorem base_lift (v : Corner 2) (side : Nat) : (v.lift side).base = v := by
  have hsides : ∀ v : Corner 2, v.below.base = v ∧ v.above.base = v := by decide
  rw [lift]
  split
  · exact (hsides v).1
  · exact (hsides v).2

theorem high_lift (v : Corner 2) (side : Nat) : ((v.lift side).high 2).toNat = side % 2 := by
  have hsides : ∀ v : Corner 2, v.below.high 2 = false ∧ v.above.high 2 = true := by decide
  rw [lift]
  split
  next heven =>
    rw [(hsides v).1, heven]
    rfl
  next hodd =>
    rw [(hsides v).2, Nat.mod_two_ne_zero.mp hodd]
    rfl

theorem onFace_lift (v : Corner 2) (side : Nat) {face : Nat} (hface : face < 4) :
    onFace face (v.lift side) = onFace face v := by
  have hsides : ∀ face : Fin 4, ∀ v : Corner 2, onFace (d := 3) face v.below = onFace face v ∧
      onFace (d := 3) face v.above = onFace face v := by decide
  rw [lift]
  split
  · exact (hsides ⟨face, hface⟩ v).1
  · exact (hsides ⟨face, hface⟩ v).2

theorem onFace_lift_end (v : Corner 2) (side : Nat) :
    onFace (4 + side % 2) (v.lift side) = true := by
  have hsides : ∀ v : Corner 2, onFace (d := 3) 4 v.below = true ∧
      onFace (d := 3) 5 v.above = true := by decide
  rw [lift]
  split
  next heven => simpa [heven] using (hsides v).1
  next hodd => simpa [Nat.mod_two_ne_zero.mp hodd] using (hsides v).2

theorem ext_base : ∀ v w : Corner 3, v.base = w.base → v.high 2 = w.high 2 → v = w := by decide

end Cube.Corner

theorem Cube.faceCorners_lateral :
    ∀ face < 4, faceCorners 3 face =
      (faceCorners 2 face).map Corner.below ++ (faceCorners 2 face).map Corner.above := by
  decide

theorem Cube.faceCorners_lower : faceCorners 3 4 = (corners 2).map Corner.below := by decide

theorem Cube.faceCorners_upper : faceCorners 3 5 = (corners 2).map Corner.above := by decide

namespace Mesh

variable {K : Type} {m : Mesh K 2}

/-! ## Vertices in layers -/

theorem layered_div {v : Nat} (k : Nat) (hv : v < m.vertices.size) :
    m.layered k v / m.vertices.size = k := block_div hv

theorem layered_mod {v : Nat} (k : Nat) (hv : v < m.vertices.size) :
    m.layered k v % m.vertices.size = v := Nat.mul_add_mod_of_lt hv

theorem layered_lt {slices k v : Nat} (hk : k < slices) (hv : v < m.vertices.size) :
    m.layered k v < slices * m.vertices.size := block_lt hk hv

theorem exists_layered {slices u : Nat} (hu : u < slices * m.vertices.size) :
    ∃ k < slices, ∃ v < m.vertices.size, m.layered k v = u := by
  obtain ⟨k, hk, v, rfl⟩ := exists_block hu
  exact ⟨k, hk, v, v.isLt, rfl⟩

/-- A list of plane vertices is recovered from any of its layers. -/
theorem map_mod_map_layered {vs : List Nat} (k : Nat) (hvs : ∀ v ∈ vs, v < m.vertices.size) :
    (vs.map (m.layered k)).map (· % m.vertices.size) = vs := by
  rw [List.map_map]
  conv_rhs => rw [← List.map_id vs]
  exact List.map_congr_left fun v hv => layered_mod k (hvs v hv)

theorem filter_map_layered {vs : List Nat} (k l : Nat) (hvs : ∀ v ∈ vs, v < m.vertices.size) :
    (vs.map (m.layered k)).filter (· / m.vertices.size == l) =
      if k = l then vs.map (m.layered k) else [] := by
  have hlayer : ∀ x ∈ vs.map (m.layered k), x / m.vertices.size = k := by
    intro x hx
    obtain ⟨v, hv, rfl⟩ := List.mem_map.mp hx
    exact layered_div k (hvs v hv)
  by_cases hkl : k = l
  · rw [if_pos hkl, List.filter_eq_self]
    exact fun x hx => by rw [hlayer x hx, hkl, beq_self_eq_true]
  · rw [if_neg hkl, List.filter_eq_nil_iff]
    exact fun x hx => by simpa [hlayer x hx] using hkl

/-! ## Keys in layers -/

theorem ofList_layered_inj {vs ws : List Nat} {k l : Nat} (hvs : ∀ v ∈ vs, v < m.vertices.size)
    (hws : ∀ w ∈ ws, w < m.vertices.size) (hne : vs ≠ [])
    (h : Key.ofList (vs.map (m.layered k)) = Key.ofList (ws.map (m.layered l))) :
    k = l ∧ Key.ofList vs = Key.ofList ws := by
  have hperm := Key.ofList_eq_ofList.mp h
  constructor
  · obtain ⟨v, hv⟩ := List.exists_mem_of_ne_nil vs hne
    obtain ⟨w, hw, he⟩ := List.mem_map.mp (hperm.mem_iff.mp (List.mem_map_of_mem hv))
    rw [← layered_div (m := m) k (hvs v hv), ← he, layered_div l (hws w hw)]
  · have hback := hperm.map (· % m.vertices.size)
    rw [map_mod_map_layered k hvs, map_mod_map_layered l hws] at hback
    exact Key.ofList_eq_ofList.mpr hback

theorem div_of_mem_lateral {e : Key} {k x : Nat} (he : ∀ v ∈ e, v < m.vertices.size)
    (hx : x ∈ m.lateral k e) : x / m.vertices.size = k ∨ x / m.vertices.size = k + 1 := by
  rcases List.mem_append.mp hx with hx | hx <;> obtain ⟨v, hv, rfl⟩ := List.mem_map.mp hx
  · exact Or.inl (layered_div k (he v hv))
  · exact Or.inr (layered_div (k + 1) (he v hv))

theorem lateral_lt {slices k : Nat} {e : List Nat} (hk : k < slices - 1)
    (he : ∀ v ∈ e, v < m.vertices.size) : ∀ x ∈ m.lateral k e, x < slices * m.vertices.size := by
  intro x hx
  rcases List.mem_append.mp hx with hx | hx <;> obtain ⟨v, hv, rfl⟩ := List.mem_map.mp hx
  · exact layered_lt (by omega) (he v hv)
  · exact layered_lt (by omega) (he v hv)

theorem mem_lateral {e : Key} {k v : Nat} (hv : v ∈ e) :
    m.layered k v ∈ m.lateral k e ∧ m.layered (k + 1) v ∈ m.lateral k e :=
  ⟨List.mem_append_left _ (List.mem_map_of_mem hv),
    List.mem_append_right _ (List.mem_map_of_mem hv)⟩

/-- The face above an edge tells the layer and the edge. -/
theorem ofList_lateral_inj {e e' : Key} {k l : Nat} (he : ∀ v ∈ e, v < m.vertices.size)
    (he' : ∀ v ∈ e', v < m.vertices.size) (hne : e ≠ [])
    (h : Key.ofList (m.lateral k e) = Key.ofList (m.lateral l e')) :
    k = l ∧ Key.ofList e = Key.ofList e' := by
  have hperm := Key.ofList_eq_ofList.mp h
  obtain ⟨v, hv⟩ := List.exists_mem_of_ne_nil e hne
  have hlower := div_of_mem_lateral he' (hperm.mem_iff.mp (mem_lateral (k := k) hv).1)
  have hupper := div_of_mem_lateral he' (hperm.mem_iff.mp (mem_lateral (k := k) hv).2)
  rw [layered_div _ (he v hv)] at hlower hupper
  -- `k` and `k + 1` both are `l` or `l + 1`.
  have hkl : k = l := by omega
  subst hkl
  -- The part of the key in the lower layer is the edge, moved up.
  have hback := (hperm.filter (· / m.vertices.size == k)).map (· % m.vertices.size)
  simp only [lateral, List.filter_append, filter_map_layered _ _ he, filter_map_layered _ _ he',
    if_pos, Nat.succ_ne_self, if_neg, not_false_eq_true, List.append_nil,
    map_mod_map_layered k he, map_mod_map_layered k he'] at hback
  exact ⟨rfl, Key.ofList_eq_ofList.mpr hback⟩

theorem ofList_lateral_ne_layered {e : Key} {ws : List Nat} {k l : Nat}
    (he : ∀ v ∈ e, v < m.vertices.size) (hws : ∀ w ∈ ws, w < m.vertices.size) (hne : e ≠ []) :
    Key.ofList (m.lateral k e) ≠ Key.ofList (ws.map (m.layered l)) := by
  intro h
  have hperm := Key.ofList_eq_ofList.mp h
  have hlayer : ∀ x ∈ m.lateral k e, x / m.vertices.size = l := by
    intro x hx
    obtain ⟨w, hw, rfl⟩ := List.mem_map.mp (hperm.mem_iff.mp hx)
    exact layered_div l (hws w hw)
  obtain ⟨v, hv⟩ := List.exists_mem_of_ne_nil e hne
  have hlower := hlayer _ (mem_lateral (k := k) hv).1
  have hupper := hlayer _ (mem_lateral (k := k) hv).2
  rw [layered_div _ (he v hv)] at hlower hupper
  omega

/-! ## Faces of a hexahedron -/

theorem toList_hexahedron (m : Mesh K 2) (k : Nat) (c : Cell 2) :
    (m.hexahedron k c).toList =
      c.toList.map (m.layered k) ++ c.toList.map (m.layered (k + 1)) := by
  show (Vector.map (m.layered k) c ++ Vector.map (m.layered (k + 1)) c).toList = _
  rw [Vector.toList_append, Vector.toList_map, Vector.toList_map]

theorem get_hexahedron_below (m : Mesh K 2) (k : Nat) (c : Cell 2) (v : Corner 2) :
    (m.hexahedron k c).get v.below = m.layered k (c.get v) := by
  show (Vector.map (m.layered k) c ++ Vector.map (m.layered (k + 1)) c)[v.val] = _
  rw [Vector.getElem_append_left v.isLt, Vector.getElem_map]
  rfl

theorem get_hexahedron_above (m : Mesh K 2) (k : Nat) (c : Cell 2) (v : Corner 2) :
    (m.hexahedron k c).get v.above = m.layered (k + 1) (c.get v) := by
  have hv : v.val + 4 < cornerCount 2 + cornerCount 2 := Nat.add_lt_add_right v.isLt 4
  show (Vector.map (m.layered k) c ++ Vector.map (m.layered (k + 1)) c)[v.val + 4] = _
  rw [Vector.getElem_append_right _ (Nat.le_add_left 4 v.val), Vector.getElem_map]
  rfl

theorem get_hexahedron (m : Mesh K 2) (k : Nat) (c : Cell 2) (v : Corner 3) :
    (m.hexahedron k c).get v = m.layered (k + (v.high 2).toNat) (c.get v.base) := by
  have hsides : ∀ v : Corner 3, v.high 2 = false ∧ v.base.below = v ∨
      v.high 2 = true ∧ v.base.above = v := by decide
  rcases hsides v with ⟨hhigh, hv⟩ | ⟨hhigh, hv⟩
  · have hbelow := m.get_hexahedron_below k c v.base
    rw [hv] at hbelow
    rw [hhigh]
    exact hbelow
  · have habove := m.get_hexahedron_above k c v.base
    rw [hv] at habove
    rw [hhigh]
    exact habove

theorem key_hexahedron_below (m : Mesh K 2) (k : Nat) (c : Cell 2) (vs : List (Corner 2)) :
    (m.hexahedron k c).key (vs.map Corner.below) = Key.ofList ((c.key vs).map (m.layered k)) := by
  rw [Cell.key, Cell.key, Key.ofList_map_ofList, List.map_map, List.map_map]
  congr 1
  exact List.map_congr_left fun v _ => m.get_hexahedron_below k c v

theorem key_hexahedron_above (m : Mesh K 2) (k : Nat) (c : Cell 2) (vs : List (Corner 2)) :
    (m.hexahedron k c).key (vs.map Corner.above) =
      Key.ofList ((c.key vs).map (m.layered (k + 1))) := by
  rw [Cell.key, Cell.key, Key.ofList_map_ofList, List.map_map, List.map_map]
  congr 1
  exact List.map_congr_left fun v _ => m.get_hexahedron_above k c v

theorem key_hexahedron_lateral (m : Mesh K 2) (k : Nat) (c : Cell 2) (vs : List (Corner 2)) :
    (m.hexahedron k c).key (vs.map Corner.below ++ vs.map Corner.above) =
      Key.ofList (m.lateral k (c.key vs)) := by
  have hsort := (Key.ofList_perm (vs.map c.get)).symm
  have hbelow : (vs.map Corner.below).map (m.hexahedron k c).get =
      (vs.map c.get).map (m.layered k) := by
    rw [List.map_map, List.map_map]
    exact List.map_congr_left fun v _ => m.get_hexahedron_below k c v
  have habove : (vs.map Corner.above).map (m.hexahedron k c).get =
      (vs.map c.get).map (m.layered (k + 1)) := by
    rw [List.map_map, List.map_map]
    exact List.map_congr_left fun v _ => m.get_hexahedron_above k c v
  rw [Cell.key, List.map_append, hbelow, habove, lateral, Key.ofList_eq_ofList]
  exact (hsort.map _).append (hsort.map _)

theorem faceKey_hexahedron_lateral (m : Mesh K 2) (k : Nat) (c : Cell 2) {face : Nat}
    (h : face < 4) :
    (m.hexahedron k c).faceKey face = Key.ofList (m.lateral k (c.faceKey face)) := by
  rw [Cell.faceKey, faceCorners_lateral face h, key_hexahedron_lateral]
  rfl

theorem faceKey_hexahedron_lower (m : Mesh K 2) (k : Nat) (c : Cell 2) :
    (m.hexahedron k c).faceKey 4 = Key.ofList (c.toList.map (m.layered k)) := by
  rw [Cell.faceKey, faceCorners_lower, key_hexahedron_below, Cell.key, Cell.map_get_corners,
    Key.ofList_map_ofList]

theorem faceKey_hexahedron_upper (m : Mesh K 2) (k : Nat) (c : Cell 2) :
    (m.hexahedron k c).faceKey 5 = Key.ofList (c.toList.map (m.layered (k + 1))) := by
  rw [Cell.faceKey, faceCorners_upper, key_hexahedron_above, Cell.key, Cell.map_get_corners,
    Key.ofList_map_ofList]

end Mesh
end HexMesh
