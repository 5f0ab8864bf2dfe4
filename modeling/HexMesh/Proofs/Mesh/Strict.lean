import HexMesh.Mesh.Merge
import HexMesh.Proofs.Mesh.Constructions
import HexMesh.Proofs.Strict

/-!
Work on meshes with accesses that fail.

Every list that a mesh or one of its cells is looked up in appears here as the list it is:
the corners of a cell, the table of vertices, the table of new numbers, and the vertices of
the halving lattice.
-/

namespace HexMesh
namespace Mesh

open HexMesh.Cube Strict

variable {K : Type} {d : Nat} {ε : Type}

/-! ## Faces and corners -/

def strictFaceKey (c : Cell d) (face : Nat) : Strict ε Key := do
  let vs ← (faceCorners d face).mapM fun v => entry c.toList v.val
  return Key.ofList vs

def strictCorners (m : Mesh K d) (c : Cell d) : Strict ε (List (Point K d)) :=
  c.toList.mapM (entry m.vertices.toList)

theorem entry_corner (c : Cell d) (v : Corner d) :
    (entry c.toList v.val : Strict ε Nat) = total (.ok (c.get v)) := by
  have hget : c.toList[v.val]? = some (c.get v) := by
    rw [Vector.getElem?_toList, Vector.getElem?_eq_getElem v.isLt]
    rfl
  exact entry_eq hget

theorem strictFaceKey_eq (c : Cell d) (face : Nat) :
    (strictFaceKey c face : Strict ε Key) = total (.ok (c.faceKey face)) := by
  rw [strictFaceKey, mapM_of_total fun v _ => entry_corner c v]
  rfl

theorem entry_vertex [Scalar K] {m : Mesh K d} {v : Nat} (h : v < m.vertices.size) :
    (entry m.vertices.toList v : Strict ε (Point K d)) = total (.ok (m.position v)) := by
  have hget : m.vertices.toList[v]? = some (m.position v) := by
    rw [Array.getElem?_toList, position_eq h]
  exact entry_eq hget

theorem strictCorners_eq [Scalar K] {m : Mesh K d} {c : Cell d}
    (h : ∀ v ∈ c.toList, v < m.vertices.size) :
    (m.strictCorners c : Strict ε (List (Point K d))) =
      total (.ok (m.cornerPoints c).toList) := by
  rw [strictCorners, mapM_of_total fun v hv => entry_vertex (h v hv), cornerPoints,
    Vector.toList_map]

theorem faceKeyAt_eq_ok {m : Mesh K d} {i : Nat} {c : Cell d} (h : m.cells[i]? = some c)
    (face : Nat) : m.faceKeyAt i face = .ok (c.faceKey face) :=
  bind_eq_ok_iff.mpr ⟨c, cellAt_eq_ok_iff.mpr h, rfl⟩

theorem cornersOf_eq_ok [Scalar K] {m : Mesh K d} {i : Nat} {c : Cell d}
    (h : m.cells[i]? = some c) (hc : ∀ v ∈ c.toList, v < m.vertices.size) :
    m.cornersOf i = .ok (m.cornerPoints c).toList := by
  refine bind_eq_ok_iff.mpr ⟨c, cellAt_eq_ok_iff.mpr h, mapM_eq_ok_iff.mpr ?_⟩
  rw [cornerPoints, Vector.toList_map, List.map_map]
  refine List.map_congr_left fun v hv => ?_
  rw [vertexAt, position_eq (hc v hv)]
  rfl

/-! ## Renumbering -/

def strictRenumber (m : Mesh K d) (vertices : Array (Point K d)) (numbers : Array Nat) :
    Strict ε (Mesh K d) := do
  let cells ← m.cells.mapM fun c => c.mapM (entry numbers.toList)
  let entries ← m.indicators.toList.mapM fun e => do
    let vs ← e.1.mapM (entry numbers.toList)
    return (Key.ofList vs, e.2)
  return { m with vertices, cells, indicators := KeyMap.ofEntries entries }

theorem strictRenumber_eq {m : Mesh K d} (h : m.WellFormed) (vertices : Array (Point K d))
    {numbers : Array Nat} (hsize : numbers.size = m.vertices.size) :
    (m.strictRenumber vertices numbers : Strict ε (Mesh K d)) =
      total (.ok (m.renumber vertices fun v => numbers.getD v 0)) := by
  have hnumber {v : Nat} (hv : v < m.vertices.size) :
      (entry numbers.toList v : Strict ε Nat) = total (.ok (numbers.getD v 0)) := by
    have hv : v < numbers.size := hsize ▸ hv
    refine entry_eq ?_
    rw [Array.getElem?_toList, Array.getElem?_eq_getElem hv, Array.getD_eq_getD_getElem?,
      Array.getElem?_eq_getElem hv, Option.getD_some]
  have hcell (c : Cell d) (hc : c ∈ m.cells) :
      (c.mapM (entry numbers.toList) : Strict ε (Cell d)) =
        total (.ok (c.map fun v => numbers.getD v 0)) :=
    mapM_of_total_vector fun v hv => hnumber (h.cell_lt c hc v hv)
  have hentry (e : Key × Indicator) (he : e ∈ m.indicators.toList) :
      (do
        let vs ← e.1.mapM (entry numbers.toList)
        return (Key.ofList vs, e.2) : Strict ε (Key × Indicator)) =
      total (.ok (Key.ofList (e.1.map fun v => numbers.getD v 0), e.2)) := by
    have hkey : e.1 ∈ m.indicators := by
      rw [Std.ExtTreeMap.mem_iff_isSome_getElem?,
        Std.ExtTreeMap.mem_toList_iff_getElem?_eq_some.mp (show (e.1, e.2) ∈ _ from he)]
      rfl
    rw [mapM_of_total fun v hv => hnumber (h.key_lt e.1 hkey v hv)]
    rfl
  rw [strictRenumber, mapM_of_total hcell, ok_bind, mapM_of_total hentry]
  rfl

section Gluing

variable [Scalar K]

def strictDeduplicate (m : Mesh K d) (tol : K) : Strict ε (Mesh K d × Nat) :=
  let r := m.identify tol
  let removed := m.vertices.size - r.survivors.length
  if removed = 0 then return (m, 0)
  else do
    let vertices ← r.survivors.mapM (entry m.vertices.toList)
    let renumbered ← m.strictRenumber vertices.toArray r.renumbering
    return (renumbered, removed)

/-- On a well-formed mesh identification does not fail either. -/
theorem strictDeduplicate_eq {m : Mesh K d} (h : m.WellFormed) (tol : K) :
    ∃ m' n, m.deduplicate tol = .ok (m', n) ∧
      (m.strictDeduplicate tol : Strict ε (Mesh K d × Nat)) = total (.ok (m', n)) := by
  obtain ⟨m', n, hok⟩ := exists_deduplicate h.key_lt tol
  refine ⟨m', n, hok, ?_⟩
  have hsound := m.sound_identify tol
  have hsurvivors : ∀ v ∈ (m.identify tol).survivors, v < m.vertices.size := fun v hv =>
    hsound.size ▸ (Identification.mem_survivors.mp hv).1
  have hnumbers : (m.identify tol).renumbering.size = m.vertices.size := by
    rw [Identification.renumbering, Array.size_map, hsound.size]
  unfold strictDeduplicate
  unfold deduplicate at hok
  dsimp only at hok ⊢
  split at hok
  next hremoved =>
    cases hok
    rw [if_pos hremoved]
    rfl
  next hremoved =>
    rw [if_neg hremoved, mapM_of_total fun v hv => entry_vertex (hsurvivors v hv), ok_bind,
      strictRenumber_eq h _ hnumbers]
    split at hok
    · cases hok
      rfl
    · cases hok

def strictMerge [SquareRoot K] (a b : Mesh K d) : Strict ε (Mesh K d) := do
  let both := ({} : Mesh K d).append a |>.append b
  let (glued, _) ← both.strictDeduplicate both.mergeTolerance
  return glued.pruneIndicators

theorem strictMerge_eq [SquareRoot K] {a b : Mesh K d} (ha : a.WellFormed) (hb : b.WellFormed) :
    (strictMerge a b : Strict (Fault K) (Mesh K d)) = total (a.merge b) := by
  have hboth := wellFormed_append (wellFormed_append wellFormed_empty ha) hb
  obtain ⟨glued, n, hok, hstrict⟩ := strictDeduplicate_eq (ε := Fault K) hboth
    ((({} : Mesh K d).append a).append b).mergeTolerance
  rw [strictMerge, merge]
  dsimp only
  rw [hstrict, hok]
  rfl

/-! ## Refinement -/

def strictPosition (m : Mesh K d) (curved : KeyMap Indicator) (k : Key) : Strict ε (Point K d) := do
  let parents ← k.mapM (entry m.vertices.toList)
  return (m.shapeOfKey curved k).place parents

omit [Scalar K] in
/-- The vertex at a point of a cell's halving lattice.  A piece of more than one corner must
have a number. -/
def strictVertex (m : Mesh K d) (new : Numbering) (c : Cell d) (p : Nat) : Strict ε Nat := do
  let corners ← (latticeCorners d p).mapM fun v => entry c.toList v.val
  let k := Key.ofList corners
  if k.length = 1 then entry k 0
  else known ((new.index[k]?).map (m.vertices.size + ·))

omit [Scalar K] in
def strictChild (lattice : List Nat) (child : Corner d) : Strict ε (Cell d) :=
  (Vector.finRange (cornerCount d)).mapM fun v : Corner d => entry lattice (childPoint child v)

omit [Scalar K] in
def strictChildren (m : Mesh K d) (new : Numbering) (c : Cell d) :
    Strict ε (Cell d × List (Corner d × Cell d)) := do
  let lattice ← (List.range (latticeCount d)).mapM (m.strictVertex new c)
  let children ← (corners d).mapM fun child => do
    let childCell ← strictChild lattice child
    return (child, childCell)
  return (c, children)

def strictRefineOnce (m : Mesh K d) : Strict ε (Mesh K d) := do
  let new := m.newKeys
  let positions ← new.keys.toList.mapM (m.strictPosition m.curvedKeys)
  let children ← m.cells.mapM (m.strictChildren new)
  return {
    vertices := m.vertices ++ positions.toArray
    cells := children.flatMap fun (_, cs) => cs.map (·.2)
    indicators := KeyMap.ofEntries <| children.flatMap fun (c, cs) =>
      cs.flatMap fun (child, childCell) => m.inherited c child childCell
    shapes := m.shapes }

theorem strictPosition_eq {m : Mesh K d} (hm : m.CellsValid) {k : Key} (hk : m.IsPiece k)
    (curved : KeyMap Indicator) :
    (m.strictPosition curved k : Strict ε (Point K d)) =
      total (.ok (m.newPosition curved k)) := by
  rw [strictPosition, mapM_of_total fun v hv => entry_vertex (hk.lt_size hm v hv)]
  rfl

omit [Scalar K] in
theorem strictVertex_eq {m : Mesh K d} {c : Cell d} (hc : c ∈ m.cells) {p : Nat}
    (hp : p < latticeCount d) :
    (m.strictVertex m.newKeys c p : Strict ε Nat) =
      total (.ok (m.vertexOfKey m.newKeys (c.latticeKey p))) := by
  have hpiece : m.IsPiece (c.latticeKey p) := ⟨c, hc, p, hp, rfl⟩
  rw [strictVertex, mapM_of_total fun v _ => entry_corner c v, ok_bind]
  show (if (c.latticeKey p).length = 1 then entry (c.latticeKey p) 0
    else known (((m.newKeys.index)[c.latticeKey p]?).map (m.vertices.size + ·))) = _
  rcases hpiece.singleton_or_length with ⟨v, hv⟩ | hlength
  · rw [hv]
    rfl
  · rw [if_neg (by omega)]
    have hindex : c.latticeKey p ∈ m.newKeys.index :=
      (m.valid_newKeys.mem_index _).mpr (mem_newKeys.mpr ⟨hpiece, hlength⟩)
    obtain ⟨i, hi⟩ := Option.isSome_iff_exists.mp
      (Std.ExtTreeMap.mem_iff_isSome_getElem?.mp hindex)
    have hnumber : m.newKeys.number (c.latticeKey p) = i := by
      rw [Numbering.number, Std.ExtTreeMap.getD_eq_getD_getElem?, hi]
      rfl
    show _ = total (.ok (m.middle (c.latticeKey p)))
    rw [middle_of_length hlength, hnumber]
    refine known_eq ?_
    rw [hi]
    rfl

omit [Scalar K] in
theorem strictChildren_eq {m : Mesh K d} {c : Cell d} (hc : c ∈ m.cells) :
    (m.strictChildren m.newKeys c : Strict ε (Cell d × List (Corner d × Cell d))) =
      total (.ok (c, (corners d).map fun child => (child, m.childCell m.newKeys c child))) := by
  have hchild (child : Corner d) : (strictChild
      ((List.range (latticeCount d)).map fun p => m.vertexOfKey m.newKeys (c.latticeKey p))
      child : Strict ε (Cell d)) = total (.ok (m.childCell m.newKeys c child)) := by
    have hplace (v : Corner d) : childPoint child v <
        ((List.range (latticeCount d)).map fun p =>
          m.vertexOfKey m.newKeys (c.latticeKey p)).length := by
      rw [List.length_map, List.length_range]
      exact childPoint_lt child v
    rw [strictChild, mapM_entry hplace 0]
    refine congrArg (fun c => total (Except.ok c)) (Vector.ext fun v hv => ?_)
    rw [Vector.getElem_ofFn, List.getD_eq_getElem?_getD, List.getElem?_map,
      List.getElem?_range (childPoint_lt child _), childCell, Cell.ofFn, Vector.getElem_ofFn]
    rfl
  rw [strictChildren, mapM_of_total fun p hp => strictVertex_eq hc (List.mem_range.mp hp), ok_bind,
    mapM_of_total (g := fun child => (child, m.childCell m.newKeys c child)) fun child _ => ?_]
  · rfl
  · rw [hchild]
    rfl

theorem strictRefineOnce_eq {m : Mesh K d} (hm : m.CellsValid) :
    (m.strictRefineOnce : Strict ε (Mesh K d)) = total (.ok m.refineOnce) := by
  have hposition (k : Key) (hk : k ∈ m.newKeys.keys.toList) :
      (m.strictPosition m.curvedKeys k : Strict ε (Point K d)) =
        total (.ok (m.newPosition m.curvedKeys k)) :=
    strictPosition_eq hm (mem_newKeys.mp (Array.mem_toList_iff.mp hk)).1 _
  rw [strictRefineOnce, mapM_of_total hposition, ok_bind,
    mapM_of_total fun c hc => strictChildren_eq hc, ok_bind, refineOnce, ← Array.toList_map]
  rfl

def strictRefine (m : Mesh K d) : Nat → Strict ε (Mesh K d)
  | 0 => return m
  | n + 1 => do (← m.strictRefineOnce).strictRefine n

theorem strictRefine_eq {m : Mesh K d} (hm : m.WellFormed) (n : Nat) :
    (m.strictRefine n : Strict ε (Mesh K d)) = total (.ok (m.refine n)) := by
  induction n generalizing m with
  | zero => rfl
  | succ n ih =>
    rw [strictRefine, strictRefineOnce_eq hm.cell_lt, ok_bind, ih hm.refineOnce]
    rfl

end Gluing

end Mesh
end HexMesh
