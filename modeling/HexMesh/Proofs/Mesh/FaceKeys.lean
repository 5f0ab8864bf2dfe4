import HexMesh.Mesh.Summary
import HexMesh.Proofs.Mesh.Boundary

/-!
What depends on the keys of the faces only.

Whether a face lies on the boundary is decided by counting keys.  So meshes whose cells have
the same face keys have the same boundary, in whatever order each cell counts its faces; with
the same indicators they have the same summary.  The edges of a mesh depend on its edge keys
in the same way, and there not even on how often a key occurs.
-/

namespace HexMesh

open HexMesh.Cube

theorem KeyMap.tally_congr {ks ls : List Key} (h : ks.Perm ls) : tally ks = tally ls := by
  refine Std.ExtTreeMap.ext_getElem? fun k => ?_
  have hks : (tally ks)[k]? = _ := getElem?_foldl_tally id ks ∅ k
  have hls : (tally ls)[k]? = _ := getElem?_foldl_tally id ls ∅ k
  rw [hks, hls, h.countP_eq]

theorem mem_foldl_insert {α : Type} [Ord α] [Std.TransOrd α] [Std.LawfulEqOrd α] (xs : List α)
    (s : Std.ExtTreeSet α) (a : α) : a ∈ xs.foldl (·.insert ·) s ↔ a ∈ s ∨ a ∈ xs := by
  induction xs generalizing s with
  | nil => simp
  | cons x rest ih =>
    rw [List.foldl_cons, ih, Std.ExtTreeSet.mem_insert, Std.LawfulEqOrd.compare_eq_iff_eq,
      List.mem_cons, eq_comm, or_comm (a := a = x), or_assoc]

/-- A set that is filled from a list does not depend on the order of the list, or on how often
it lists a member. -/
theorem foldl_insert_congr {α : Type} [Ord α] [Std.TransOrd α] [Std.LawfulEqOrd α]
    {xs ys : List α} (h : ∀ a, a ∈ xs ↔ a ∈ ys) (s : Std.ExtTreeSet α) :
    xs.foldl (·.insert ·) s = ys.foldl (·.insert ·) s :=
  Std.ExtTreeSet.ext_mem fun a => by rw [mem_foldl_insert, mem_foldl_insert, h]

namespace Cell

variable {d : Nat}

def faceKeys (c : Cell d) : List Key := (List.range (faceCount d)).map c.faceKey

def edgeKeys (c : Cell d) : List Key := c.edges.map fun e => [min e.1 e.2, max e.1 e.2]

theorem mem_edgeKeys {c : Cell d} {k : Key} :
    k ∈ c.edgeKeys ↔ ∃ (v : Corner d) (a : Fin d), v.high a = false ∧
      [min (c.get v) (c.get (v.raise a)), max (c.get v) (c.get (v.raise a))] = k := by
  simp [edgeKeys, edges, Cube.edges, mem_corners]

end Cell

namespace Mesh

variable {K : Type} {d : Nat} {m m' : Mesh K d}

/-- The keys of all faces of all cells. -/
def faceKeys (m : Mesh K d) : List Key := m.cells.flatMap Cell.faceKeys

theorem map_snd_faces (m : Mesh K d) : m.faces.map (·.2) = m.faceKeys := by
  have hcell (e : Cell d × Nat) : (((List.range (faceCount d)).map fun f =>
      ((⟨e.2, f⟩ : FaceRef), e.1.faceKey f)).map (·.2)) = e.1.faceKeys := List.map_map
  rw [faces, List.map_flatMap, faceKeys]
  simp only [hcell]
  rw [← List.flatMap_map Prod.fst, List.zipIdx_map_fst]

theorem map_snd_outerFaces (m : Mesh K d) :
    m.outerFaces.map (·.2) = m.faceKeys.filter fun k => m.owners.getD k 0 == 1 := by
  rw [← map_snd_faces, List.filter_map]
  rfl

theorem mem_boundaryVertices {v : Nat} :
    v ∈ m.boundaryVertices ↔ ∃ k ∈ m.outerFaces.map (·.2), v ∈ k := by
  rw [boundaryVertices, mem_foldl_insert, ← List.mem_flatMap, List.flatMap_map]
  simp

section FaceKeys

variable (h : m'.faceKeys.Perm m.faceKeys)
include h

theorem owners_congr : m'.owners = m.owners := by
  rw [owners, owners, map_snd_faces, map_snd_faces]
  exact KeyMap.tally_congr h

theorem outerFaces_congr : (m'.outerFaces.map (·.2)).Perm (m.outerFaces.map (·.2)) := by
  rw [map_snd_outerFaces, map_snd_outerFaces, owners_congr h]
  exact h.filter _

theorem boundaryVertices_congr : m'.boundaryVertices = m.boundaryVertices := by
  refine Std.ExtTreeSet.ext_mem fun v => ?_
  rw [mem_boundaryVertices, mem_boundaryVertices]
  exact exists_congr fun k => and_congr_left fun _ => (outerFaces_congr h).mem_iff

theorem indicatorCounts_congr (hindicators : m'.indicators = m.indicators) :
    m'.indicatorCounts = m.indicatorCounts := by
  have hcount (m : Mesh K d) (i : Indicator) : m.boundaryFaces.countP (·.indicator = i) =
      (m.outerFaces.map (·.2)).countP (m.indicator · = i) := by
    rw [boundaryFaces, List.countP_map, List.countP_map]
    rfl
  have hindicator : m'.indicator = m.indicator := by
    funext k
    rw [indicator, indicator, hindicators]
  refine Std.ExtTreeMap.ext_getElem? fun i => ?_
  rw [getElem?_indicatorCounts, getElem?_indicatorCounts, hcount, hcount, hindicator,
    (outerFaces_congr h).countP_eq]

theorem summary_congr (hindicators : m'.indicators = m.indicators)
    (hcells : m'.cells.length = m.cells.length) (output : String) :
    Summary.ofMesh m' output = Summary.ofMesh m output := by
  rw [Summary.ofMesh, Summary.ofMesh, hcells, indicatorCounts_congr h hindicators]

end FaceKeys

theorem edges_congr
    (h : ∀ k, k ∈ m'.cells.flatMap Cell.edgeKeys ↔ k ∈ m.cells.flatMap Cell.edgeKeys) :
    m'.edges = m.edges := by
  have hset : (m'.cells.flatMap Cell.edgeKeys).foldl (·.insert ·) (∅ : Std.ExtTreeSet Key) =
      (m.cells.flatMap Cell.edgeKeys).foldl (·.insert ·) ∅ := foldl_insert_congr h ∅
  show List.filterMap _ (Std.ExtTreeSet.toList
    ((m'.cells.flatMap Cell.edgeKeys).foldl (·.insert ·) ∅)) = _
  rw [hset]
  rfl

end Mesh
end HexMesh
