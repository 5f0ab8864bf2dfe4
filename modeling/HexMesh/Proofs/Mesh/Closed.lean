import HexMesh.Proofs.Mesh.FaceKeys
import HexMesh.Proofs.Refinement.Boundary
import HexMesh.Proofs.Topology.Incidence
import Mathlib.Algebra.BigOperators.Group.Finset.Basic
import Mathlib.Algebra.BigOperators.Ring.Finset
import Mathlib.Algebra.BigOperators.Ring.List
import Mathlib.Algebra.Ring.Parity

/-!
The boundary of a mesh is closed.

In the plane a corner of a cell lies on two of its faces, and in space an edge does.  So around
a vertex, or around an edge, all faces of all cells are an even number.  A key that two cells
own stands for two of these faces, and leaving such pairs away changes nothing in the parity;
what is left are the faces on the boundary.  In space, cells that share a face have to agree
about its edges, or an edge would be on one face of a pair and not on the other.
-/

namespace HexMesh

open HexMesh.Cube

/-- Leaving away what stands in a list twice does not change a parity. -/
theorem even_countP_filter_count {α : Type} [equal : BEq α] [LawfulBEq α] {xs : List α}
    (h : ∀ x, xs.count x ≤ 2) (p : α → Bool) :
    Even ((xs.filter fun x => xs.count x == 1).countP p) ↔ Even (xs.countP p) := by
  classical
  obtain rfl := lawful_beq_subsingleton equal instBEqOfDecidableEq
  let twice := (xs.filter fun x => !(xs.count x == 1)).filter p
  have hcount {x : α} (hx : x ∈ twice) : twice.count x = 2 := by
    obtain ⟨hmem, hp⟩ := List.mem_filter.mp hx
    obtain ⟨hmem, hne⟩ := List.mem_filter.mp hmem
    have hpos := List.count_pos_iff.mpr hmem
    have hle := h x
    rw [List.count_filter hp, List.count_filter (p := fun x => !(xs.count x == 1)) hne]
    simp only [Bool.not_eq_true', beq_eq_false_iff_ne] at hne
    omega
  have htwice : Even twice.length := by
    rw [even_iff_two_dvd, ← List.sum_toFinset_count_eq_length twice]
    refine Finset.dvd_sum fun x hx => ?_
    rw [hcount (List.mem_toFinset.mp hx)]
  rw [List.countP_eq_countP_filter_add xs p fun x => xs.count x == 1, Nat.even_add,
    List.countP_eq_length_filter (l := xs.filter fun x => !(xs.count x == 1))]
  exact (iff_true_right htwice).symm

namespace Mesh

variable {K : Type} {d : Nat} {m : Mesh K d}

theorem getD_owners (m : Mesh K d) (k : Key) : m.owners.getD k 0 = m.faceKeys.count k := by
  rw [owners, KeyMap.getD_tally, map_snd_faces]

/-- Only the keys of the faces have to be looked at. -/
theorem owners_le_iff {n : Nat} :
    (∀ k, m.owners.getD k 0 ≤ n) ↔ ∀ k ∈ m.faceKeys, m.faceKeys.count k ≤ n := by
  simp only [getD_owners]
  refine ⟨fun h k _ => h k, fun h k => ?_⟩
  by_cases hk : k ∈ m.faceKeys
  · exact h k hk
  · rw [List.count_eq_zero.mpr hk]
    exact Nat.zero_le n

/-- What an even number of the faces of each cell have, and what depends on the key of a face,
an even number of boundary faces have, if no key is owned more than twice. -/
theorem even_countP_boundaryFaces (holds : Cell d → Nat → Bool)
    (howners : ∀ k, m.owners.getD k 0 ≤ 2)
    (hkey : ∀ c ∈ m.cells, ∀ e ∈ m.cells, ∀ f < faceCount d, ∀ g < faceCount d,
      c.faceKey f = e.faceKey g → holds c f = true → holds e g = true)
    (heven : ∀ c ∈ m.cells, Even ((List.range (faceCount d)).countP (holds c))) :
    Even (m.boundaryFaces.countP fun b => (m.cells[b.cell]?).any (holds · b.face)) := by
  let has (k : Key) : Bool :=
    decide (∃ c ∈ m.cells, ∃ f < faceCount d, c.faceKey f = k ∧ holds c f = true)
  have hhas {c : Cell d} (hc : c ∈ m.cells) {f : Nat} (hf : f < faceCount d) :
      has (c.faceKey f) = true ↔ holds c f = true := by
    rw [decide_eq_true_iff]
    constructor
    · rintro ⟨e, he, g, hg, hkeys, hholds⟩
      exact hkey e he c hc g hg f hf hkeys hholds
    · exact fun hholds => ⟨c, hc, f, hf, rfl, hholds⟩
  have houter : m.boundaryFaces.countP (fun b => (m.cells[b.cell]?).any (holds · b.face)) =
      (m.faceKeys.filter fun k => m.faceKeys.count k == 1).countP has := by
    simp only [← getD_owners]
    rw [← map_snd_outerFaces, boundaryFaces, List.countP_map, List.countP_map]
    refine List.countP_congr fun x hx => ?_
    obtain ⟨c, hc, hface, hkey⟩ := (mem_outerFaces.mp hx).1
    show (m.cells[x.1.cell]?).any (holds · x.1.face) = true ↔ has x.2 = true
    rw [hc, ← hkey, hhas (List.mem_of_getElem? hc) hface]
    rfl
  rw [houter, even_countP_filter_count fun k => (m.getD_owners k) ▸ howners k, faceKeys,
    List.countP_flatMap, even_iff_two_dvd]
  refine List.dvd_sum fun n hn => ?_
  obtain ⟨c, hc, rfl⟩ := List.mem_map.mp hn
  have hcell : c.faceKeys.countP has = (List.range (faceCount d)).countP (holds c) := by
    rw [Cell.faceKeys, List.countP_map]
    exact List.countP_congr fun f hf => hhas hc (List.mem_range.mp hf)
  rw [← even_iff_two_dvd, Function.comp_apply, hcell]
  exact heven c hc

/-! ## Vertices and edges on the boundary -/

/-- The key of a face; the empty one where the mesh has no such face. -/
def keyOf (m : Mesh K d) (r : FaceRef) : Key := (m.cells[r.cell]?).elim [] (·.faceKey r.face)

/-- The edges of a face, as keys. -/
def edgesOf (m : Mesh K d) (r : FaceRef) : List Key :=
  (m.cells[r.cell]?).elim [] (·.faceEdges r.face)

end Mesh

namespace Cell

theorem even_countP_faceKey {c : Cell 2} (hc : c.toList.Nodup) (u : Nat) :
    Even ((List.range (faceCount 2)).countP fun f => decide (u ∈ c.faceKey f)) := by
  by_cases hu : ∃ v, c.get v = u
  · obtain ⟨v, rfl⟩ := hu
    have hcount : (List.range (faceCount 2)).countP (fun f => decide (c.get v ∈ c.faceKey f)) =
        (List.range (faceCount 2)).countP (onFace · v) :=
      List.countP_congr fun f _ => by rw [decide_eq_true_iff, get_mem_faceKey hc]
    rw [hcount, countP_onFace v]
    exact even_two
  · rw [List.countP_eq_zero.mpr fun f _ hf => hu ?_]
    · exact Even.zero
    · obtain ⟨v, -, hv⟩ := mem_faceKey.mp (of_decide_eq_true hf)
      exact ⟨v, hv⟩

theorem even_countP_faceEdges {c : Cell 3} (hc : c.toList.Nodup) (k : Key) :
    Even ((List.range (faceCount 3)).countP fun f => decide (k ∈ c.faceEdges f)) := by
  by_cases hk : ∃ e ∈ Cube.edges 3, c.key [e.1, e.2] = k
  · obtain ⟨e, he, rfl⟩ := hk
    have hface (f : Nat) : c.key [e.1, e.2] ∈ c.faceEdges f ↔
        (onFace f e.1 && onFace f e.2) = true := by
      rw [faceEdges, List.mem_map]
      constructor
      · rintro ⟨e', he', hkey⟩
        have hon := (List.mem_filter.mp he').2
        rw [Bool.and_eq_true] at hon
        have hend {v : Corner 3} (hv : v ∈ [e.1, e.2]) : onFace f v = true := by
          obtain ⟨w, hw, hsame⟩ := mem_key.mp (hkey ▸ mem_key.mpr ⟨v, hv, rfl⟩)
          obtain rfl := get_injective hc hsame
          rcases List.mem_pair.mp hw with rfl | rfl
          · exact hon.1
          · exact hon.2
        rw [hend (by simp), hend (by simp), Bool.and_self]
      · exact fun hon => ⟨e, List.mem_filter.mpr ⟨he, hon⟩, rfl⟩
    have hcount : (List.range (faceCount 3)).countP
          (fun f => decide (c.key [e.1, e.2] ∈ c.faceEdges f)) =
        (List.range (faceCount 3)).countP fun f => onFace f e.1 && onFace f e.2 :=
      List.countP_congr fun f _ => by rw [decide_eq_true_iff, hface]
    rw [hcount, countP_onFace_both he]
    exact even_two
  · rw [List.countP_eq_zero.mpr fun f _ hf => hk ?_]
    · exact Even.zero
    · obtain ⟨e, he, hkey⟩ := List.mem_map.mp (of_decide_eq_true hf)
      exact ⟨e, (List.mem_filter.mp he).1, hkey⟩

end Cell

namespace Mesh

variable {K : Type}

/-- In the plane every vertex lies on an even number of boundary faces, and in space every edge
does, if cells are squares and cubes, no face belongs to more than two of them and, in space,
cells agree about the edges of a common face. -/
theorem boundary_closed :
    (∀ m : Mesh K 2, m.CellsDistinct → (∀ k, m.owners.getD k 0 ≤ 2) →
      ∀ v, Even (m.boundaryFaces.countP fun b => v ∈ m.keyOf b.toFaceRef)) ∧
    ∀ m : Mesh K 3, m.CellsDistinct → (∀ k, m.owners.getD k 0 ≤ 2) → m.FacesConform →
      ∀ e ∈ m.edges, Even (m.boundaryFaces.countP fun b => [e.1, e.2] ∈ m.edgesOf b.toFaceRef) := by
  constructor
  · intro m hdistinct howners v
    have heven := even_countP_boundaryFaces (fun c f => decide (v ∈ c.faceKey f)) howners
      (fun c _ e _ f _ g _ hkeys hv => hkeys ▸ hv)
      fun c hc => Cell.even_countP_faceKey (hdistinct c hc) v
    refine (congrArg Even (List.countP_congr fun b _ => ?_)).mpr heven
    unfold keyOf
    cases m.cells[b.cell]? with
    | none => simp
    | some c => exact Iff.rfl
  · intro m hdistinct howners hconform e _
    have heven := even_countP_boundaryFaces
      (fun c f => decide ([e.1, e.2] ∈ c.faceEdges f)) howners
      (fun c hc c' hc' f hf g hg hkeys he => decide_eq_true
        (hconform c hc c' hc' f hf g hg hkeys (of_decide_eq_true he)))
      fun c hc => Cell.even_countP_faceEdges (hdistinct c hc) [e.1, e.2]
    refine (congrArg Even (List.countP_congr fun b _ => ?_)).mpr heven
    unfold edgesOf
    cases m.cells[b.cell]? with
    | none => simp
    | some c => exact Iff.rfl

/-- Two squares that touch in a vertex only, which lies on four boundary faces. -/
def bowTie : Mesh Float 2 :=
  { vertices := #[.xy 1 1, .xy 0 0, .xy 1 0, .xy 0 1, .xy 2 1, .xy 1 2, .xy 2 2]
    cells := [#v[1, 2, 3, 0], #v[0, 4, 5, 6]] }

theorem boundary_closed_bowTie :
    bowTie.CellsDistinct ∧ (∀ k, bowTie.owners.getD k 0 ≤ 2) ∧
      Even (bowTie.boundaryFaces.countP fun b => 0 ∈ bowTie.keyOf b.toFaceRef) ∧
      bricks.CellsDistinct ∧ (∀ k, bricks.owners.getD k 0 ≤ 2) ∧ bricks.FacesConform ∧
      (1, 3) ∈ bricks.edges ∧
      Even (bricks.boundaryFaces.countP fun b => [1, 3] ∈ bricks.edgesOf b.toFaceRef) := by
  have hdistinct : bowTie.CellsDistinct := by decide +kernel
  have howners : ∀ k, bowTie.owners.getD k 0 ≤ 2 := owners_le_iff.mpr (by decide +kernel)
  have hbricks := regular_bricks
  have howners' : ∀ k, bricks.owners.getD k 0 ≤ 2 := owners_le_iff.mpr (by decide +kernel)
  have hedge : (1, 3) ∈ bricks.edges := by decide +kernel
  obtain ⟨hplane, hspace⟩ := boundary_closed (K := Float)
  exact ⟨hdistinct, howners, hplane bowTie hdistinct howners 0, hbricks.distinct, howners',
    hbricks.conform rfl, hedge,
    hspace bricks hbricks.distinct howners' (hbricks.conform rfl) (1, 3) hedge⟩

end Mesh
end HexMesh
