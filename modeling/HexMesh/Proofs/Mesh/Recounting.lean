import HexMesh.Proofs.Mesh.Cell
import HexMesh.Proofs.Mesh.FaceKeys
import HexMesh.Proofs.Topology.Symmetry
import Mathlib.Data.List.Forall2

/-!
Cells that count their corners in another way.

A cell may count its corners along any symmetry of the cube.  Its faces then get other numbers
and list their corners in another order, and its edges may change their direction, but the keys
of both are the same.  So a mesh has the same boundary and the same edges in whatever order its
cells stand and however each of them counts its corners.
-/

namespace HexMesh

open HexMesh.Cube

namespace Cell

variable {d : Nat} {c c' : Cell d}

/-- An edge joins a corner to the corner next to it along some axis, and its key is the same
from both ends. -/
theorem mem_edgeKeys_iff_flip {c : Cell d} {k : Key} :
    k ∈ c.edgeKeys ↔ ∃ (v : Corner d) (a : Fin d),
      [min (c.get v) (c.get (v.flip a)), max (c.get v) (c.get (v.flip a))] = k := by
  rw [mem_edgeKeys]
  constructor
  · rintro ⟨v, a, hlow, rfl⟩
    exact ⟨v, a, by rw [Corner.raise_eq_flip hlow]⟩
  · rintro ⟨v, a, rfl⟩
    cases hv : v.high a with
    | false => exact ⟨v, a, hv, by rw [Corner.raise_eq_flip hv]⟩
    | true =>
      have hlow : (v.flip a).high a = false := by rw [Corner.high_flip_self, hv]; rfl
      refine ⟨v.flip a, a, hlow, ?_⟩
      rw [Corner.raise_eq_flip hlow, Corner.flip_flip, Nat.min_comm, Nat.max_comm]

/-- The second cell is the first one with its corners counted along a symmetry of the cube. -/
def Recounts (c c' : Cell d) : Prop :=
  ∃ s : Equiv.Perm (Corner d), IsSymmetry s ∧ ∀ v, c'.get v = c.get (s v)

namespace Recounts

theorem refl (c : Cell d) : c.Recounts c := ⟨.refl _, fun _ he => Or.inl he, fun _ => rfl⟩

theorem faceKeys_perm (h : c.Recounts c') : c'.faceKeys.Perm c.faceKeys := by
  obtain ⟨s, hs, hget⟩ := h
  obtain ⟨move, hmove, honFace⟩ := hs.exists_faces
  have hkey {face : Nat} (hface : face < faceCount d) :
      c'.faceKey face = c.faceKey (move face) := by
    have hcorners : (faceCorners d face).map c'.get = ((faceCorners d face).map s).map c.get := by
      rw [List.map_map]
      exact List.map_congr_left fun v _ => hget v
    rw [faceKey, faceKey, key, key, hcorners]
    exact Key.ofList_eq_ofList.mpr ((IsSymmetry.perm_faceCorners (honFace face hface)).map c.get)
  have hkeys : c'.faceKeys = ((List.range (faceCount d)).map move).map c.faceKey := by
    rw [List.map_map]
    exact List.map_congr_left fun face hface => hkey (List.mem_range.mp hface)
  rw [hkeys]
  exact hmove.map c.faceKey

theorem mem_edgeKeys (h : c.Recounts c') {k : Key} : k ∈ c'.edgeKeys ↔ k ∈ c.edgeKeys := by
  obtain ⟨s, hs, hget⟩ := h
  obtain ⟨axes, haxes⟩ := hs.exists_axes
  rw [mem_edgeKeys_iff_flip, mem_edgeKeys_iff_flip]
  refine s.exists_congr fun v => axes.exists_congr fun a => ?_
  rw [hget, hget, haxes]

end Recounts

/-- The cells of the second list are those of the first one in any order, and each of them may
count its corners along a symmetry of its own. -/
def Recounted (cs cs' : List (Cell d)) : Prop :=
  ∃ es : List (Cell d), es.Perm cs ∧ List.Forall₂ Recounts es cs'

namespace Recounted

variable {cs cs' : List (Cell d)}

theorem length_eq (h : Recounted cs cs') : cs'.length = cs.length := by
  obtain ⟨es, hperm, hcells⟩ := h
  rw [← hcells.length_eq, hperm.length_eq]

theorem faceKeys_perm (h : Recounted cs cs') :
    (cs'.flatMap faceKeys).Perm (cs.flatMap faceKeys) := by
  obtain ⟨es, hperm, hcells⟩ := h
  refine List.Perm.trans ?_ (hperm.flatMap_right faceKeys)
  clear hperm
  induction hcells with
  | nil => exact .refl _
  | cons hc _ ih =>
    rw [List.flatMap_cons, List.flatMap_cons]
    exact hc.faceKeys_perm.append ih

theorem mem_edgeKeys (h : Recounted cs cs') (k : Key) :
    k ∈ cs'.flatMap edgeKeys ↔ k ∈ cs.flatMap edgeKeys := by
  obtain ⟨es, hperm, hcells⟩ := h
  rw [← (hperm.flatMap_right edgeKeys).mem_iff]
  clear hperm
  induction hcells with
  | nil => exact Iff.rfl
  | cons hc _ ih =>
    rw [List.flatMap_cons, List.flatMap_cons, List.mem_append, List.mem_append]
    exact or_congr hc.mem_edgeKeys ih

end Recounted

end Cell

end HexMesh
