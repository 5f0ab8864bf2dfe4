import HexMesh.Proofs.Mesh.Exchange
import HexMesh.Proofs.Mesh.Relabeling
import HexMesh.Proofs.Msh.NodeTags

/-!
Nodes listed in another order.

The vertices of a mesh are numbered as their nodes are listed.  If node lines with different tags
are put in another order, each vertex follows its line (`movedVertex`), and everything that is
gathered behind these lines is gathered with the new numbers: the tags lead to them, cells and
faces consist of them.  So the same cells are turned over, since their corners lie where they did.
-/

namespace HexMesh

/-! ## Places in a rearranged list -/

/-- Where the entry at a place of a list stands after a rearrangement.  Places behind the list
stay as they are. -/
def movedPlace (texts texts' : List (List Char)) (i : Nat) : Nat :=
  match texts[i]? with
  | some text => texts'.idxOf text
  | none => i

/-- Vertices that are numbered from `first` on in the order of some lines follow their lines, and
all other vertices stay. -/
def movedVertex (first : Nat) (texts texts' : List (List Char)) (v : Nat) : Nat :=
  if v < first then v else first + movedPlace texts texts' (v - first)

section Places

variable {texts texts' : List (List Char)} {first : Nat}

theorem getElem?_movedPlace (hperm : texts'.Perm texts) (i : Nat) :
    texts'[movedPlace texts texts' i]? = texts[i]? := by
  unfold movedPlace
  cases htext : texts[i]? with
  | some text => exact List.getElem?_idxOf (hperm.mem_iff.mpr (List.mem_of_getElem? htext))
  | none =>
    rw [List.getElem?_eq_none_iff] at htext ⊢
    rwa [hperm.length_eq]

theorem movedPlace_of_le {i : Nat} (h : texts.length ≤ i) : movedPlace texts texts' i = i := by
  rw [movedPlace, List.getElem?_eq_none h]

theorem movedPlace_injective (hperm : texts'.Perm texts) (hnodup : texts.Nodup) :
    Function.Injective (movedPlace texts texts') := by
  intro i j h
  have hsame : texts[i]? = texts[j]? := by
    rw [← getElem?_movedPlace hperm i, h, getElem?_movedPlace hperm j]
  by_cases hi : i < texts.length
  · exact (List.getElem?_inj hi hnodup).mp hsame
  · have hj : texts.length ≤ j := by
      rw [← List.getElem?_eq_none_iff, ← hsame]
      exact List.getElem?_eq_none (by omega)
    rwa [movedPlace_of_le (by omega), movedPlace_of_le hj] at h

theorem movedVertex_of_lt {v : Nat} (h : v < first) : movedVertex first texts texts' v = v :=
  if_pos h

theorem movedVertex_add (i : Nat) :
    movedVertex first texts texts' (first + i) = first + movedPlace texts texts' i := by
  rw [movedVertex, if_neg (by omega), Nat.add_sub_cancel_left]

theorem movedVertex_injective (hperm : texts'.Perm texts) (hnodup : texts.Nodup) :
    Function.Injective (movedVertex first texts texts') := by
  intro v w h
  have hplace := @movedPlace_injective _ _ hperm hnodup (v - first) (w - first)
  unfold movedVertex at h
  split at h <;> split at h
  · exact h
  · omega
  · omega
  · have hsame := hplace (by omega)
    omega

end Places

/-! ## Indicators under other numbers -/

theorem renumberIndicators_ofEntries {f : Nat → Nat} (hf : Function.Injective f)
    (faces : List (List Nat × Indicator)) :
    Mesh.renumberIndicators f
        (KeyMap.ofEntries (faces.map fun x => (Key.ofList x.1, x.2))).toList =
      KeyMap.ofEntries (faces.map fun x => (Key.ofList (x.1.map f), x.2)) := by
  have hsorted : ∀ l ∈ KeyMap.ofEntries (faces.map fun x => (Key.ofList x.1, x.2)),
      l.Pairwise (· ≤ ·) := by
    refine KeyMap.forall_mem_ofEntries fun e he => ?_
    obtain ⟨x, -, rfl⟩ := List.mem_map.mp he
    exact Key.pairwise_ofList x.1
  refine Std.ExtTreeMap.ext_getElem? fun k => ?_
  by_cases hk : ∃ l : Key, l.Pairwise (· ≤ ·) ∧ Key.ofList (l.map f) = k
  · obtain ⟨l, hl, rfl⟩ := hk
    have hinj {l' : Key} (hl' : l'.Pairwise (· ≤ ·))
        (h : Key.ofList (l'.map f) = Key.ofList (l.map f)) : l' = l :=
      Key.ofList_map_inj (hf.injOn (s := Set.univ)) hl' hl (fun _ _ => Set.mem_univ _)
        (fun _ _ => Set.mem_univ _) h
    have hleft := KeyMap.getElem?_foldl_insert_toList (g := fun l => Key.ofList (l.map f))
      (t := ∅) Std.ExtTreeMap.getElem?_empty fun l' hl' => hinj (hsorted l' hl')
    refine hleft.trans ?_
    rw [KeyMap.getElem?_ofEntries_map, KeyMap.getElem?_ofEntries_map]
    refine congrArg (fun xs => Option.map _ (List.getLast? xs)) (List.filter_congr fun x _ => ?_)
    refine decide_eq_decide.mpr ⟨?_, fun h => hinj (Key.pairwise_ofList x.1) ?_⟩
    · rintro rfl
      exact (Key.ofList_map_ofList f x.1).symm
    · rw [Key.ofList_map_ofList, h]
  · -- Every key of either map is the new name of a key.
    have hnone {entries : List (Key × Indicator)}
        (h : ∀ e ∈ entries, ∃ l : Key, l.Pairwise (· ≤ ·) ∧ Key.ofList (l.map f) = e.1) :
        (KeyMap.ofEntries entries)[k]? = none :=
      Std.ExtTreeMap.getElem?_eq_none fun hmem => hk (KeyMap.forall_mem_ofEntries
        (p := fun k => ∃ l : Key, l.Pairwise (· ≤ ·) ∧ Key.ofList (l.map f) = k) h k hmem)
    rw [Mesh.renumberIndicators, hnone, hnone]
    · intro e he
      obtain ⟨x, -, rfl⟩ := List.mem_map.mp he
      exact ⟨Key.ofList x.1, Key.pairwise_ofList x.1, Key.ofList_map_ofList f x.1⟩
    · intro e he
      obtain ⟨⟨l, i⟩, hl, rfl⟩ := List.mem_map.mp he
      refine ⟨l, hsorted l ?_, rfl⟩
      rw [Std.ExtTreeMap.mem_iff_isSome_getElem?,
        Std.ExtTreeMap.mem_toList_iff_getElem?_eq_some.mp hl]
      rfl

namespace Msh

variable {K : Type} {d : Nat} {vertex : Nat → Nat}

/-! ## Readers with other vertex numbers -/

namespace Gathered

variable {g g' g₁ : Gathered K d}

/-- The same was gathered under other vertex numbers. -/
structure Renumbers (vertex : Nat → Nat) (g g' : Gathered K d) : Prop where
  size : g'.vertices.size = g.vertices.size
  position : ∀ v : Nat, g'.vertices[vertex v]? = g.vertices[v]?
  /-- The next vertices will have the same numbers. -/
  fixed : ∀ v, g.vertices.size ≤ v → vertex v = v
  vertexOfTag : ∀ t : Nat, g'.vertexOfTag[t]? = (g.vertexOfTag[t]?).map vertex
  cells : g'.cells = g.cells.map (·.map vertex)
  faces : g'.faces = g.faces.map fun f => (f.1.map vertex, f.2)

theorem indifferent_renumbers : Indifferent (Renumbers (K := K) (d := d) vertex) :=
  fun _ _ _ _ _ _ h => ⟨h.size, h.position, h.fixed, h.vertexOfTag, h.cells, h.faces⟩

theorem Renumbers.eq_size_iff (h : g.Renumbers vertex g') (v : Nat) :
    vertex v = g.vertices.size ↔ v = g.vertices.size := by
  constructor
  · intro hv
    by_contra hne
    have hposition := h.position v
    rw [hv, ← h.size, Array.getElem?_eq_none (Nat.le_refl _)] at hposition
    have hsize := Array.getElem?_eq_none_iff.mp hposition.symm
    exact hne ((h.fixed v hsize).symm.trans hv)
  · rintro rfl
    exact h.fixed _ (Nat.le_refl _)

theorem Renumbers.addNode (h : g.Renumbers vertex g') (t : Nat) (p : Point K d) :
    (g.addNode t p).Renumbers vertex (g'.addNode t p) where
  size := by
    simp [Gathered.addNode, h.size]
  position v := by
    rw [Gathered.addNode, Gathered.addNode, Array.getElem?_push, Array.getElem?_push, h.size,
      h.position]
    simp only [h.eq_size_iff]
  fixed v hv := by
    simp only [Gathered.addNode, Array.size_push] at hv
    exact h.fixed v (by omega)
  vertexOfTag s := by
    rw [Gathered.addNode, Gathered.addNode, Std.ExtTreeMap.getElem?_insert,
      Std.ExtTreeMap.getElem?_insert, h.vertexOfTag, h.size]
    split
    · rw [Option.map_some, h.fixed _ (Nat.le_refl _)]
    · rfl
  cells := h.cells
  faces := h.faces

theorem Renumbers.found (h : g.Renumbers vertex g') {tags vs : List Nat}
    (found : tags.map (g.vertexOfTag[·]?) = vs.map some) :
    tags.map (g'.vertexOfTag[·]?) = (vs.map vertex).map some := by
  have hmap := congrArg (List.map (Option.map vertex)) found
  rw [List.map_map, List.map_map] at hmap
  rw [List.map_map]
  exact (List.map_congr_left fun t _ => h.vertexOfTag t).trans hmap

theorem Renumbers.addElement (h : g.Renumbers vertex g') {e : Element}
    (hadd : g.addElement e = .ok g₁) :
    ∃ g₁', g'.addElement e = .ok g₁' ∧ g₁.Renumbers vertex g₁' := by
  cases addElement_eq_ok_iff.mp hadd with
  | @cell vs isCell count found =>
    refine ⟨_, addElement_eq_ok_iff.mpr (.cell isCell count (h.found found)),
      h.size, h.position, h.fixed, h.vertexOfTag, ?_, h.faces⟩
    have hcell : (Cell.ofFn fun v : Cube.Corner d => (vs.map vertex).getD (nodePlace v) 0) =
        (Cell.ofFn fun v : Cube.Corner d => vs.getD (nodePlace v) 0).map vertex := by
      refine Cell.ext_get fun v => ?_
      have hplace : nodePlace v < vs.length := by
        rw [length_found found, count]
        exact nodePlace_lt v
      rw [Cell.get_map, Cell.get_ofFn, Cell.get_ofFn, List.getD_eq_getElem?_getD,
        List.getD_eq_getElem?_getD, List.getElem?_map, List.getElem?_eq_getElem hplace]
      rfl
    simp only [h.cells, hcell, Array.map_push]
  | face noCell isFace count small found =>
    refine ⟨_, addElement_eq_ok_iff.mpr (.face noCell isFace count small (h.found found)),
      h.size, h.position, h.fixed, h.vertexOfTag, h.cells, ?_⟩
    simp only [h.faces, Array.map_push]
  | other noCell noFace => exact ⟨g', addElement_eq_ok_iff.mpr (.other noCell noFace), h⟩

variable [Numeral K] {text : List Char}

theorem Renumbers.take (h : g.Renumbers vertex g') {c : Counted} (htake : c.take g text = .ok g₁) :
    ∃ g₁', c.take g' text = .ok g₁' ∧ g₁.Renumbers vertex g₁' := by
  cases c with
  | nodes =>
    obtain ⟨t, p, hnode, rfl⟩ := Counted.take_nodes_eq_ok_iff.mp htake
    exact ⟨g'.addNode t p, Counted.take_nodes_eq_ok_iff.mpr ⟨t, p, hnode, rfl⟩, h.addNode t p⟩
  | elements =>
    obtain ⟨e, he, hadd⟩ := Counted.take_elements_eq_ok_iff.mp htake
    obtain ⟨g₁', hadd', hrenumbers⟩ := h.addElement hadd
    exact ⟨g₁', Counted.take_elements_eq_ok_iff.mpr ⟨e, he, hadd'⟩, hrenumbers⟩

variable [Scalar K]

theorem Renumbers.readLine (h : Beside (Renumbers vertex) g g') (hread : g.readLine text = .ok g₁) :
    ∃ g₁', g'.readLine text = .ok g₁' ∧ Beside (Renumbers vertex) g₁ g₁' := by
  cases hentry : g.mode.isEntry with
  | false => exact h.readLine indifferent_renumbers hentry hread
  | true =>
    obtain ⟨c, more, hmode⟩ := Counted.exists_entryMode hentry
    exact h.readLine_entry indifferent_renumbers hmode hread fun _ => h.data.take

theorem Renumbers.after? {lines : List Line} (h : Beside (Renumbers vertex) g g')
    (hread : g.after? lines = some g₁) :
    ∃ g₁', g'.after? lines = some g₁' ∧ Beside (Renumbers vertex) g₁ g₁' :=
  after?_keeps (R := fun _ => Beside (Renumbers vertex)) rfl h
    (fun n g g' g₁ text hline hR hread => by
      obtain ⟨g₁', hread', hR'⟩ := Renumbers.readLine hR hread
      exact ⟨text, g₁', hline, hread', hR'⟩) hread

omit [Numeral K] in
theorem Renumbers.oriented (h : g.Renumbers vertex g') (c : Cell d) :
    Gathered.oriented g'.vertices (c.map vertex) = (Gathered.oriented g.vertices c).map vertex := by
  have hposition (v : Nat) : Mesh.position (K := K) { vertices := g'.vertices } (vertex v) =
      Mesh.position (d := d) { vertices := g.vertices } v :=
    congrArg (Option.getD · Point.origin) (h.position v)
  have hcorners : Mesh.cornerPoints (K := K) { vertices := g'.vertices } (c.map vertex) =
      Mesh.cornerPoints { vertices := g.vertices } c := by
    rw [Mesh.cornerPoints, Mesh.cornerPoints, Vector.map_map]
    exact Vector.map_congr_left fun v _ => hposition v
  simp only [Gathered.oriented, hcorners]
  split
  · refine Cell.ext_get fun v => ?_
    rw [Cell.get_map, Cell.get_ofFn, Cell.get_ofFn, Cell.get_map]
  · rfl

omit [Numeral K] in
theorem Renumbers.mesh_eq (hvertex : Function.Injective vertex) (h : g.Renumbers vertex g') :
    g'.mesh = g.mesh.renumber g'.mesh.vertices vertex := by
  have hcells : g'.cells.toList.map (Gathered.oriented g'.vertices) =
      (g.cells.toList.map (Gathered.oriented g.vertices)).map (·.map vertex) := by
    rw [h.cells, Array.toList_map, List.map_map, List.map_map]
    exact List.map_congr_left fun c _ => h.oriented c
  have hindicators : KeyMap.ofEntries (g'.faces.toList.map fun f => (Key.ofList f.1, f.2)) =
      Mesh.renumberIndicators vertex
        (KeyMap.ofEntries (g.faces.toList.map fun f => (Key.ofList f.1, f.2))).toList := by
    rw [renumberIndicators_ofEntries hvertex, h.faces, Array.toList_map, List.map_map]
    rfl
  rw [Gathered.mesh_eq, Gathered.mesh_eq, Mesh.renumber, hcells, hindicators]

end Gathered
end Msh
end HexMesh
