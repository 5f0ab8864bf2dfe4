import HexMesh.Proofs.Number.Rational
import HexMesh.Proofs.Msh.NodeOrder
import Mathlib.Data.List.Perm.Basic
import Mathlib.Tactic.IntervalCases

/-!
Neither the tags of the nodes nor their order tells on the mesh.

A run of node lines pushes its points and points its tags to them.  If the tags are different, the
lines may stand in any order: each tag leads to the vertex of its own line, which has moved with the
line.  Together with other tags (`read_retagged`) this is `read_nodes`.
-/

namespace HexMesh
namespace Msh

variable {K : Type} {d : Nat}

/-- The tag on the line of a node. -/
def nodeTag? (text : List Char) : Option Nat := (fields text).head?.bind (readNat? wordBound)

/-- Two files with the same lines, except that nodes with different tags on consecutive lines are
listed in another order.  Before these lines `g` was gathered. -/
structure Reordered [Scalar K] [Numeral K] (lines lines' : List Line) (g : Gathered K d)
    (texts texts' : List (List Char)) : Prop where
  around : ∃ before after, scan d before = .ok g ∧ lines = before ++ (texts.map some ++ after) ∧
    lines' = before ++ (texts'.map some ++ after)
  nodes : ∃ more, g.mode = .node more ∧ texts.length ≤ more + 1
  perm : texts'.Perm texts
  distinct : (texts.map nodeTag?).Nodup

/-! ## Runs of node lines -/

theorem exists_map_ok {ε α : Type} {xs : List (Except ε α)} (h : ∀ x ∈ xs, ∃ a, x = .ok a) :
    ∃ as : List α, xs = as.map .ok := by
  induction xs with
  | nil => exact ⟨[], rfl⟩
  | cons x rest ih =>
    obtain ⟨⟨a, rfl⟩, hrest⟩ := List.forall_mem_cons.mp h
    obtain ⟨as, rfl⟩ := ih hrest
    exact ⟨a :: as, rfl⟩

theorem nodeTag?_of_readNode [Numeral K] {text : List Char} {node : Nat × Point K d}
    (h : readNode text = .ok node) : nodeTag? text = some node.1 := by
  obtain ⟨tag, coordinates, hfields, -, htag, -⟩ := readNode_eq_ok_iff.mp h
  rw [nodeTag?, hfields]
  exact htag

namespace Gathered

def addAll (g : Gathered K d) (nodes : List (Nat × Point K d)) : Gathered K d :=
  nodes.foldl (fun g n => g.addNode n.1 n.2) g

theorem addAll_eq (g : Gathered K d) (nodes : List (Nat × Point K d)) :
    g.addAll nodes =
      { g with
        vertices := g.vertices ++ (nodes.map Prod.snd).toArray
        vertexOfTag := (g.addAll nodes).vertexOfTag } := by
  induction nodes generalizing g with
  | nil => simp [addAll]
  | cons n rest ih =>
    have hcons : g.addAll (n :: rest) = (g.addNode n.1 n.2).addAll rest := rfl
    rw [hcons, ih]
    simp [addNode]

/-- Of nodes with different tags each tag leads to its own one. -/
theorem getElem?_vertexOfTag_addAll (g : Gathered K d) {nodes : List (Nat × Point K d)}
    (h : (nodes.map Prod.fst).Nodup) (t : Nat) :
    (g.addAll nodes).vertexOfTag[t]? =
      if t ∈ nodes.map Prod.fst then some (g.vertices.size + (nodes.map Prod.fst).idxOf t)
      else g.vertexOfTag[t]? := by
  induction nodes generalizing g with
  | nil => simp [addAll]
  | cons n rest ih =>
    rw [List.map_cons, List.nodup_cons] at h
    have hcons : g.addAll (n :: rest) = (g.addNode n.1 n.2).addAll rest := rfl
    have hinsert : (g.addNode n.1 n.2).vertexOfTag[t]? =
        if n.1 = t then some g.vertices.size else g.vertexOfTag[t]? := by
      rw [addNode, Std.ExtTreeMap.getElem?_insert]
      simp only [Std.LawfulEqOrd.compare_eq_iff_eq]
    have hsize : (g.addNode n.1 n.2).vertices.size = g.vertices.size + 1 := Array.size_push _
    rw [hcons, ih _ h.2, hinsert, hsize, List.map_cons]
    by_cases htag : n.1 = t
    · subst htag
      simp [h.1]
    · simp only [List.mem_cons, Ne.symm htag, false_or, htag, if_false,
        List.idxOf_cons_ne _ htag]
      split
      · congr 1
        omega
      · rfl

theorem takeAll_nodes_eq_ok_iff [Numeral K] {g g₁ : Gathered K d} {texts : List (List Char)} :
    Counted.nodes.takeAll g texts = .ok g₁ ↔
      ∃ nodes, texts.map readNode = nodes.map .ok ∧ g₁ = g.addAll nodes := by
  induction texts generalizing g with
  | nil =>
    constructor
    · intro h
      cases h
      exact ⟨[], rfl, rfl⟩
    · intro h
      obtain ⟨nodes, hnodes, rfl⟩ := h
      rw [List.map_eq_nil_iff.mp hnodes.symm]
      rfl
  | cons text rest ih =>
    rw [Counted.takeAll, List.foldlM_cons, bind_eq_ok_iff]
    constructor
    · intro h
      obtain ⟨g₂, htake, hrest⟩ := h
      obtain ⟨t, p, hnode, rfl⟩ := Counted.take_nodes_eq_ok_iff.mp htake
      obtain ⟨nodes, hnodes, rfl⟩ := ih.mp hrest
      exact ⟨(t, p) :: nodes, by rw [List.map_cons, List.map_cons, hnode, hnodes], rfl⟩
    · intro h
      obtain ⟨nodes, hnodes, rfl⟩ := h
      cases nodes with
      | nil => cases hnodes
      | cons node nodes =>
        obtain ⟨hnode, hnodes⟩ := List.cons.inj hnodes
        exact ⟨g.addNode node.1 node.2, Counted.take_nodes_eq_ok_iff.mpr ⟨_, _, hnode, rfl⟩,
          ih.mpr ⟨nodes, hnodes, rfl⟩⟩

/-! ## The same nodes in two orders -/

/-- Nodes and the lines that they are on, in two orders. -/
structure Shuffled [Numeral K] (texts texts' : List (List Char))
    (nodes nodes' : List (Nat × Point K d)) : Prop where
  read : texts.map readNode = nodes.map .ok
  read' : texts'.map readNode = nodes'.map .ok
  perm : texts'.Perm texts
  distinct : (texts.map nodeTag?).Nodup

section Shuffled

variable [Numeral K] {texts texts' : List (List Char)} {nodes nodes' : List (Nat × Point K d)}

theorem Shuffled.nodes_perm (h : Shuffled texts texts' nodes nodes') : nodes'.Perm nodes := by
  have hperm := h.perm.map (readNode (K := K) (d := d))
  rw [h.read, h.read'] at hperm
  exact (List.map_perm_map_iff fun _ _ => Except.ok.inj).mp hperm

theorem Shuffled.getElem? (h : Shuffled texts texts' nodes nodes') (i : Nat) :
    nodes'[movedPlace texts texts' i]? = nodes[i]? := by
  have hlines := congrArg (Option.map (readNode (K := K) (d := d))) (getElem?_movedPlace h.perm i)
  rw [← List.getElem?_map, ← List.getElem?_map, h.read, h.read', List.getElem?_map,
    List.getElem?_map] at hlines
  exact Option.map_injective (fun _ _ => Except.ok.inj) hlines

theorem Shuffled.nodup_tags (h : Shuffled texts texts' nodes nodes') :
    (nodes.map Prod.fst).Nodup := by
  have htags : texts.map nodeTag? = (nodes.map Prod.fst).map some := by
    refine List.ext_getElem? fun i => ?_
    have hline := congrArg (·[i]?) h.read
    simp only [List.getElem?_map] at hline ⊢
    cases htext : texts[i]? with
    | none =>
      rw [htext] at hline
      rw [Option.map_eq_none_iff.mp hline.symm]
      rfl
    | some text =>
      rw [htext, Option.map_some, eq_comm, Option.map_eq_some_iff] at hline
      obtain ⟨node, hnode, hread⟩ := hline
      rw [hnode, Option.map_some, nodeTag?_of_readNode hread.symm]
      rfl
  exact List.Nodup.of_map some (htags ▸ h.distinct)

theorem Shuffled.idxOf_tag (h : Shuffled texts texts' nodes nodes') {t : Nat}
    (ht : t ∈ nodes.map Prod.fst) :
    (nodes'.map Prod.fst).idxOf t =
      movedPlace texts texts' ((nodes.map Prod.fst).idxOf t) := by
  have hnodup : (nodes'.map Prod.fst).Nodup :=
    (h.nodes_perm.map Prod.fst).nodup_iff.mpr h.nodup_tags
  have hplace : (nodes'.map Prod.fst)[movedPlace texts texts' ((nodes.map Prod.fst).idxOf t)]? =
      some t := by
    rw [List.getElem?_map, h.getElem?, ← List.getElem?_map]
    exact List.getElem?_idxOf ht
  obtain ⟨hlt, htag⟩ := List.getElem?_eq_some_iff.mp hplace
  have hidx := hnodup.idxOf_getElem _ hlt
  rwa [htag] at hidx

theorem Shuffled.renumbers (h : Shuffled texts texts' nodes nodes') {g : Gathered K d}
    (hg : g.Valid) :
    (g.addAll nodes).Renumbers (movedVertex g.vertices.size texts texts') (g.addAll nodes') := by
  have hlength : nodes'.length = nodes.length := h.nodes_perm.length_eq
  have htexts : texts.length = nodes.length := by simpa using congrArg List.length h.read
  have hold {v : Nat} (hv : v < g.vertices.size) : movedVertex g.vertices.size texts texts' v = v :=
    movedVertex_of_lt hv
  refine ⟨?size, fun v => ?position, fun v hv => ?fixed, fun t => ?vertexOfTag, ?cells, ?faces⟩
  case size =>
    rw [addAll_eq, addAll_eq g nodes]
    simp [hlength]
  case position =>
    rw [addAll_eq, addAll_eq g nodes]
    rcases Nat.lt_or_ge v g.vertices.size with hv | hv
    · rw [hold hv, Array.getElem?_append_left hv, Array.getElem?_append_left hv]
    · obtain ⟨i, rfl⟩ := Nat.exists_eq_add_of_le hv
      rw [movedVertex_add, Array.getElem?_append_right (Nat.le_add_right _ _),
        Array.getElem?_append_right hv, Nat.add_sub_cancel_left, Nat.add_sub_cancel_left]
      simp only [List.getElem?_toArray, List.getElem?_map, h.getElem?]
  case fixed =>
    rw [addAll_eq] at hv
    simp only [Array.size_append, List.size_toArray, List.length_map] at hv
    obtain ⟨i, rfl⟩ := Nat.exists_eq_add_of_le (Nat.le_trans (Nat.le_add_right _ _) hv)
    rw [movedVertex_add, movedPlace_of_le (by omega)]
  case vertexOfTag =>
    rw [getElem?_vertexOfTag_addAll g h.nodup_tags, getElem?_vertexOfTag_addAll g
      ((h.nodes_perm.map Prod.fst).nodup_iff.mpr h.nodup_tags)]
    simp only [(h.nodes_perm.map Prod.fst).mem_iff]
    split
    next ht => rw [h.idxOf_tag ht, Option.map_some, movedVertex_add]
    next =>
      -- Tags that were read before lead to vertices that stay.
      cases hv : g.vertexOfTag[t]? with
      | none => rfl
      | some v => rw [Option.map_some, hold (hg.tag_lt hv)]
  case cells =>
    rw [addAll_eq, addAll_eq g nodes]
    refine Array.ext_getElem? fun i => ?_
    rw [Array.getElem?_map]
    cases hc : g.cells[i]? with
    | none => rfl
    | some c =>
      have hlt := hg.cell_lt c (Array.mem_of_getElem? hc)
      refine congrArg some (Cell.ext_get fun v => ?_)
      rw [Cell.get_map, hold (hlt _ (c.get_mem v))]
  case faces =>
    rw [addAll_eq, addAll_eq g nodes]
    refine Array.ext_getElem? fun i => ?_
    rw [Array.getElem?_map]
    cases hf : g.faces[i]? with
    | none => rfl
    | some face =>
      have hlt := hg.face_lt face (Array.mem_of_getElem? hf)
      refine congrArg some (Prod.ext ?_ rfl)
      exact ((List.map_congr_left fun v hv => hold (hlt v hv)).trans (List.map_id _)).symm

end Shuffled

end Gathered

/-! ## Whole files -/

open Gathered

variable [Scalar K] [Numeral K] {g g₁ : Gathered K d} {texts texts' : List (List Char)}

theorem Reordered.nodup_texts {lines lines' : List Line}
    (h : Reordered lines lines' g texts texts') : texts.Nodup :=
  List.Nodup.of_map nodeTag? h.distinct

theorem Reordered.after? {lines lines' : List Line} (h : Reordered lines lines' g texts texts')
    (hread : ({} : Gathered K d).after? lines = some g₁) :
    ∃ g₁', ({} : Gathered K d).after? lines' = some g₁' ∧
      Beside (Renumbers (movedVertex g.vertices.size texts texts')) g₁ g₁' := by
  obtain ⟨before, after, hbefore, rfl, rfl⟩ := h.around
  obtain ⟨more, hmode, hfit⟩ := h.nodes
  have hfit' : texts'.length ≤ more + 1 := h.perm.length_eq ▸ hfit
  have hleft : g = Counted.nodes.left g (more + 1) := by
    rw [Counted.left_succ, Counted.entryMode, ← hmode]
  rw [Gathered.after?_append, scan_eq_ok_iff.mp hbefore, Option.bind_some] at hread ⊢
  rw [hleft, Gathered.after?_append, Counted.after?_entries _ _ hfit,
    Option.bind_eq_some_iff] at hread
  obtain ⟨g₂, hblock, hafter⟩ := hread
  obtain ⟨g₃, htaken, rfl⟩ := Option.map_eq_some_iff.mp hblock
  obtain ⟨nodes, hnodes, rfl⟩ := takeAll_nodes_eq_ok_iff.mp (toOption_eq_some_iff.mp htaken)
  obtain ⟨nodes', hnodes'⟩ : ∃ nodes' : List (Nat × Point K d),
      texts'.map readNode = nodes'.map .ok := by
    refine exists_map_ok fun x hx => ?_
    rw [(h.perm.map (readNode (K := K) (d := d))).mem_iff, hnodes] at hx
    obtain ⟨node, -, rfl⟩ := List.mem_map.mp hx
    exact ⟨node, rfl⟩
  have htaken' : Counted.nodes.takeAll g texts' = .ok (g.addAll nodes') :=
    takeAll_nodes_eq_ok_iff.mpr ⟨nodes', hnodes', rfl⟩
  have hshuffled : Shuffled texts texts' nodes nodes' := ⟨hnodes, hnodes', h.perm, h.distinct⟩
  have hvalid : g.Valid := (scan_valid hbefore).1
  obtain ⟨mode, hmode'⟩ := Counted.nodes.exists_left_eq K d (more + 1 - texts.length)
  have hbeside : Beside (Renumbers (movedVertex g.vertices.size texts texts'))
      (Counted.nodes.left (g.addAll nodes) (more + 1 - texts.length))
      (Counted.nodes.left (g.addAll nodes') (more + 1 - texts.length)) := by
    rw [hmode', hmode']
    refine ⟨rfl, ?_, indifferent_renumbers _ _ _ _ _ _ (hshuffled.renumbers hvalid)⟩
    rw [addAll_eq, addAll_eq g nodes]
  obtain ⟨g₁', hafter', hend⟩ := Renumbers.after? hbeside hafter
  refine ⟨g₁', ?_, hend⟩
  rw [hleft, Gathered.after?_append, Counted.after?_entries _ _ hfit', htaken', h.perm.length_eq]
  exact hafter'

theorem read_reordered {bytes bytes' : List UInt8} {m : Mesh K d} (hread : read d bytes = .ok m)
    (h : Reordered (Line.ofBytes bytes) (Line.ofBytes bytes') g texts texts') :
    ∃ m', read d bytes' = .ok m' ∧ m'.vertices.size = m.vertices.size ∧
      (∀ v, m'.vertices[movedVertex g.vertices.size texts texts' v]? = m.vertices[v]?) ∧
      m' = m.renumber m'.vertices (movedVertex g.vertices.size texts texts') := by
  have hd := dimension_of_read hread
  obtain ⟨g₁, hscan, hcomplete, rfl⟩ := (read_eq_ok_iff hd).mp hread
  obtain ⟨g₁', hscan', hbeside⟩ := h.after? hscan
  have hvertices (g : Gathered K d) : g.mesh.vertices = g.vertices := by rw [Gathered.mesh_eq]
  have hcells : g₁'.cells.isEmpty = false := by
    rw [hbeside.data.cells, ← hcomplete.cells]
    simp only [Array.isEmpty, Array.size_map]
  refine ⟨g₁'.mesh, read_of_complete hd hscan' (hbeside.complete hcomplete hcells), ?_,
    fun v => ?_, ?_⟩
  · rw [hvertices, hvertices, hbeside.data.size]
  · rw [hvertices, hvertices, hbeside.data.position]
  · exact hbeside.data.mesh_eq (movedVertex_injective h.perm h.nodup_texts)

/-- The tags of the nodes may be exchanged for others, and nodes with different tags may be listed
in any order.  In the first case the mesh is the same; in the second one its vertices are
renumbered as their lines were moved, and the cells, each with its corners in their order, and the
indicators are the same under the new numbers. -/
theorem read_nodes {bytes : List UInt8} {m : Mesh K d} (hread : read d bytes = .ok m) :
    (∀ (f : UInt64 → UInt64) (bytes' : List UInt8), Function.Injective f →
      Retagged K d f (Line.ofBytes bytes) (Line.ofBytes bytes') → read d bytes' = .ok m) ∧
    (∀ (g : Gathered K d) (texts texts' : List (List Char)) (bytes' : List UInt8),
      Reordered (Line.ofBytes bytes) (Line.ofBytes bytes') g texts texts' →
      Function.Injective (movedVertex g.vertices.size texts texts') ∧
      ∃ m', read d bytes' = .ok m' ∧ m'.vertices.size = m.vertices.size ∧
        (∀ v, m'.vertices[movedVertex g.vertices.size texts texts' v]? = m.vertices[v]?) ∧
        m' = m.renumber m'.vertices (movedVertex g.vertices.size texts texts') ∧
        ∀ k : Key, k.Pairwise (· ≤ ·) →
          m'.indicators[Key.ofList (k.map (movedVertex g.vertices.size texts texts'))]? =
            m.indicators[k]?) := by
  refine ⟨fun f bytes' hf h => read_retagged hf hread h, fun g texts texts' bytes' h => ?_⟩
  have hinjective : Function.Injective (movedVertex g.vertices.size texts texts') :=
    movedVertex_injective h.perm h.nodup_texts
  obtain ⟨m', hread', hsize, hposition, hmesh⟩ := read_reordered hread h
  refine ⟨hinjective, m', hread', hsize, hposition, hmesh, fun k hk => ?_⟩
  obtain ⟨g₁, hscan, -, rfl⟩ := (read_eq_ok_iff (dimension_of_read hread)).mp hread
  have hsorted := (scan_valid (scan_eq_ok_iff.mpr hscan)).1.wellFormed_mesh.key_sorted
  rw [hmesh]
  exact KeyMap.getElem?_foldl_insert_toList (g := fun l => Key.ofList (l.map _))
    Std.ExtTreeMap.getElem?_empty fun l hl hsame => Key.ofList_map_inj
      (hinjective.injOn (s := Set.univ)) (hsorted l hl) hk (fun _ _ => Set.mem_univ _)
      (fun _ _ => Set.mem_univ _) hsame

/-- A file of one square with given lines for its four nodes and for the cell. -/
def taggedFile (nodes : List String) (cell : String) : List (List Char) :=
  (["$MeshFormat", "2.1 0 8", "$EndMeshFormat", "$Nodes", "4"] ++ nodes ++
    ["$EndNodes", "$Elements", "1", cell, "$EndElements"]).map String.toList

theorem retagged_taggedFile :
    Retagged ℚ 2 (· + 10)
      ((taggedFile ["1 0 0 0", "2 5 0 0", "3 5 5 0", "4 0 5 0"] "6 3 1 2 1 2 3 4").map some)
      ((taggedFile ["11 0 0 0", "12 5 0 0", "13 5 5 0", "14 0 5 0"]
        "6 3 1 2 11 12 13 14").map some) := by
  have hmodes : (List.range 14).map (fun n => (scan (K := ℚ) 2
      (((taggedFile ["1 0 0 0", "2 5 0 0", "3 5 5 0", "4 0 5 0"] "6 3 1 2 1 2 3 4").map
        some).take n)).toOption.map Gathered.mode) =
      [some .outside, some .format, some (.closing Gathered.formatMarker), some .outside,
        some .nodeCount, some (.node 3), some (.node 2), some (.node 1), some (.node 0),
        some (.closing "$EndNodes".toList), some .outside, some .elementCount,
        some (.element 0), some (.closing "$EndElements".toList)] := by decide +kernel
  refine ⟨by decide, fun n g text hg hline => ?_⟩
  have hn : n < 14 := (List.getElem?_eq_some_iff.mp hline).1
  have hmode := congrArg (·[n]?) hmodes
  rw [List.getElem?_map, List.getElem?_range hn, Option.map_some, hg] at hmode
  change some (some g.mode) = _ at hmode
  generalize g.mode = mode at hmode ⊢
  -- Only the lines of the nodes and of the cell differ.
  have hnode {more : Nat} {t : UInt64} {text text' : List Char}
      (h : fields text = Nat.toDigits 10 t.toNat :: (fields text').tail)
      (h' : fields text' = Nat.toDigits 10 (t + 10).toNat :: (fields text').tail) :
      RetaggedLine (· + 10) (.node more) text text' :=
    .node h h' (readNat?_toDigits t.toNat_lt) (readNat?_toDigits (t + 10).toNat_lt)
  interval_cases n <;> cases hline <;> cases hmode <;> refine ⟨_, rfl, ?_⟩
  any_goals exact .same rfl
  · exact hnode (t := 1) (by decide) (by decide)
  · exact hnode (t := 2) (by decide) (by decide)
  · exact hnode (t := 3) (by decide) (by decide)
  · exact hnode (t := 4) (by decide) (by decide)
  · exact @RetaggedLine.element _ 0 6 3 _ _ [2] [1, 2, 3, 4] (by decide) (by decide)

theorem reordered_taggedFile : ∃ g : Gathered ℚ 2, g.vertices.size = 0 ∧
    Reordered
      ((taggedFile ["1 0 0 0", "2 5 0 0", "3 5 5 0", "4 0 5 0"] "6 3 1 2 1 2 3 4").map some)
      ((taggedFile ["3 5 5 0", "1 0 0 0", "4 0 5 0", "2 5 0 0"] "6 3 1 2 1 2 3 4").map some) g
      (["1 0 0 0", "2 5 0 0", "3 5 5 0", "4 0 5 0"].map String.toList)
      (["3 5 5 0", "1 0 0 0", "4 0 5 0", "2 5 0 0"].map String.toList) := by
  have hbefore : (scan (K := ℚ) 2 (["$MeshFormat", "2.1 0 8", "$EndMeshFormat", "$Nodes",
      "4"].map fun line => some line.toList)).toOption.map (fun g => (g.mode, g.vertices.size)) =
        some (.node 3, 0) := by decide +kernel
  obtain ⟨g, hscan, hg⟩ := Option.map_eq_some_iff.mp hbefore
  obtain ⟨hmode, hsize⟩ := Prod.mk.inj hg
  refine ⟨g, hsize, ⟨_, ["$EndNodes", "$Elements", "1", "6 3 1 2 1 2 3 4", "$EndElements"].map
    fun line => some line.toList, toOption_eq_some_iff.mp hscan, rfl, rfl⟩, ⟨3, hmode, by decide⟩,
    by decide, by decide +kernel⟩

theorem read_nodes_square : ∃ m m' : Mesh ℚ 2,
    read 2 (Line.toBytes (taggedFile ["1 0 0 0", "2 5 0 0", "3 5 5 0", "4 0 5 0"]
      "6 3 1 2 1 2 3 4")) = .ok m ∧
    read 2 (Line.toBytes (taggedFile ["11 0 0 0", "12 5 0 0", "13 5 5 0", "14 0 5 0"]
      "6 3 1 2 11 12 13 14")) = .ok m ∧
    read 2 (Line.toBytes (taggedFile ["3 5 5 0", "1 0 0 0", "4 0 5 0", "2 5 0 0"]
      "6 3 1 2 1 2 3 4")) = .ok m' ∧
    m.cells.map Vector.toList = [[0, 1, 3, 2]] ∧ m'.cells.map Vector.toList = [[1, 3, 2, 0]] := by
  have hlines {nodes : List String} {cell : String}
      (h : ∀ line ∈ taggedFile nodes cell, Line.Unbroken line) :
      Line.ofBytes (Line.toBytes (taggedFile nodes cell)) = (taggedFile nodes cell).map some :=
    Line.ofBytes_toBytes h
  have hcells : (read (K := ℚ) 2 (Line.toBytes (taggedFile ["1 0 0 0", "2 5 0 0", "3 5 5 0",
      "4 0 5 0"] "6 3 1 2 1 2 3 4"))).toOption.map (fun m => m.cells.map Vector.toList) =
        some [[0, 1, 3, 2]] := by
    rw [read, hlines (by decide)]
    decide +kernel
  obtain ⟨m, hread, hcells⟩ := Option.map_eq_some_iff.mp hcells
  obtain ⟨htags, horder⟩ := read_nodes (toOption_eq_some_iff.mp hread)
  obtain ⟨g, hsize, hreordered⟩ := reordered_taggedFile
  rw [← hlines (by decide), ← hlines (by decide)] at hreordered
  obtain ⟨-, m', hread', -, -, hmesh, -⟩ := horder g _ _ _ hreordered
  have hretagged := retagged_taggedFile
  rw [← hlines (by decide), ← hlines (by decide)] at hretagged
  refine ⟨m, m', toOption_eq_some_iff.mp hread, htags _ _ ?_ hretagged, hread', hcells, ?_⟩
  · intro s t h
    simpa using h
  · -- The cell has the corners of the first one at the places to which their lines were moved.
    have hmoved (f : Nat → Nat) : (m.cells.map (·.map f)).map Vector.toList =
        (m.cells.map Vector.toList).map (List.map f) := by
      rw [List.map_map, List.map_map]
      exact List.map_congr_left fun c _ => Vector.toList_map
    rw [hmesh, hsize]
    refine (hmoved _).trans ?_
    rw [hcells]
    decide

end Msh
end HexMesh
