import HexMesh.Proofs.Msh.Comparison
import HexMesh.Proofs.Msh.Gathered
import Mathlib.Logic.Function.Defs

/-!
What a mesh file says does not depend on its node tags.

Tags only tie elements to nodes.  If another tag is written for each tag, different ones for
different ones, wherever the reader takes a number for the tag of a node, then a second reader
gathers the same under the other tags.  This holds line by line, whether a tag is given to several
nodes or not and whatever the order of the sections is.
-/

namespace HexMesh
namespace Msh

variable {K : Type} {d : Nat} {f : UInt64 → UInt64}

/-! ## Files with the same lines but for node tags -/

/-- A line as a reader meets it, and the same line with other node tags. -/
inductive RetaggedLine (f : UInt64 → UInt64) : Mode → List Char → List Char → Prop where
  /-- The tag of a node is the first field of its line. -/
  | node {more : Nat} {text text' tag tag' : List Char} {coordinates : List (List Char)}
      {t : UInt64} (fields_eq : fields text = tag :: coordinates)
      (fields_eq' : fields text' = tag' :: coordinates)
      (spells : readNat? wordBound tag = some t.toNat)
      (spells' : readNat? wordBound tag' = some (f t).toNat) :
      RetaggedLine f (.node more) text text'
  /-- The tags of an element's nodes stand behind its own tags. -/
  | element {more number type : Nat} {text text' : List Char} {tags : List Nat}
      {nodes : List UInt64}
      (spells : Spells text
        (number :: type :: tags.length :: (tags ++ nodes.map UInt64.toNat)))
      (spells' : Spells text'
        (number :: type :: tags.length :: (tags ++ nodes.map fun t => (f t).toNat))) :
      RetaggedLine f (.element more) text text'
  /-- Lines that are passed over may be changed as long as none of them ends the section. -/
  | passed {marker text text' : List Char} (other : trim text ≠ marker)
      (other' : trim text' ≠ marker) : RetaggedLine f (.closing marker) text text'
  | same {mode : Mode} {text : List Char}
      (noEntry : mode.isEntry = false) : RetaggedLine f mode text text

/-- Two files with the same lines, except that the second file has the tag `f t` for each node
tag `t`. -/
structure Retagged (K : Type) [Scalar K] [Numeral K] (d : Nat) (f : UInt64 → UInt64)
    (lines lines' : List Line) : Prop where
  length : lines'.length = lines.length
  line : ∀ n (g : Gathered K d) text, scan d (lines.take n) = .ok g →
    lines[n]? = some (some text) →
    ∃ text', lines'[n]? = some (some text') ∧ RetaggedLine f g.mode text text'

/-! ## Entries -/

theorem readNode_eq_ok_iff [Numeral K] {text : List Char} {t : Nat} {p : Point K d} :
    readNode text = .ok (t, p) ↔ ∃ tag coordinates, fields text = tag :: coordinates ∧
      3 ≤ coordinates.length ∧ readNat? wordBound tag = some t ∧
      (Vector.ofFn fun a : Fin d => coordinates.getD a []).mapM (scalar .coordinate) =
        .ok p.coords := by
  unfold readNode
  cases fields text with
  | nil => simp
  | cons tag coordinates =>
    dsimp only
    by_cases hshort : coordinates.length < 3
    · simp only [hshort, if_true]
      constructor
      · intro h
        cases h
      · intro h
        obtain ⟨tag', coordinates', hfields, hlength, -⟩ := h
        cases hfields
        omega
    · simp only [hshort, if_false]
      constructor
      · intro h
        obtain ⟨t', htag, h⟩ := bind_eq_ok_iff.mp h
        obtain ⟨coords, hcoords, h⟩ := bind_eq_ok_iff.mp h
        cases h
        exact ⟨tag, coordinates, rfl, by omega, natural_eq_ok_iff.mp htag, hcoords⟩
      · intro h
        obtain ⟨tag', coordinates', hfields, -, htag, hcoords⟩ := h
        cases hfields
        rw [natural_eq_ok_iff.mpr htag, hcoords]
        rfl

namespace Gathered

/-- The same was gathered under other tags. -/
structure Retags (f : UInt64 → UInt64) (g g' : Gathered K d) : Prop where
  vertices : g'.vertices = g.vertices
  cells : g'.cells = g.cells
  faces : g'.faces = g.faces
  vertexOfTag : ∀ t : UInt64, g'.vertexOfTag[(f t).toNat]? = g.vertexOfTag[t.toNat]?

variable {g g' g₁ : Gathered K d}

theorem indifferent_retags : Indifferent (Retags (K := K) (d := d) f) :=
  fun _ _ _ _ _ _ h => ⟨h.vertices, h.cells, h.faces, h.vertexOfTag⟩

theorem Retags.addNode (hf : Function.Injective f) (h : g.Retags f g') (t : UInt64)
    (p : Point K d) : (g.addNode t.toNat p).Retags f (g'.addNode (f t).toNat p) where
  vertices := congrArg (·.push p) h.vertices
  cells := h.cells
  faces := h.faces
  vertexOfTag s := by
    rw [Gathered.addNode, Gathered.addNode, Std.ExtTreeMap.getElem?_insert,
      Std.ExtTreeMap.getElem?_insert, h.vertexOfTag, h.vertices]
    simp only [Std.LawfulEqOrd.compare_eq_iff_eq, UInt64.toNat_inj, hf.eq_iff]

theorem Retags.addElement (h : g.Retags f g') {type physical : Nat} {nodes : List UInt64}
    (hadd : g.addElement ⟨type, physical, nodes.map UInt64.toNat⟩ = .ok g₁) :
    ∃ g₁', g'.addElement ⟨type, physical, nodes.map fun t => (f t).toNat⟩ = .ok g₁' ∧
      g₁.Retags f g₁' := by
  have hfound : (nodes.map fun t => (f t).toNat).map (g'.vertexOfTag[·]?) =
      (nodes.map UInt64.toNat).map (g.vertexOfTag[·]?) := by
    rw [List.map_map, List.map_map]
    exact List.map_congr_left fun t _ => h.vertexOfTag t
  have hlength : (nodes.map fun t => (f t).toNat).length = (nodes.map UInt64.toNat).length := by
    simp
  cases addElement_eq_ok_iff.mp hadd with
  | cell isCell count found =>
    refine ⟨_, addElement_eq_ok_iff.mpr (.cell isCell (hlength.trans count)
      (hfound.trans found)), h.vertices, ?_, h.faces, h.vertexOfTag⟩
    simp only [h.cells]
  | face noCell isFace count small found =>
    refine ⟨_, addElement_eq_ok_iff.mpr (.face noCell isFace (hlength.trans count) small
      (hfound.trans found)), h.vertices, h.cells, ?_, h.vertexOfTag⟩
    simp only [h.faces]
  | other noCell noFace =>
    exact ⟨g', addElement_eq_ok_iff.mpr (.other noCell noFace), h⟩

variable [Numeral K] {text text' : List Char}

theorem Retags.take_nodes (hf : Function.Injective f) (h : g.Retags f g') {more : Nat}
    (hline : RetaggedLine f (.node more) text text') (htake : Counted.nodes.take g text = .ok g₁) :
    ∃ g₁', Counted.nodes.take g' text' = .ok g₁' ∧ g₁.Retags f g₁' := by
  cases hline with
  | same noEntry => cases noEntry
  | @node _ _ _ _ _ _ t fields_eq fields_eq' spells spells' =>
    obtain ⟨n, p, hnode, rfl⟩ := Counted.take_nodes_eq_ok_iff.mp htake
    obtain ⟨tag, coordinates, hfields, hlength, htag, hcoords⟩ := readNode_eq_ok_iff.mp hnode
    cases fields_eq.symm.trans hfields
    cases spells.symm.trans htag
    have hnode' : readNode text' = .ok ((f t).toNat, p) :=
      readNode_eq_ok_iff.mpr ⟨_, _, fields_eq', hlength, spells', hcoords⟩
    exact ⟨g'.addNode (f t).toNat p, Counted.take_nodes_eq_ok_iff.mpr ⟨_, p, hnode', rfl⟩,
      h.addNode hf t p⟩

theorem Retags.take_elements (h : g.Retags f g') {more : Nat}
    (hline : RetaggedLine f (.element more) text text')
    (htake : Counted.elements.take g text = .ok g₁) :
    ∃ g₁', Counted.elements.take g' text' = .ok g₁' ∧ g₁.Retags f g₁' := by
  cases hline with
  | same noEntry => cases noEntry
  | @element _ number type _ _ tags nodes spells spells' =>
    obtain ⟨⟨type', physical, nodes'⟩, he, hadd⟩ := Counted.take_elements_eq_ok_iff.mp htake
    obtain ⟨number', tags', hspells, htype, hphysical⟩ := readElement_eq_ok_iff.mp he
    -- The numbers on the line tell how many of them are tags of the element.
    have hsame := hspells.unique spells
    simp only [List.cons.injEq] at hsame
    obtain ⟨-, rfl, hlength, hrest⟩ := hsame
    obtain ⟨rfl, rfl⟩ := List.append_inj hrest hlength
    have he' : readElement (K := K) text' =
        .ok ⟨type', physical, nodes.map fun t => (f t).toNat⟩ :=
      readElement_eq_ok_iff.mpr ⟨number, tags', spells', htype, hphysical⟩
    obtain ⟨g₁', hadd', hretags⟩ := h.addElement hadd
    exact ⟨g₁', Counted.take_elements_eq_ok_iff.mpr ⟨_, he', hadd'⟩, hretags⟩

end Gathered

/-! ## Whole files -/

open Gathered

variable [Scalar K] [Numeral K] {g g' g₁ : Gathered K d} {text text' : List Char}

theorem RetaggedLine.readLine (hf : Function.Injective f) (hline : RetaggedLine f g.mode text text')
    (h : Beside (Retags f) g g') (hread : g.readLine text = .ok g₁) :
    ∃ g₁', g'.readLine text' = .ok g₁' ∧ Beside (Retags f) g₁ g₁' := by
  generalize hmode : g.mode = mode at hline
  have hentry := hline
  cases hline with
  | same noEntry => exact h.readLine indifferent_retags (hmode ▸ noEntry) hread
  | @passed marker _ _ other other' =>
    have hpasses {g₂ : Gathered K d} {line : List Char} (hg₂ : g₂.mode = .closing marker)
        (hother : trim line ≠ marker) : g₂.readLine line = .ok g₂ := by
      simp only [Gathered.readLine, hg₂, hother, if_false]
    cases hread.symm.trans (hpasses hmode other)
    exact ⟨g', hpasses (h.mode.trans hmode) other', h⟩
  | node =>
    exact h.readLine_entry (c := .nodes) indifferent_retags hmode hread
      fun g₂ htake => h.data.take_nodes hf hentry htake
  | element =>
    exact h.readLine_entry (c := .elements) indifferent_retags hmode hread
      fun g₂ htake => h.data.take_elements hentry htake

theorem Beside.of_retagged (hf : Function.Injective f) {lines lines' : List Line}
    (h : Retagged K d f lines lines') (hread : ({} : Gathered K d).after? lines = some g₁) :
    ∃ g₁', ({} : Gathered K d).after? lines' = some g₁' ∧ Beside (Retags f) g₁ g₁' := by
  have hstart : Beside (Retags f) ({} : Gathered K d) {} :=
    ⟨rfl, rfl, rfl, rfl, rfl, fun t => by simp⟩
  obtain ⟨g₁', hg₁', -, hbeside⟩ := after?_keeps
    (R := fun n g g' => scan d (lines.take n) = .ok g ∧ Beside (Retags f) g g')
    h.length ⟨rfl, hstart⟩
    (fun n g g' g₁ text hline hR hread => by
      obtain ⟨text', hline', hretagged⟩ := h.line n g text hR.1 hline
      obtain ⟨g₁', hread', hbeside⟩ := hretagged.readLine hf hR.2 hread
      exact ⟨text', g₁', hline', hread', scan_take_succ hR.1 hline hread, hbeside⟩)
    hread
  exact ⟨g₁', hg₁', hbeside⟩

omit [Numeral K] in
theorem Gathered.Retags.mesh_eq (h : g.Retags f g') : g'.mesh = g.mesh := by
  rw [Gathered.mesh, Gathered.mesh, h.vertices, h.cells, h.faces]

/-- A file with other node tags is read as the same mesh. -/
theorem read_retagged (hf : Function.Injective f) {bytes bytes' : List UInt8} {m : Mesh K d}
    (hread : read d bytes = .ok m)
    (h : Retagged K d f (Line.ofBytes bytes) (Line.ofBytes bytes')) : read d bytes' = .ok m := by
  have hd := dimension_of_read hread
  obtain ⟨g, hscan, hcomplete, rfl⟩ := (read_eq_ok_iff hd).mp hread
  obtain ⟨g', hscan', hbeside⟩ := Beside.of_retagged hf h hscan
  have hcells : g'.cells.isEmpty = false := by
    rw [hbeside.data.cells, hcomplete.cells]
  rw [read_of_complete hd hscan' (hbeside.complete hcomplete hcells), hbeside.data.mesh_eq]

end Msh
end HexMesh
