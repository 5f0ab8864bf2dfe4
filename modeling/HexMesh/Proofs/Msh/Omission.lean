import HexMesh.Proofs.Msh.Comparison
import HexMesh.Proofs.Msh.Safety

/-!
Files from which nodes or elements are left out.

Two readers that differ in the nodes they have gathered, or in the elements, go on side by side.
Without some elements the second one is never stopped, but may end up without cells.  Without some
nodes it is stopped only by an element that has one of them (`readsWithout_of_after?`).
-/

namespace HexMesh
namespace Msh

variable {K : Type} {d : Nat}

/-! ## What becomes of the file -/

/-- The reader, having gone through the lines before it, takes line `n` for a node with a tag. -/
def IsNode (K : Type) [Scalar K] [Numeral K] (d : Nat) (lines : List Line) (n tag : Nat) : Prop :=
  ∃ (g : Gathered K d) (more : Nat) (text : List Char) (p : Point K d),
    scan d (lines.take n) = .ok g ∧ g.mode = .node more ∧ lines[n]? = some (some text) ∧
      readNode text = .ok (tag, p)

/-- What becomes of a file if it was accepted with more entries in a section. -/
inductive ReadsWithout (K : Type) [Scalar K] [Numeral K] (d : Nat) (bytes : List UInt8) :
    Counted → Prop where
  | accepted {kind : Counted} {m : Mesh K d} (read : read d bytes = .ok m) :
      ReadsWithout K d bytes kind
  /-- An element has a node that no line before it lists. -/
  | unknownNode {n number type tag : Nat} {tags nodes : List Nat}
      (read : read (K := K) d bytes = .error (.line (n + 1) (.unknownNode tag)))
      (element : IsElement K d (Line.ofBytes bytes) n
        (number :: type :: tags.length :: (tags ++ nodes)))
      (named : tag ∈ nodes) (unlisted : ∀ i < n, ¬IsNode K d (Line.ofBytes bytes) i tag) :
      ReadsWithout K d bytes .nodes
  /-- No element is a cell. -/
  | noCells (read : read (K := K) d bytes = .error .noCells)
      (absent : ∀ n number rest,
        ¬IsElement K d (Line.ofBytes bytes) n (number :: cellType d :: rest)) :
      ReadsWithout K d bytes .elements

namespace Gathered

variable {g g' g₁ : Gathered K d}

@[simp]
theorem vertexOfTag_awaiting (g : Gathered K d) (entry : Nat → Mode) (endMarker : String)
    (n : Nat) : (g.awaiting entry endMarker n).vertexOfTag = g.vertexOfTag := by
  cases n <;> rfl

theorem resolve_cases (g : Gathered K d) (tags : List Nat) :
    (∃ vs : List Nat, tags.map (g.vertexOfTag[·]?) = vs.map some) ∨
      ∃ t ∈ tags, g.vertexOfTag[t]? = none ∧ g.resolve tags = .error (.unknownNode t) := by
  induction tags with
  | nil => exact Or.inl ⟨[], rfl⟩
  | cons t rest ih =>
    cases ht : g.vertexOfTag[t]? with
    | none =>
      refine Or.inr ⟨t, List.mem_cons_self, ht, ?_⟩
      simp only [resolve, List.mapM_cons, ht]
      rfl
    | some v =>
      rcases ih with ⟨vs, hvs⟩ | ⟨s, hs, hnone, herror⟩
      · exact Or.inl ⟨v :: vs, by rw [List.map_cons, List.map_cons, ht, hvs]⟩
      · refine Or.inr ⟨s, List.mem_cons_of_mem t hs, hnone, ?_⟩
        unfold resolve at herror ⊢
        simp only [List.mapM_cons, ht, herror]
        rfl

variable [Scalar K] [Numeral K]

theorem Takes.isSome_vertexOfTag {text : List Char} (takes : g.Takes text g₁) {t : Nat}
    (h : (g.vertexOfTag[t]?).isSome = true) : (g₁.vertexOfTag[t]?).isSome = true := by
  cases takes with
  | blank | skips | opens | format | closes => exact h
  | nodeCount | elementCount =>
    simp only [nodesLeft, elementsLeft, vertexOfTag_awaiting]
    exact h
  | node =>
    simp only [nodesLeft, vertexOfTag_awaiting, addNode, Std.ExtTreeMap.getElem?_insert]
    split
    · rfl
    · exact h
  | element mode read gains =>
    simp only [elementsLeft, vertexOfTag_awaiting]
    cases gains <;> exact h

theorem Takes.isSome_of_node {text : List Char} {more t : Nat} {p : Point K d}
    (takes : g.Takes text g₁) (mode : g.mode = .node more) (h : readNode text = .ok (t, p)) :
    (g₁.vertexOfTag[t]?).isSome = true := by
  cases takes with
  | @node _ t' p' mode' read =>
    cases h.symm.trans read
    simp only [nodesLeft, vertexOfTag_awaiting, addNode, Std.ExtTreeMap.getElem?_insert_self]
    rfl
  | blank mode' | opens mode' | format mode' | closes mode' | skips mode' | nodeCount mode'
  | elementCount mode' | element mode' =>
    rw [mode] at mode'
    cases mode'

end Gathered

variable [Scalar K] [Numeral K] {g g' g₁ : Gathered K d}

/-- The tag of a node is known on every line after it. -/
theorem isSome_of_isNode {lines : List Line} {n i t : Nat} (h : scan d (lines.take n) = .ok g)
    (hi : i < n) (hnode : IsNode K d lines i t) : (g.vertexOfTag[t]?).isSome = true := by
  obtain ⟨g₂, more, text, p, before, mode, line, read⟩ := hnode
  refine scan_after (P := fun g => (g.vertexOfTag[t]?).isSome = true) h (n := i) ?_ ?_
    (fun _ takes => takes.isSome_of_node mode read) fun _ _ _ takes => takes.isSome_vertexOfTag
  · rw [List.take_take, Nat.min_eq_left (Nat.le_of_lt hi)]
    exact before
  · rw [List.getElem?_take_of_lt hi]
    exact line

/-! ## Readers that differ in entries of one kind -/

/-- What does not depend on entries of a kind. -/
def SameBut : Counted → Gathered K d → Gathered K d → Prop
  | .nodes, g, g' => g'.cells.size = g.cells.size
  | .elements, g, g' => g'.vertexOfTag = g.vertexOfTag ∧ g'.vertices.size = g.vertices.size

omit [Scalar K] [Numeral K] in
theorem indifferent_sameBut (kind : Counted) : Indifferent (SameBut (K := K) (d := d) kind) := by
  cases kind <;> exact fun _ _ _ _ _ _ h => h

omit [Scalar K] in
theorem sameBut_of_takeAll {kind : Counted} {texts : List (List Char)}
    (h : kind.takeAll g texts = .ok g₁) : SameBut kind g g₁ ∧ g₁.formatSeen = g.formatSeen := by
  have hkeeps (g₂ g₃ : Gathered K d) (text : List Char) (htake : kind.take g₂ text = .ok g₃)
      (hg₂ : SameBut kind g g₂ ∧ g₂.formatSeen = g.formatSeen) :
      SameBut kind g g₃ ∧ g₃.formatSeen = g.formatSeen := by
    refine ⟨?_, (Counted.formatSeen_of_take htake).trans hg₂.2⟩
    cases kind with
    | nodes =>
      obtain ⟨t, p, -, rfl⟩ := Counted.take_nodes_eq_ok_iff.mp htake
      exact hg₂.1
    | elements =>
      obtain ⟨e, -, hadd⟩ := Counted.take_elements_eq_ok_iff.mp htake
      cases Gathered.addElement_eq_ok_iff.mp hadd <;> exact hg₂.1
  refine Counted.takeAll_keeps hkeeps h ⟨?_, rfl⟩
  cases kind with
  | nodes => exact rfl
  | elements => exact ⟨rfl, rfl⟩

omit [Scalar K] [Numeral K] in
theorem SameBut.of_both {kind : Counted} (h : SameBut kind g g₁) (h' : SameBut kind g g') :
    SameBut kind g₁ g' := by
  cases kind with
  | nodes => exact Eq.trans h' (Eq.symm h)
  | elements => exact ⟨h'.1.trans h.1.symm, h'.2.trans h.2.symm⟩

def NodeUnknown (g : Gathered K d) (text : List Char) (fault : LineFault K) : Prop :=
  ∃ more e t, g.mode = .element more ∧ readElement (K := K) text = .ok e ∧ t ∈ e.nodes ∧
    g.vertexOfTag[t]? = none ∧ fault = .unknownNode t

omit [Scalar K] [Numeral K] in
theorem addElement_sameBut_nodes (h : SameBut .nodes g g') {e : Element}
    (hadd : g.addElement e = .ok g₁) :
    (∃ g₁', g'.addElement e = .ok g₁' ∧ SameBut .nodes g₁ g₁') ∨
      ∃ t ∈ e.nodes, g'.vertexOfTag[t]? = none ∧ g'.addElement e = .error (.unknownNode t) := by
  cases Gathered.addElement_eq_ok_iff.mp hadd with
  | cell isCell count =>
    rcases g'.resolve_cases e.nodes with ⟨vs, found⟩ | ⟨t, ht, hnone, herror⟩
    · refine Or.inl ⟨_, Gathered.addElement_eq_ok_iff.mpr (.cell isCell count found), ?_⟩
      simpa [SameBut] using h
    · refine Or.inr ⟨t, ht, hnone, ?_⟩
      rw [Gathered.addElement, if_pos isCell, if_neg (not_not.mpr count), herror]
      rfl
  | face noCell isFace count small =>
    rcases g'.resolve_cases e.nodes with ⟨vs, found⟩ | ⟨t, ht, hnone, herror⟩
    · exact Or.inl ⟨_, Gathered.addElement_eq_ok_iff.mpr (.face noCell isFace count small found), h⟩
    · refine Or.inr ⟨t, ht, hnone, ?_⟩
      rw [Gathered.addElement, if_neg noCell, if_pos isFace, if_neg (not_not.mpr count),
        if_neg (Nat.not_le.mpr small), herror]
      rfl
  | other noCell noFace =>
    exact Or.inl ⟨g', Gathered.addElement_eq_ok_iff.mpr (.other noCell noFace), h⟩

omit [Scalar K] in
theorem take_sameBut_elements (h : SameBut .elements g g') {c : Counted} {text : List Char}
    (htake : c.take g text = .ok g₁) :
    ∃ g₁', c.take g' text = .ok g₁' ∧ SameBut .elements g₁ g₁' := by
  cases c with
  | nodes =>
    obtain ⟨t, p, hnode, rfl⟩ := Counted.take_nodes_eq_ok_iff.mp htake
    refine ⟨g'.addNode t p, Counted.take_nodes_eq_ok_iff.mpr ⟨t, p, hnode, rfl⟩, ?_⟩
    simp [SameBut, Gathered.addNode, h.1, h.2]
  | elements =>
    obtain ⟨e, he, hadd⟩ := Counted.take_elements_eq_ok_iff.mp htake
    have htaken {g₂ : Gathered K d} (hg₂ : g'.addElement e = .ok g₂) :
        Counted.elements.take g' text = .ok g₂ :=
      Counted.take_elements_eq_ok_iff.mpr ⟨e, he, hg₂⟩
    cases Gathered.addElement_eq_ok_iff.mp hadd with
    | cell isCell count found =>
      exact ⟨_, htaken (Gathered.addElement_eq_ok_iff.mpr (.cell isCell count (h.1 ▸ found))), h⟩
    | face noCell isFace count small found =>
      exact ⟨_, htaken (Gathered.addElement_eq_ok_iff.mpr
        (.face noCell isFace count small (h.1 ▸ found))), h⟩
    | other noCell noFace =>
      exact ⟨_, htaken (Gathered.addElement_eq_ok_iff.mpr (.other noCell noFace)), h⟩

theorem readLine_sameBut_elements {text : List Char} (h : Beside (SameBut .elements) g g')
    (hread : g.readLine text = .ok g₁) :
    ∃ g₁', g'.readLine text = .ok g₁' ∧ Beside (SameBut .elements) g₁ g₁' := by
  cases hentry : g.mode.isEntry with
  | false => exact h.readLine (indifferent_sameBut .elements) hentry hread
  | true =>
    obtain ⟨c, more, hmode⟩ := Counted.exists_entryMode hentry
    exact h.readLine_entry (indifferent_sameBut .elements) hmode hread
      fun _ => take_sameBut_elements h.data

theorem readLine_sameBut_nodes {text : List Char} (h : Beside (SameBut .nodes) g g')
    (hread : g.readLine text = .ok g₁) :
    (∃ g₁', g'.readLine text = .ok g₁' ∧ Beside (SameBut .nodes) g₁ g₁') ∨
      ∃ fault, g'.readLine text = .error fault ∧ NodeUnknown g' text fault := by
  cases hentry : g.mode.isEntry with
  | false => exact Or.inl (h.readLine (indifferent_sameBut .nodes) hentry hread)
  | true =>
    obtain ⟨c, more, hmode⟩ := Counted.exists_entryMode hentry
    cases c with
    | nodes =>
      refine Or.inl (h.readLine_entry (indifferent_sameBut .nodes) hmode hread fun g₂ htake => ?_)
      obtain ⟨t, p, hnode, rfl⟩ := Counted.take_nodes_eq_ok_iff.mp htake
      exact ⟨g'.addNode t p, Counted.take_nodes_eq_ok_iff.mpr ⟨t, p, hnode, rfl⟩, h.data⟩
    | elements =>
      have htake := hread
      rw [Counted.elements.readLine_entry hmode] at htake
      obtain ⟨g₂, htake, -⟩ := bind_eq_ok_iff.mp htake
      obtain ⟨e, he, hadd⟩ := Counted.take_elements_eq_ok_iff.mp htake
      rcases addElement_sameBut_nodes h.data hadd with ⟨g₂', hadd', hsame⟩ | ⟨t, ht, hnone, herror⟩
      · refine Or.inl (h.readLine_entry (indifferent_sameBut .nodes) hmode hread
          fun g₃ htake' => ?_)
        cases htake.symm.trans htake'
        exact ⟨g₂', Counted.take_elements_eq_ok_iff.mpr ⟨e, he, hadd'⟩, hsame⟩
      · refine Or.inr ⟨.unknownNode t, ?_, more, e, t, h.mode.trans hmode, he, ht, hnone, rfl⟩
        rw [Counted.elements.readLine_entry (h.mode.trans hmode), Counted.take, he]
        show (g'.addElement e >>= _) = _
        rw [herror]
        rfl

/-! ## Whole files -/

theorem read_noCells (hd : d = 2 ∨ d = 3) {bytes : List UInt8}
    (h : ({} : Gathered K d).after? (Line.ofBytes bytes) = some g) (hmode : g.mode = .outside)
    (hseen : g.formatSeen = true) (hcells : g.cells.isEmpty = true) :
    read (K := K) d bytes = .error .noCells := by
  rw [read, readLines_eq hd, scan_eq_ok_iff.mpr h]
  show g.finish _ = _
  simp [Gathered.finish, Gathered.missing?, hmode, hseen, hcells]

theorem read_error_of_after? (hd : d = 2 ∨ d = 3) {bytes : List UInt8} {front rest : List Line}
    {text : List Char} {fault : LineFault K}
    (hlines : Line.ofBytes bytes = front ++ some text :: rest)
    (hfront : ({} : Gathered K d).after? front = some g) (hfault : g.readLine text = .error fault) :
    read d bytes = .error (.line (front.length + 1) fault) := by
  have hscan : scan d ((Line.ofBytes bytes).take front.length) = .ok g := by
    rw [scan_eq_ok_iff, hlines, List.take_left]
    exact hfront
  have hline : (Line.ofBytes bytes)[front.length]? = some (some text) := by
    simp [hlines]
  exact read_error hd (scan_error hscan hline hfault)

section After

variable {bytes : List UInt8} {front after : List Line}

theorem after?_ofBytes (hlines : Line.ofBytes bytes = front ++ after)
    (hfront : ({} : Gathered K d).after? front = some g') :
    ({} : Gathered K d).after? (Line.ofBytes bytes) = g'.after? after := by
  rw [hlines, Gathered.after?_append, hfront, Option.bind_some]

/-- The second reader goes on to the end, or stops at an element with a node that it lacks. -/
theorem readsWithout_nodes (hd : d = 2 ∨ d = 3) (hlines : Line.ofBytes bytes = front ++ after)
    (hfront : ({} : Gathered K d).after? front = some g') (h : Beside (SameBut .nodes) g g')
    (hafter : g.after? after = some g₁) (hcomplete : g₁.Complete) :
    ReadsWithout K d bytes .nodes := by
  have hfollows := after?_follows (R := fun _ => Beside (SameBut .nodes)) rfl h
    (fun n g g' g₁ text hline hR hread => ⟨text, hline, readLine_sameBut_nodes hR hread⟩) hafter
  rcases hfollows with ⟨g₁', hg₁', hbeside⟩ | ⟨n, g₂, text, fault, hbefore, hline, hfault, hstop⟩
  · have hsize : g₁'.cells.size = g₁.cells.size := hbeside.data
    have hcells : g₁'.cells.isEmpty = false := by
      rw [← hcomplete.cells, Array.isEmpty, Array.isEmpty, hsize]
    exact .accepted (read_of_complete hd ((after?_ofBytes hlines hfront).trans hg₁')
      (hbeside.complete hcomplete hcells))
  · obtain ⟨more, e, t, hmode, he, ht, hnone, rfl⟩ := hstop
    have hscan : scan d ((Line.ofBytes bytes).take (front.length + n)) = .ok g₂ := by
      rw [scan_eq_ok_iff, hlines, List.take_length_add_append, Gathered.after?_append, hfront]
      exact hbefore
    have htext : (Line.ofBytes bytes)[front.length + n]? = some (some text) := by
      rw [hlines, List.getElem?_append_right (Nat.le_add_right _ _), Nat.add_sub_cancel_left]
      exact hline
    obtain ⟨number, tags, hspells, -, -⟩ := readElement_eq_ok_iff.mp he
    refine .unknownNode (read_error hd (scan_error hscan htext hfault))
      ⟨g₂, more, text, hscan, hmode, htext, hspells⟩ ht fun i hi hnode => ?_
    have hknown := isSome_of_isNode hscan hi hnode
    rw [hnone] at hknown
    cases hknown

/-- The second reader goes on to the end, but may have no cells there. -/
theorem readsWithout_elements (hd : d = 2 ∨ d = 3) (hlines : Line.ofBytes bytes = front ++ after)
    (hfront : ({} : Gathered K d).after? front = some g') (h : Beside (SameBut .elements) g g')
    (hafter : g.after? after = some g₁) (hcomplete : g₁.Complete) :
    ReadsWithout K d bytes .elements := by
  obtain ⟨g₁', hg₁', hbeside⟩ := after?_keeps (R := fun _ => Beside (SameBut .elements)) rfl h
    (fun n g g' g₁ text hline hR hread => by
      obtain ⟨g₁', hread', hR'⟩ := readLine_sameBut_elements hR hread
      exact ⟨text, g₁', hline, hread', hR'⟩) hafter
  have hwhole := (after?_ofBytes hlines hfront).trans hg₁'
  cases hcells : g₁'.cells.isEmpty with
  | false => exact .accepted (read_of_complete hd hwhole (hbeside.complete hcomplete hcells))
  | true =>
    have hread := read_noCells hd hwhole (hbeside.mode.trans hcomplete.mode)
      (hbeside.formatSeen.trans hcomplete.formatSeen) hcells
    cases stops_of_read hd hread with
    | noCells complete outside absent => exact .noCells hread absent

/-- A reader that is behind the same lines but for entries of one kind, in a file that the first
reader accepts. -/
theorem readsWithout_of_after? {kind : Counted} (hd : d = 2 ∨ d = 3)
    (hlines : Line.ofBytes bytes = front ++ after)
    (hfront : ({} : Gathered K d).after? front = some g') (h : Beside (SameBut kind) g g')
    (hafter : g.after? after = some g₁) (hcomplete : g₁.Complete) :
    ReadsWithout K d bytes kind := by
  cases kind with
  | nodes => exact readsWithout_nodes hd hlines hfront h hafter hcomplete
  | elements => exact readsWithout_elements hd hlines hfront h hafter hcomplete

end After

end Msh
end HexMesh
