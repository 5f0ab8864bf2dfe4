import HexMesh.Proofs.Msh.Gathered
import HexMesh.Proofs.Msh.Listing
import HexMesh.Proofs.Strict

/-!
The reader on the sections of a written file.

Each section is one lemma: it leads the reader from outside all sections back to outside, and
adds its entries to what was gathered.  Inside a section the induction is on the entries that
are still to come, whose number is what the reader has left to wait for.
-/

namespace HexMesh
namespace Msh

open HexMesh.Cube

variable {K : Type} {d : Nat}

namespace Gathered

variable [Scalar K] [Numeral K] {g g₁ g₂ : Gathered K d}

/-- Lines that lead the reader from one state to another. -/
inductive Leads : Gathered K d → List (List Char) → Gathered K d → Prop where
  | nil {g : Gathered K d} : Leads g [] g
  | cons {g g₁ g₂ : Gathered K d} {line : List Char} {rest : List (List Char)}
      (first : g.readLine line = .ok g₁) (more : Leads g₁ rest g₂) : Leads g (line :: rest) g₂

theorem Leads.append {a b : List (List Char)} (ha : g.Leads a g₁) (hb : g₁.Leads b g₂) :
    g.Leads (a ++ b) g₂ := by
  induction ha with
  | nil => exact hb
  | cons first _ ih => exact .cons first (ih hb)

theorem Leads.one {line : List Char} (h : g.readLine line = .ok g₁) : g.Leads [line] g₁ :=
  .cons h .nil

theorem Leads.run {lines : List (List Char)} (h : g.Leads lines g₁) (first : Nat) :
    g.run first (lines.map some) = .ok g₁ := by
  induction h generalizing first with
  | nil => rfl
  | @cons g g₁ g₂ line rest hline _ ih =>
    have hstep : g.step (some line, first) = .ok g₁ := step_eq_ok_iff.mpr ⟨line, rfl, hline⟩
    show (g.step (some line, first) >>= fun g => g.run (first + 1) (rest.map some)) = _
    rw [hstep]
    exact ih (first + 1)

/-! ## Lines that open and close a section -/

theorem readLine_closing {marker : List Char} (hmode : g.mode = .closing marker)
    (hmarker : trim marker = marker) :
    g.readLine marker =
      .ok { g with mode := .outside, formatSeen := g.formatSeen || marker = formatMarker } := by
  simp only [readLine, hmode]
  rw [if_pos hmarker]

/-- A section whose entries are waited for by `entry`. -/
theorem leads_enclosed (entry : Nat → Mode) {opening closing : String} {count : Mode}
    {entries : List (List Char)}
    (hopening : g.readLine opening.toList = .ok { g with mode := count })
    (hcount : ({ g with mode := count } : Gathered K d).readLine (numeral entries.length) =
      .ok (({ g with mode := count } : Gathered K d).awaiting entry closing entries.length))
    (hclosing : trim closing.toList = closing.toList)
    (hentries : (g.awaiting entry closing entries.length).Leads entries
      (g₁.awaiting entry closing 0)) (hseen₁ : g₁.formatSeen = true) :
    g.Leads (enclosed opening closing entries) { g₁ with mode := .outside } := by
  -- Waiting for entries sets the mode anew, so the mode before it does not matter.
  have hforget (n : Nat) : ({ g with mode := count } : Gathered K d).awaiting entry closing n =
      g.awaiting entry closing n := by
    cases n <;> rfl
  rw [hforget] at hcount
  refine .cons hopening (.cons hcount (hentries.append (.one ?_)))
  rw [readLine_closing rfl hclosing]
  simp [awaiting, hseen₁]

/-! ## The format -/

theorem leads_format {l : Listing K} (hmode : g.mode = .outside)
    (hversion : ((2 : Nat) : K) ≤ l.version.value ∧ l.version.value < ((3 : Nat) : K)) :
    g.Leads l.formatLines { g with mode := .outside, formatSeen := true } := by
  have hopening : g.readLine "$MeshFormat".toList = .ok { g with mode := .format } := by
    simp only [readLine, hmode]
    rfl
  have hfields : fields (spaced [l.version.text, ['0'], ['8']]) =
      [l.version.text, ['0'], ['8']] := by
    refine fields_spaced ?_
    simp only [List.forall_mem_cons]
    exact ⟨l.version.word, by decide, by decide, fun _ h => absurd h List.not_mem_nil⟩
  have hcheck : checkFormat (K := K) (spaced [l.version.text, ['0'], ['8']]) = .ok () := by
    have hscalar : scalar (K := K) .formatVersion l.version.text = .ok l.version.value := by
      rw [scalar, l.version.read]
    have hzero : natural (K := K) halfWordBound .fileType ['0'] = .ok 0 :=
      natural_eq_ok_iff.mpr (by decide)
    rw [checkFormat, hfields]
    simp only [List.getD_cons_zero, List.getD_cons_succ]
    rw [hscalar, hzero]
    show (if ¬(((2 : Nat) : K) ≤ l.version.value ∧ l.version.value < ((3 : Nat) : K)) then _
      else _) = _
    rw [if_neg (not_not.mpr hversion)]
    rfl
  have hversionLine : ({ g with mode := .format } : Gathered K d).readLine
      (spaced [l.version.text, ['0'], ['8']]) = .ok { g with mode := .closing formatMarker } := by
    simp only [readLine, hcheck]
    rfl
  have hend : ({ g with mode := .closing formatMarker } : Gathered K d).readLine formatMarker =
      .ok { g with mode := .outside, formatSeen := true } := by
    rw [readLine_closing rfl (by decide)]
    simp
  exact .cons hopening (.cons hversionLine (.one hend))

end Gathered

/-! ## Nodes -/

def ListedNode.point [Numeral K] (hd : d ≤ 3) (n : ListedNode K) : Point K d :=
  .ofFn fun a => (n.coordinates.get (a.castLE hd)).value

theorem readNode_words [Numeral K] (hd : d ≤ 3) (n : ListedNode K) :
    readNode (spaced n.words) = .ok (n.tag.toNat, n.point hd) := by
  have htag : natural (K := K) wordBound .nodeTag (numeral n.tag.toNat) = .ok n.tag.toNat :=
    natural_eq_ok_iff.mpr (readNat?_toDigits n.tag.toNat_lt)
  have hlength : ¬(n.coordinates.toList.map Spelled.text).length < 3 := by simp
  have hplace (a : Fin d) : scalar .coordinate ((n.coordinates.toList.map Spelled.text).getD a []) =
      .ok (n.coordinates.get (a.castLE hd)).value := by
    have htext : (n.coordinates.toList.map Spelled.text).getD a [] =
        (n.coordinates.get (a.castLE hd)).text := by
      have ha : a.val < 3 := Nat.lt_of_lt_of_le a.isLt hd
      rw [List.getD_eq_getElem?_getD, List.getElem?_map, Vector.getElem?_toList,
        Vector.getElem?_eq_getElem ha]
      rfl
    rw [htext, scalar, (n.coordinates.get (a.castLE hd)).read]
  have hcoords : (Vector.ofFn fun a : Fin d =>
      (n.coordinates.toList.map Spelled.text).getD a []).mapM (scalar .coordinate) =
        .ok (n.point hd).coords := by
    refine mapM_vector_eq_ok ?_
    rw [ListedNode.point, Point.ofFn, Vector.toList_ofFn, Vector.toList_ofFn, List.map_ofFn,
      List.map_ofFn]
    exact congrArg List.ofFn (funext hplace)
  rw [readNode, fields_spaced n.word_of_mem_words, ListedNode.words]
  dsimp only
  rw [if_neg hlength, htag, hcoords]
  rfl

namespace Gathered

variable [Numeral K] {g : Gathered K d}

def addNodes (g : Gathered K d) (hd : d ≤ 3) (ns : List (ListedNode K)) : Gathered K d :=
  ns.foldl (fun g n => g.addNode n.tag.toNat (n.point hd)) g

theorem addNodes_cons (hd : d ≤ 3) (n : ListedNode K) (rest : List (ListedNode K)) :
    g.addNodes hd (n :: rest) = (g.addNode n.tag.toNat (n.point hd)).addNodes hd rest := rfl

theorem addNodes_eq (hd : d ≤ 3) (ns : List (ListedNode K)) :
    g.addNodes hd ns =
      { g with
        vertices := g.vertices ++ (ns.map (ListedNode.point hd)).toArray
        vertexOfTag := (g.addNodes hd ns).vertexOfTag } := by
  induction ns generalizing g with
  | nil => simp [addNodes]
  | cons n rest ih =>
    rw [addNodes_cons, ih]
    simp [addNode]

/-- Each tag leads to the place of its node, counted from the vertices that were there before;
a tag that no node has keeps its vertex. -/
theorem getElem?_vertexOfTag_addNodes (hd : d ≤ 3) {ns : List (ListedNode K)}
    (hns : (ns.map ListedNode.tag).Nodup) (t : UInt64) :
    (g.addNodes hd ns).vertexOfTag[t.toNat]? =
      if t ∈ ns.map ListedNode.tag then
        some (g.vertices.size + (ns.map ListedNode.tag).idxOf t)
      else g.vertexOfTag[t.toNat]? := by
  induction ns generalizing g with
  | nil => simp [addNodes]
  | cons n rest ih =>
    rw [List.map_cons, List.nodup_cons] at hns
    rw [addNodes_cons, ih hns.2, List.map_cons]
    have hinsert : (g.addNode n.tag.toNat (n.point hd)).vertexOfTag[t.toNat]? =
        if n.tag = t then some g.vertices.size else g.vertexOfTag[t.toNat]? := by
      rw [addNode, Std.ExtTreeMap.getElem?_insert]
      simp only [Std.LawfulEqOrd.compare_eq_iff_eq, UInt64.toNat_inj]
    have hsize : (g.addNode n.tag.toNat (n.point hd)).vertices.size = g.vertices.size + 1 :=
      Array.size_push _
    by_cases htag : n.tag = t
    · -- Only here do the tags have to differ: a later node would take the tag over.
      subst htag
      rw [if_neg hns.1, if_pos List.mem_cons_self, hinsert, if_pos rfl, List.idxOf_cons_self]
      rfl
    · by_cases hmem : t ∈ rest.map ListedNode.tag
      · rw [if_pos hmem, if_pos (List.mem_cons_of_mem _ hmem), List.idxOf_cons_ne _ htag, hsize,
          Nat.add_right_comm, Nat.add_assoc]
      · have hnone : t ∉ n.tag :: rest.map ListedNode.tag :=
          List.not_mem_cons_of_ne_of_not_mem (Ne.symm htag) hmem
        rw [if_neg hmem, if_neg hnone, hinsert, if_neg htag]

variable [Scalar K]

theorem leads_nodes (hd : d ≤ 3) (ns : List (ListedNode K)) :
    (g.nodesLeft ns.length).Leads (ns.map fun n => spaced n.words)
      ((g.addNodes hd ns).nodesLeft 0) := by
  induction ns generalizing g with
  | nil => exact .nil
  | cons n rest ih =>
    refine .cons ?_ ih
    show readLine { g with mode := .node rest.length } (spaced n.words) = _
    simp only [readLine, readNode_words hd]
    cases rest.length <;> rfl

omit [Numeral K] [Scalar K] in
theorem natural_trim_numeral {n : Nat} (h : n < 2 ^ 64) (item : Item) :
    natural (K := K) wordBound item (trim (numeral n)) = .ok n := by
  rw [numeral, trim_of_not_blank (word_toDigits n).not_blank]
  exact natural_eq_ok_iff.mpr (readNat?_toDigits h)

theorem leads_nodeLines (hd : d ≤ 3) {l : Listing K} (hmode : g.mode = .outside)
    (hseen : g.formatSeen = true) (hlt : l.nodes.length < 2 ^ 64) :
    g.Leads l.nodeLines { g.addNodes hd l.nodes with mode := .outside } := by
  have hopening : g.readLine "$Nodes".toList = .ok { g with mode := .nodeCount } := by
    simp only [readLine, hmode]
    rfl
  refine leads_enclosed .node hopening ?_ (by decide) ?_ ?_
  · simp only [readLine, List.length_map, natural_trim_numeral hlt]
    rfl
  · rw [List.length_map]
    exact leads_nodes hd l.nodes
  · rw [addNodes_eq]
    exact hseen

end Gathered

/-! ## Elements -/

theorem readElement_words {e : ListedElement} (h : e.tags.length < 2 ^ 64) :
    readElement (K := K) (spaced e.words) =
      .ok ⟨e.type.toNat, e.physical.toNat, e.nodes.map UInt64.toNat⟩ := by
  have hnumber : ∀ n ∈ e.numbers, n < wordBound := by
    have htype := e.type.toNat_lt
    have hword (ts : List UInt64) : ∀ n ∈ ts.map UInt64.toNat, n < wordBound := by
      intro n hn
      obtain ⟨t, -, rfl⟩ := List.mem_map.mp hn
      exact t.toNat_lt
    simp only [ListedElement.numbers, List.forall_mem_cons, List.forall_mem_append]
    exact ⟨e.number.toNat_lt, Nat.lt_of_lt_of_le htype (by decide), h, hword _, hword _⟩
  have hspells : Spells (spaced e.words) e.numbers := by
    rw [Spells, fields_spaced e.word_of_mem_words, ListedElement.words, List.map_map]
    exact List.map_congr_left fun n hn => readNat?_toDigits (hnumber n hn)
  refine readElement_eq_ok_iff.mpr
    ⟨e.number.toNat, e.tags.map UInt64.toNat, ?_, e.type.toNat_lt, ?_⟩
  · rw [List.length_map]
    exact hspells
  · rw [ListedElement.physical]
    cases e.tags <;> rfl

/-- The cell that the reader makes of the vertices of an element, before it is oriented. -/
def rawCell (d : Nat) (vs : List Nat) : Cell d := Cell.ofFn fun v => vs.getD (nodePlace v) 0

theorem Roles.dimension {cell face : UInt32} (h : Roles d cell face) : d = 2 ∨ d = 3 := by
  cases h
  · exact Or.inl rfl
  · exact Or.inr rfl

theorem Roles.types {cell face : UInt32} (h : Roles d cell face) :
    cell.toNat = cellType d ∧ face.toNat = faceType d ∧ cell ≠ face := by
  cases h <;> decide

namespace Gathered

variable {g : Gathered K d} {cell face : UInt32} {place : UInt64 → Nat}

/-- All elements of a list taken in, with their nodes at the given places. -/
def addElements (g : Gathered K d) (cell face : UInt32) (place : UInt64 → Nat)
    (es : List ListedElement) : Gathered K d :=
  { g with
    cells := g.cells ++
      ((es.filter (·.type = cell)).map fun e => rawCell d (e.nodes.map place)).toArray
    faces := g.faces ++ ((es.filter (·.type = face)).map fun e =>
      (e.nodes.map place, e.physical.toNat.toUInt32)).toArray }

theorem addElements_cons (e : ListedElement) (es : List ListedElement) :
    g.addElements cell face place (e :: es) =
      (g.addElements cell face place [e]).addElements cell face place es := by
  have happend (type : UInt32) : (e :: es).filter (·.type = type) =
      [e].filter (·.type = type) ++ es.filter (·.type = type) := by
    rw [← List.filter_append]
    rfl
  simp [addElements, happend]

/-- What an element must keep to for the reader to take it in. -/
structure Accepts (g : Gathered K d) (cell face : UInt32) (place : UInt64 → Nat)
    (e : ListedElement) : Prop where
  tags_lt : e.tags.length < 2 ^ 64
  cell_nodes : e.type = cell → e.nodes.length = 2 ^ d
  face_nodes : e.type = face → e.nodes.length = 2 ^ (d - 1)
  face_physical : e.type = face → e.physical.toNat < 2 ^ 32
  found : e.type = cell ∨ e.type = face → ∀ t ∈ e.nodes,
    g.vertexOfTag[t.toNat]? = some (place t)

theorem addElement_listed {e : ListedElement} (hroles : Roles d cell face)
    (he : g.Accepts cell face place e) :
    g.addElement ⟨e.type.toNat, e.physical.toNat, e.nodes.map UInt64.toNat⟩ =
      .ok (g.addElements cell face place [e]) := by
  obtain ⟨hcellType, hfaceType, hne⟩ := hroles.types
  have hfound (h : e.type = cell ∨ e.type = face) :
      (e.nodes.map UInt64.toNat).map (g.vertexOfTag[·]?) = (e.nodes.map place).map some := by
    rw [List.map_map, List.map_map]
    exact List.map_congr_left (he.found h)
  have hlength : (e.nodes.map UInt64.toNat).length = e.nodes.length := List.length_map _
  rw [addElement_eq_ok_iff]
  by_cases hcell : e.type = cell
  · have hface : e.type ≠ face := fun h => hne (hcell.symm.trans h)
    have hadd : g.addElements cell face place [e] =
        { g with cells := g.cells.push (rawCell d (e.nodes.map place)) } := by
      simp [addElements, hcell, hne]
    rw [hadd]
    exact .cell (hcell ▸ hcellType) (hlength.trans (he.cell_nodes hcell)) (hfound (Or.inl hcell))
  have hnotCell : e.type.toNat ≠ cellType d := fun h =>
    hcell (UInt32.toNat_inj.mp (h.trans hcellType.symm))
  by_cases hface : e.type = face
  · have hadd : g.addElements cell face place [e] =
        { g with faces := g.faces.push (e.nodes.map place, e.physical.toNat.toUInt32) } := by
      simp [addElements, hface, hne.symm]
    rw [hadd]
    exact .face hnotCell (hface ▸ hfaceType) (hlength.trans (he.face_nodes hface))
      (he.face_physical hface) (hfound (Or.inr hface))
  · have hadd : g.addElements cell face place [e] = g := by
      simp [addElements, hcell, hface]
    rw [hadd]
    exact .other hnotCell fun h => hface (UInt32.toNat_inj.mp (h.trans hfaceType.symm))

variable [Scalar K] [Numeral K]

theorem leads_elements (hroles : Roles d cell face) {es : List ListedElement}
    (hes : ∀ e ∈ es, g.Accepts cell face place e) :
    (g.elementsLeft es.length).Leads (es.map fun e => spaced e.words)
      ((g.addElements cell face place es).elementsLeft 0) := by
  induction es generalizing g with
  | nil =>
    have hnil : g.addElements cell face place [] = g := by simp [addElements]
    rw [hnil]
    exact .nil
  | cons e rest ih =>
    have ⟨he, hrest⟩ := List.forall_mem_cons.mp hes
    rw [addElements_cons]
    -- taking in an element leaves the tags alone, so what comes later stays acceptable
    have hkept : ∀ e' ∈ rest, (g.addElements cell face place [e]).Accepts cell face place e' :=
      fun e' he' => { hrest e' he' with }
    refine .cons ?_ (ih hkept)
    have hwaiting : ({ g with mode := .element rest.length } : Gathered K d).Accepts cell face
        place e := { he with }
    show readLine { g with mode := .element rest.length } (spaced e.words) = _
    simp only [readLine, readElement_words he.tags_lt]
    show (({ g with mode := .element rest.length } : Gathered K d).addElement _ >>= _) = _
    rw [addElement_listed hroles hwaiting]
    cases rest.length <;> rfl

theorem leads_elementLines (hroles : Roles d cell face) {l : Listing K}
    (hmode : g.mode = .outside) (hseen : g.formatSeen = true)
    (hlt : l.elements.length < 2 ^ 64)
    (haccepts : ∀ e ∈ l.elements, g.Accepts cell face place e) :
    g.Leads l.elementLines
      { g.addElements cell face place l.elements with mode := .outside } := by
  have hopening : g.readLine "$Elements".toList = .ok { g with mode := .elementCount } := by
    simp only [readLine, hmode]
    rfl
  refine leads_enclosed .element hopening ?_ (by decide) ?_ hseen
  · simp only [readLine, List.length_map, natural_trim_numeral hlt]
    rfl
  · rw [List.length_map]
    exact leads_elements hroles haccepts

end Gathered
end Msh
end HexMesh
