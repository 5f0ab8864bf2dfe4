import HexMesh.Proofs.Msh.Scan
import HexMesh.Proofs.Topology.Key

/-!
What is true of everything the reader has gathered, after any number of lines.

`Gathered.Valid` keeps all vertex numbers in range.  `Gathered.Sourced` ties each cell and
each indicator to an element line of the file, whose numbers it repeats exactly.
-/

namespace HexMesh
namespace Msh

open HexMesh.Cube

variable {K : Type} {d : Nat}

theorem nodePlace_lt (v : Corner d) : nodePlace v < cornerCount d := by
  unfold nodePlace
  by_cases hbit : v.val.testBit 1 = true
  · rw [if_pos hbit]
    have hd : d ≠ 0 := by
      rintro rfl
      have hv : v.val = 0 := Nat.lt_one_iff.mp v.isLt
      rw [hv] at hbit
      cases hbit
    exact Nat.xor_lt_two_pow v.isLt (Nat.one_lt_two_pow hd)
  · rw [if_neg hbit]
    exact v.isLt

theorem Spells.unique {line : List Char} {a b : List Nat} (ha : Spells line a)
    (hb : Spells line b) : a = b :=
  List.map_injective_iff.mpr (fun _ _ => Option.some.inj) (ha.symm.trans hb)

/-- The reader, having gone through the lines before it, takes line `n` for an element, and
these are the numbers on it. -/
def IsElement (K : Type) [Scalar K] [Numeral K] (d : Nat) (lines : List Line) (n : Nat)
    (numbers : List Nat) : Prop :=
  ∃ (g : Gathered K d) (more : Nat) (text : List Char), scan d (lines.take n) = .ok g ∧
    g.mode = .element more ∧ lines[n]? = some (some text) ∧ Spells text numbers

/-- The reader, having gone through the lines before it, finds at line `n` the opening of the
section that tells the format. -/
def OpensFormat (K : Type) [Scalar K] [Numeral K] (d : Nat) (lines : List Line) (n : Nat) : Prop :=
  ∃ (g : Gathered K d) (text : List Char), scan d (lines.take n) = .ok g ∧ g.mode = .outside ∧
    lines[n]? = some (some text) ∧ trim text = "$MeshFormat".toList

namespace Gathered

variable {g g' : Gathered K d}

@[simp]
theorem cells_awaiting (g : Gathered K d) (entry : Nat → Mode) (endMarker : String) (n : Nat) :
    (g.awaiting entry endMarker n).cells = g.cells := by
  cases n <;> rfl

@[simp]
theorem formatSeen_awaiting (g : Gathered K d) (entry : Nat → Mode) (endMarker : String)
    (n : Nat) : (g.awaiting entry endMarker n).formatSeen = g.formatSeen := by
  cases n <;> rfl

/-! ## Vertex numbers -/

/-- Every vertex number that was gathered exists. -/
structure Valid (g : Gathered K d) : Prop where
  tag_lt : ∀ {t v : Nat}, g.vertexOfTag[t]? = some v → v < g.vertices.size
  cell_lt : ∀ c ∈ g.cells, ∀ v ∈ c.toList, v < g.vertices.size
  face_lt : ∀ f ∈ g.faces, ∀ v ∈ f.1, v < g.vertices.size

theorem valid_empty : ({} : Gathered K d).Valid where
  tag_lt h := by simp at h
  cell_lt c hc := by simp at hc
  face_lt f hf := by simp at hf

theorem Valid.of_eq (h : g.Valid) (htags : g'.vertexOfTag = g.vertexOfTag)
    (hvertices : g'.vertices = g.vertices) (hcells : g'.cells = g.cells)
    (hfaces : g'.faces = g.faces) : g'.Valid where
  tag_lt ht := by
    rw [hvertices]
    exact h.tag_lt (htags ▸ ht)
  cell_lt c hc := by
    rw [hvertices]
    exact h.cell_lt c (hcells ▸ hc)
  face_lt f hf := by
    rw [hvertices]
    exact h.face_lt f (hfaces ▸ hf)

theorem Valid.awaiting (h : g.Valid) (entry : Nat → Mode) (endMarker : String) (n : Nat) :
    (g.awaiting entry endMarker n).Valid := by
  cases n <;> exact h.of_eq rfl rfl rfl rfl

theorem Valid.found_lt (h : g.Valid) {tags vs : List Nat}
    (found : tags.map (g.vertexOfTag[·]?) = vs.map some) : ∀ v ∈ vs, v < g.vertices.size := by
  intro v hv
  have hmem : some v ∈ tags.map (g.vertexOfTag[·]?) := found ▸ List.mem_map_of_mem hv
  obtain ⟨t, -, ht⟩ := List.mem_map.mp hmem
  exact h.tag_lt ht

theorem length_found {tags vs : List Nat}
    (found : tags.map (g.vertexOfTag[·]?) = vs.map some) : vs.length = tags.length := by
  have hlength := congrArg List.length found
  simpa using hlength.symm

theorem Valid.addNode (h : g.Valid) (tag : Nat) (p : Point K d) : (g.addNode tag p).Valid := by
  have hsize : (g.addNode tag p).vertices.size = g.vertices.size + 1 := Array.size_push p
  refine ⟨fun {t v} ht => ?_, fun c hc v hv => ?_, fun f hf v hv => ?_⟩
  · rw [hsize]
    have ht : (g.vertexOfTag.insert tag g.vertices.size)[t]? = some v := ht
    rw [Std.ExtTreeMap.getElem?_insert] at ht
    split at ht
    · cases ht
      omega
    · have hv := h.tag_lt ht
      omega
  · have hlt := h.cell_lt c hc v hv
    omega
  · have hlt := h.face_lt f hf v hv
    omega

theorem Gains.valid {e : Element} (h : g.Valid) (gains : g.Gains e g') : g'.Valid := by
  cases gains with
  | @cell vs type count found =>
    refine { h with cell_lt := fun c hc v hv => ?_ }
    rcases Array.mem_push.mp hc with hc | rfl
    · exact h.cell_lt c hc v hv
    · obtain ⟨corner, rfl⟩ := Cell.mem_toList_iff.mp hv
      rw [Cell.get_ofFn]
      have hplace : nodePlace corner < vs.length := by
        rw [length_found found, count]
        exact nodePlace_lt corner
      rw [List.getD_eq_getElem?_getD, List.getElem?_eq_getElem hplace, Option.getD_some]
      exact h.found_lt found _ (List.getElem_mem hplace)
  | face noCell type count physical found =>
    refine { h with face_lt := fun f hf v hv => ?_ }
    rcases Array.mem_push.mp hf with hf | rfl
    · exact h.face_lt f hf v hv
    · exact h.found_lt found v hv
  | other => exact h

variable [Scalar K] [Numeral K]

theorem Takes.valid {line : List Char} (h : g.Valid) (takes : g.Takes line g') : g'.Valid := by
  cases takes with
  | blank | skips => exact h
  | opens | format | closes => exact h.of_eq rfl rfl rfl rfl
  | nodeCount | elementCount => exact h.awaiting _ _ _
  | node => exact (h.addNode _ _).awaiting _ _ _
  | element mode read gains => exact (gains.valid h).awaiting _ _ _

/-! ## Where cells and indicators come from -/

/-- Each cell and each face comes from an element line.  The type and the physical tag on
that line are the ones that count, not their remainders by the size of a word. -/
structure Sourced (lines : List Line) (g : Gathered K d) : Prop where
  cells : ∀ c ∈ g.cells, ∃ (n number : Nat) (tags nodes : List Nat),
    IsElement K d lines n (number :: cellType d :: tags.length :: (tags ++ nodes)) ∧
      nodes.length = cornerCount d
  faces : ∀ f ∈ g.faces, ∃ (n number : Nat) (tags nodes : List Nat),
    IsElement K d lines n (number :: faceType d :: tags.length :: (tags ++ nodes)) ∧
      nodes.length = f.1.length ∧ f.1.length = cornerCount (d - 1) ∧ f.2.toNat = tags.headD 0

theorem Sourced.of_eq {lines : List Line} (h : g.Sourced lines) (hcells : g'.cells = g.cells)
    (hfaces : g'.faces = g.faces) : g'.Sourced lines where
  cells := hcells ▸ h.cells
  faces := hfaces ▸ h.faces

theorem Sourced.awaiting {lines : List Line} (h : g.Sourced lines) (entry : Nat → Mode)
    (endMarker : String) (n : Nat) : (g.awaiting entry endMarker n).Sourced lines := by
  cases n <;> exact h.of_eq rfl rfl

theorem Takes.sourced {lines : List Line} {n : Nat} {text : List Char}
    (before : scan d (lines.take n) = .ok g) (line : lines[n]? = some (some text))
    (h : g.Sourced lines) (takes : g.Takes text g') : g'.Sourced lines := by
  cases takes with
  | blank | skips => exact h
  | opens | format | closes => exact h.of_eq rfl rfl
  | nodeCount | elementCount => exact h.awaiting _ _ _
  | @node more tag p =>
    have hnode : (g.addNode tag p).Sourced lines := h.of_eq rfl rfl
    exact hnode.awaiting _ _ _
  | @element more e g₁ mode read gains =>
    obtain ⟨number, tags, hspells, -, hphysical⟩ := readElement_eq_ok_iff.mp read
    have hline : IsElement K d lines n (number :: e.type :: tags.length :: (tags ++ e.nodes)) :=
      ⟨g, more, text, before, mode, line, hspells⟩
    refine Sourced.awaiting ?_ _ _ _
    cases gains with
    | cell type count found =>
      refine { h with cells := fun c hc => ?_ }
      rcases Array.mem_push.mp hc with hc | rfl
      · exact h.cells c hc
      · exact ⟨n, number, tags, e.nodes, type ▸ hline, count⟩
    | face noCell type count physical found =>
      refine { h with faces := fun f hf => ?_ }
      rcases Array.mem_push.mp hf with hf | rfl
      · exact h.faces f hf
      · have hlength := length_found found
        refine ⟨n, number, tags, e.nodes, type ▸ hline, hlength.symm, hlength.trans count, ?_⟩
        rw [← hphysical]
        exact UInt32.toNat_ofNat_of_lt' physical
    | other => exact h

/-! ## What is not lost -/

theorem Takes.size_cells_le {line : List Char} (takes : g.Takes line g') :
    g.cells.size ≤ g'.cells.size := by
  cases takes with
  | blank | skips | opens | format | closes => exact Nat.le_refl _
  | nodeCount | elementCount | node =>
    simp only [nodesLeft, elementsLeft, cells_awaiting]
    exact Nat.le_refl _
  | element mode read gains =>
    rw [elementsLeft, cells_awaiting]
    cases gains with
    | cell =>
      rw [Array.size_push]
      exact Nat.le_succ _
    | face | other => exact Nat.le_refl _

theorem Takes.cells_pos {line : List Char} {more number : Nat} {rest : List Nat}
    (takes : g.Takes line g') (mode : g.mode = .element more)
    (spells : Spells line (number :: cellType d :: rest)) : 0 < g'.cells.size := by
  cases takes with
  | @element more' e g₁ mode' read gains =>
    obtain ⟨number', tags, hspells, -, -⟩ := readElement_eq_ok_iff.mp read
    have htype : e.type = cellType d := by
      have heq := hspells.unique spells
      simp only [List.cons.injEq] at heq
      exact heq.2.1
    have hg₁ : 0 < g₁.cells.size := by
      cases gains with
      | cell =>
        rw [Array.size_push]
        exact Nat.succ_pos _
      | face noCell => exact absurd htype noCell
      | other noCell => exact absurd htype noCell
    rw [elementsLeft, cells_awaiting]
    exact hg₁
  | blank mode' | opens mode' | format mode' | closes mode' | skips mode' | nodeCount mode'
  | node mode' | elementCount mode' =>
    rw [mode] at mode'
    cases mode'

/-- The section that tells the format was read or is being read. -/
def FormatMet (g : Gathered K d) : Prop :=
  g.formatSeen = true ∨ g.mode = .format ∨ g.mode = .closing formatMarker

theorem Takes.formatMet_of_opening {line : List Char} (takes : g.Takes line g')
    (mode : g.mode = .outside) (opening : trim line = "$MeshFormat".toList) : g'.FormatMet := by
  cases takes with
  | blank mode' empty => cases empty.symm.trans opening
  | opens mode' format => exact Or.inr (Or.inl (format opening))
  | format mode' | closes mode' | skips mode' | nodeCount mode' | node mode'
  | elementCount mode' | element mode' =>
    rw [mode] at mode'
    cases mode'

theorem Takes.formatMet {line : List Char} (h : g.FormatMet) (takes : g.Takes line g') :
    g'.FormatMet := by
  have hseen {mode : Mode} (hmode : g.mode = mode) (hformat : mode ≠ .format)
      (hclosing : mode ≠ .closing formatMarker) : g.formatSeen = true := by
    rcases h with h | h | h
    · exact h
    · exact absurd (hmode.symm.trans h) hformat
    · exact absurd (hmode.symm.trans h) hclosing
  cases takes with
  | blank | skips => exact h
  | opens mode => exact Or.inl (hseen mode (by simp) (by simp))
  | format => exact Or.inr (Or.inr rfl)
  | @closes marker mode found =>
    refine Or.inl ?_
    -- Another section's end leaves the flag alone, and the format was met before it.
    show (g.formatSeen || decide (marker = formatMarker)) = true
    by_cases hmarker : marker = formatMarker
    · rw [decide_eq_true hmarker, Bool.or_true]
    · rw [hseen mode (by simp) (by simpa using hmarker), Bool.true_or]
  | nodeCount mode | elementCount mode =>
    exact Or.inl ((formatSeen_awaiting _ _ _ _).trans (hseen mode (by simp) (by simp)))
  | @node more tag p mode read =>
    exact Or.inl
      ((formatSeen_awaiting (g.addNode tag p) _ _ _).trans (hseen mode (by simp) (by simp)))
  | @element more e g₁ mode read gains =>
    have hg₁ : g₁.formatSeen = g.formatSeen := by cases gains <;> rfl
    exact Or.inl ((formatSeen_awaiting _ _ _ _).trans (hg₁.trans (hseen mode (by simp) (by simp))))

end Gathered

/-! ## The mesh -/

theorem foldl_setIndicator (faces : List (List Nat × Indicator)) (m : Mesh K d) :
    faces.foldl (fun m f => m.setIndicator f.1 f.2) m =
      { m with
        indicators := (faces.map fun f => (Key.ofList f.1, f.2)).foldl
          (fun t e => t.insert e.1 e.2) m.indicators } := by
  induction faces generalizing m with
  | nil => rfl
  | cons f rest ih => exact ih _

section Mesh

variable [Scalar K]

theorem mem_oriented {vertices : Array (Point K d)} {c : Cell d} {v : Nat}
    (h : v ∈ (Gathered.oriented vertices c).toList) : v ∈ c.toList := by
  dsimp only [Gathered.oriented] at h
  split at h
  · obtain ⟨corner, rfl⟩ := Cell.mem_toList_iff.mp h
    rw [Cell.get_ofFn]
    exact c.get_mem _
  · exact h

theorem Gathered.mesh_eq (g : Gathered K d) :
    g.mesh =
      { vertices := g.vertices
        cells := g.cells.toList.map (oriented g.vertices)
        indicators := KeyMap.ofEntries (g.faces.toList.map fun f => (Key.ofList f.1, f.2)) } := by
  rw [mesh, ← Array.foldl_toList, foldl_setIndicator, Array.toList_map]
  rfl

theorem Gathered.Valid.wellFormed_mesh {g : Gathered K d} (h : g.Valid) : g.mesh.WellFormed := by
  rw [mesh_eq]
  refine ⟨fun c hc v hv => ?_, ?_, ?_⟩
  · obtain ⟨c, hmem, rfl⟩ := List.mem_map.mp hc
    exact h.cell_lt c (Array.mem_toList_iff.mp hmem) v (mem_oriented hv)
  · refine KeyMap.forall_mem_ofEntries fun e he v hv => ?_
    obtain ⟨f, hf, rfl⟩ := List.mem_map.mp he
    exact h.face_lt f (Array.mem_toList_iff.mp hf) v (Key.mem_ofList.mp hv)
  · refine KeyMap.forall_mem_ofEntries fun e he => ?_
    obtain ⟨f, -, rfl⟩ := List.mem_map.mp he
    exact Key.pairwise_ofList f.1

end Mesh

/-! ## What a complete run has found -/

variable [Scalar K] [Numeral K]

theorem scan_valid {lines : List Line} {g : Gathered K d} (h : scan d lines = .ok g) :
    g.Valid ∧ g.Sourced lines := by
  rw [← List.take_length (l := lines)] at h
  refine scan_induction (P := fun _ g => g.Valid ∧ g.Sourced lines) ?_ ?_ _ (Nat.le_refl _) g h
  · exact ⟨Gathered.valid_empty, fun c hc => by simp at hc, fun f hf => by simp at hf⟩
  · intro n g g' text before line takes hg
    exact ⟨takes.valid hg.1, takes.sourced before line hg.2⟩

theorem scan_cells_pos {lines : List Line} {g : Gathered K d} (h : scan d lines = .ok g)
    {n number : Nat} {rest : List Nat}
    (hline : IsElement K d lines n (number :: cellType d :: rest)) : 0 < g.cells.size := by
  obtain ⟨g₁, more, text, before, mode, line, spells⟩ := hline
  exact scan_after (P := fun g => 0 < g.cells.size) h before line
    (fun _ takes => takes.cells_pos mode spells)
    fun _ _ _ takes hg => Nat.lt_of_lt_of_le hg takes.size_cells_le

theorem scan_formatMet {lines : List Line} {g : Gathered K d} (h : scan d lines = .ok g) {n : Nat}
    (hline : OpensFormat K d lines n) : g.FormatMet := by
  obtain ⟨g₁, text, before, mode, line, opening⟩ := hline
  exact scan_after h before line (fun _ takes => takes.formatMet_of_opening mode opening)
    fun _ _ _ takes hg => takes.formatMet hg

end Msh
end HexMesh
