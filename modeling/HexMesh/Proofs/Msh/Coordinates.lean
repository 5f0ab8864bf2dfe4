import HexMesh.Proofs.Mesh.Exchange
import HexMesh.Proofs.Msh.Gathered
import HexMesh.Proofs.Number.Rational
import HexMesh.Proofs.Text.Lines

/-!
What a mesh file says about the mesh does not depend on its coordinates.

Two files that differ in the coordinates of nodes are read in lockstep: after each line the
reader has gathered the same from both but for the places of the vertices.  At the end the
coordinates decide which cells are turned over, and with them nothing that is named by keys.
-/

namespace HexMesh
namespace Msh

open HexMesh.Cube

variable {K : Type} {d : Nat}

/-! ## Files with the same lines but for coordinates -/

/-- Two node lines with the same tag and as many coordinates.  As many of these as the mesh has
axes can be read. -/
def OtherCoordinates (K : Type) [Numeral K] (d : Nat) (text text' : List Char) : Prop :=
  ∃ tag coords coords', fields text = tag :: coords ∧ fields text' = tag :: coords' ∧
    coords'.length = coords.length ∧
    ∀ w ∈ coords.take d ++ coords'.take d, (Numeral.read? (K := K) w).isSome

/-- Two files with the same lines, except that a line at which the reader expects a node may
have other coordinates in the second file. -/
structure SameButCoordinates (K : Type) [Scalar K] [Numeral K] (d : Nat)
    (lines lines' : List Line) : Prop where
  length : lines'.length = lines.length
  line : ∀ n (g : Gathered K d), scan d (lines.take n) = .ok g →
    lines'[n]? = lines[n]? ∨
    ∃ more text text', g.mode = .node more ∧ lines[n]? = some (some text) ∧
      lines'[n]? = some (some text') ∧ OtherCoordinates K d text text'

theorem exists_mapM_scalar [Numeral K] {coords : List (List Char)} (hlength : d ≤ coords.length)
    (hread : ∀ w ∈ coords.take d, (Numeral.read? (K := K) w).isSome) :
    ∃ ps : Vector K d,
      (Vector.ofFn fun a : Fin d => coords.getD a []).mapM (scalar .coordinate) = .ok ps := by
  have hplace (a : Fin d) : ∃ x : K, scalar .coordinate (coords.getD a []) = .ok x := by
    have ha : a.val < coords.length := Nat.lt_of_lt_of_le a.isLt hlength
    have hmem : coords.getD a [] ∈ coords.take d := by
      rw [List.getD_eq_getElem?_getD, List.getElem?_eq_getElem ha, Option.getD_some]
      exact List.mem_take_iff_getElem.mpr ⟨a.val, by omega, rfl⟩
    obtain ⟨x, hx⟩ := Option.isSome_iff_exists.mp (hread _ hmem)
    exact ⟨x, by rw [scalar, hx]⟩
  choose value hvalue using hplace
  refine ⟨Vector.ofFn value, mapM_vector_eq_ok ?_⟩
  rw [Vector.toList_ofFn, Vector.toList_ofFn, List.map_ofFn, List.map_ofFn]
  exact congrArg List.ofFn (funext hvalue)

theorem readNode_matches [Numeral K] (hd : d ≤ 3) {text text' : List Char}
    (h : OtherCoordinates K d text text') :
    Matches (fun a b : Nat × Point K d => b.1 = a.1) (readNode text) (readNode text') := by
  obtain ⟨tag, coords, coords', hfields, hfields', hlength, hread⟩ := h
  rw [List.forall_mem_append] at hread
  rw [readNode, readNode, hfields, hfields']
  show Matches _ (if coords.length < 3 then _ else _) (if coords'.length < 3 then _ else _)
  rw [hlength]
  by_cases hshort : coords.length < 3
  · rw [if_pos hshort, if_pos hshort]
    exact .error _
  · -- The tag is the same, and if it can be read nothing else can fail.
    rw [if_neg hshort, if_neg hshort]
    obtain ⟨ps, hps⟩ := exists_mapM_scalar (by omega) hread.1
    obtain ⟨ps', hps'⟩ := exists_mapM_scalar (by omega) hread.2
    refine (Matches.refl _).bind fun t t' ht => ?_
    rw [hps, hps']
    exact .ok ht.symm

/-! ## Two readers in lockstep -/

namespace Gathered

/-- The same was gathered, but for the places of the vertices. -/
def Displaces (g g' : Gathered K d) : Prop :=
  ∃ ps : Array (Point K d), ps.size = g.vertices.size ∧ g' = { g with vertices := ps }

variable {g g' : Gathered K d} {entry : Nat → Mode} {text text' : List Char}

theorem Displaces.refl (g : Gathered K d) : g.Displaces g := ⟨g.vertices, rfl, rfl⟩

theorem Displaces.mode_eq (h : g.Displaces g') : g'.mode = g.mode := by
  obtain ⟨ps, -, rfl⟩ := h
  rfl

theorem Displaces.withMode (h : g.Displaces g') (mode : Mode) :
    ({ g with mode } : Gathered K d).Displaces { g' with mode } := by
  obtain ⟨ps, hsize, rfl⟩ := h
  exact ⟨ps, hsize, rfl⟩

theorem Displaces.awaiting (h : g.Displaces g') (endMarker : String) (n : Nat) :
    (g.awaiting entry endMarker n).Displaces (g'.awaiting entry endMarker n) := by
  cases n with
  | zero => exact h.withMode _
  | succ n => exact h.withMode _

theorem Displaces.addNode (h : g.Displaces g') (tag : Nat) (p p' : Point K d) :
    (g.addNode tag p).Displaces (g'.addNode tag p') := by
  obtain ⟨ps, hsize, rfl⟩ := h
  refine ⟨ps.push p', ?_, ?_⟩
  · rw [Array.size_push, hsize]
    exact (Array.size_push p).symm
  · rw [Gathered.addNode, hsize]
    rfl

theorem Displaces.opening (h : g.Displaces g') (text : List Char) :
    Matches Displaces (g.opening text) (g'.opening text) := by
  unfold Gathered.opening
  dsimp only
  split
  · exact .ok (h.withMode _)
  split
  · exact .ok (h.withMode _)
  split
  · exact .ok (h.withMode _)
  split
  · exact .ok (h.withMode _)
  split
  · exact .ok h
  · exact .error _

theorem Displaces.addElement (h : g.Displaces g') (e : Element) :
    Matches Displaces (g.addElement e) (g'.addElement e) := by
  obtain ⟨ps, hsize, rfl⟩ := h
  unfold Gathered.addElement
  split
  · split
    · exact .error _
    · exact (Matches.refl (g.resolve e.nodes)).bind fun vs _ hvs => hvs ▸ .ok ⟨ps, hsize, rfl⟩
  split
  · split
    · exact .error _
    split
    · exact .error _
    · exact (Matches.refl (g.resolve e.nodes)).bind fun vs _ hvs => hvs ▸ .ok ⟨ps, hsize, rfl⟩
  · exact .ok ⟨ps, hsize, rfl⟩

variable [Scalar K] [Numeral K]

theorem Displaces.readLine (h : g.Displaces g') (text : List Char) :
    Matches Displaces (g.readLine text) (g'.readLine text) := by
  -- Only node lines write vertices, no line reads them, and the mode says which line it is.
  unfold Gathered.readLine
  rw [h.mode_eq]
  cases g.mode with
  | outside => exact h.opening text
  | format => exact (Matches.refl _).bind fun _ _ _ => .ok (h.withMode _)
  | closing marker =>
    dsimp only
    split
    · obtain ⟨ps, hsize, rfl⟩ := h
      exact .ok ⟨ps, hsize, rfl⟩
    · exact .ok h
  | nodeCount => exact (Matches.refl _).bind fun n _ hn => hn ▸ .ok (h.awaiting _ n)
  | node more =>
    exact (Matches.refl _).bind fun e _ he => he ▸ .ok ((h.addNode e.1 e.2 e.2).awaiting _ more)
  | elementCount => exact (Matches.refl _).bind fun n _ hn => hn ▸ .ok (h.awaiting _ n)
  | element more =>
    exact (Matches.refl _).bind fun e _ he =>
      he ▸ (h.addElement e).bind fun _ _ h₁ => .ok (h₁.awaiting _ more)

theorem Displaces.readLine_node (hd : d ≤ 3) (h : g.Displaces g') {more : Nat}
    (mode : g.mode = .node more) (hother : OtherCoordinates K d text text') :
    Matches Displaces (g.readLine text) (g'.readLine text') := by
  unfold Gathered.readLine
  rw [h.mode_eq, mode]
  refine (readNode_matches hd hother).bind fun e e' he => ?_
  obtain ⟨tag, p⟩ := e
  obtain ⟨tag', p'⟩ := e'
  obtain rfl : tag' = tag := he
  exact .ok ((h.addNode tag' p p').awaiting _ more)

theorem step_matches {R : Gathered K d → Gathered K d → Prop}
    (h : Matches R (g.readLine text) (g'.readLine text')) (n : Nat) :
    Matches R (g.step (some text, n)) (g'.step (some text', n)) := by
  rw [step, step]
  generalize g.readLine text = x, g'.readLine text' = y at h ⊢
  cases h with
  | ok related => exact .ok related
  | error f => exact .error _

end Gathered

variable [Scalar K] [Numeral K]

theorem SameButCoordinates.scan (hd : d ≤ 3) {lines lines' : List Line}
    (h : SameButCoordinates K d lines lines') :
    Matches Gathered.Displaces (scan (K := K) d lines) (scan d lines') := by
  refine scan_matches h.length (.refl _) fun n g g' line line' before hg hline hline' => ?_
  rcases h.line n g before with hsame | ⟨more, text, text', mode, htext, htext', hother⟩
  · obtain rfl : line' = line := by
      rw [hline, hline'] at hsame
      exact Option.some.inj hsame
    cases line' with
    | none => exact .error _
    | some text => exact Gathered.step_matches (hg.readLine text) _
  · obtain rfl : line = some text := Option.some.inj (hline.symm.trans htext)
    obtain rfl : line' = some text' := Option.some.inj (hline'.symm.trans htext')
    exact Gathered.step_matches (hg.readLine_node hd mode hother) _

/-! ## The two meshes -/

omit [Numeral K] in
theorem oriented_cases (vertices : Array (Point K d)) (c : Cell d) :
    Gathered.oriented vertices c = c ∨ Gathered.oriented vertices c = c.exchanged := by
  dsimp only [Gathered.oriented]
  split
  · exact Or.inr rfl
  · exact Or.inl rfl

omit [Numeral K] in
theorem Gathered.Displaces.turnsCells {g g' : Gathered K d} (h : g.Displaces g') :
    g.mesh.TurnsCells g'.mesh := by
  obtain ⟨ps, hsize, rfl⟩ := h
  rw [mesh_eq, mesh_eq]
  refine ⟨hsize, rfl, ?_⟩
  rw [List.forall₂_map_left_iff, List.forall₂_map_right_iff, List.forall₂_same]
  intro c _
  -- Either place may turn the cell over, and turned over twice it is what it was.
  rcases oriented_cases g.vertices c with hc | hc <;>
    rcases oriented_cases ps c with hc' | hc' <;>
    simp [hc, hc']

omit [Numeral K] in
theorem Gathered.Displaces.finish {g g' : Gathered K d} (h : g.Displaces g') (lineCount : Nat) :
    Matches Mesh.TurnsCells (g.finish lineCount) (g'.finish lineCount) := by
  have hmesh := h.turnsCells
  obtain ⟨ps, hsize, rfl⟩ := h
  have hmissing : ({ g with vertices := ps } : Gathered K d).missing? = g.missing? := rfl
  rw [Gathered.finish, Gathered.finish, hmissing]
  cases g.missing? with
  | some f => exact .error _
  | none =>
    dsimp only
    split
    · exact .error _
    split
    · exact .error _
    · exact .ok hmesh

/-- Two files that differ in coordinates only are both refused, with the same fault, or they are
read as meshes that differ in the positions of vertices and in that cells are turned over.
The boundary, its indicators and the edges are the same. -/
theorem read_coordinates (hd : d = 2 ∨ d = 3) {bytes bytes' : List UInt8}
    (h : SameButCoordinates K d (Line.ofBytes bytes) (Line.ofBytes bytes')) :
    (∃ fault, read (K := K) d bytes = .error fault ∧ read (K := K) d bytes' = .error fault) ∨
    ∃ m m' : Mesh K d, read d bytes = .ok m ∧ read d bytes' = .ok m' ∧
      m'.vertices.size = m.vertices.size ∧ m'.indicators = m.indicators ∧
      m'.boundaryVertices = m.boundaryVertices ∧
      (∀ output, Summary.ofMesh m' output = Summary.ofMesh m output) ∧
      m'.edges = m.edges ∧
      List.Forall₂ (fun c c' => c' = c ∨ c' = c.exchanged) m.cells m'.cells := by
  have hread : Matches Mesh.TurnsCells (read (K := K) d bytes) (read d bytes') := by
    rw [read, read, readLines_eq hd, readLines_eq hd, h.length]
    exact (h.scan (by omega)).bind fun g g' hg => hg.finish _
  generalize read (K := K) d bytes = x, read (K := K) d bytes' = y at hread ⊢
  cases hread with
  | error fault => exact Or.inl ⟨fault, rfl, rfl⟩
  | @ok m m' hm =>
    exact Or.inr ⟨m, m', rfl, rfl, hm.vertexCount, hm.indicators, hm.boundaryVertices_eq,
      hm.summary_eq, hm.edges_eq, hm.cells⟩

/-- A file of one square.  Where its last node lies decides whether it is turned over. -/
def squareFile (node : String) : List (List Char) :=
  ["$MeshFormat", "2.2 0 8", "$EndMeshFormat", "$Nodes", "4", "1 0 0 0", "2 1 0 0", "3 1 1 0", node,
    "$EndNodes", "$Elements", "2", "1 1 2 7 1 1 2", "2 3 2 0 1 1 2 3 4",
    "$EndElements"].map String.toList

theorem sameButCoordinates_squareFile :
    SameButCoordinates ℚ 2 ((squareFile "4 0 1 0").map some)
      ((squareFile "4 0 -1 0").map some) := by
  have hmode : (scan (K := ℚ) 2 (((squareFile "4 0 1 0").map some).take 8)).toOption.map
      Gathered.mode = some (.node 0) := by decide +kernel
  have hothers : ∀ n < 15, n ≠ 8 →
      ((squareFile "4 0 -1 0").map some)[n]? = ((squareFile "4 0 1 0").map some)[n]? := by decide
  refine ⟨rfl, fun n g hg => ?_⟩
  by_cases hn : n = 8
  · subst hn
    rw [hg] at hmode
    exact Or.inr ⟨0, _, _, Option.some.inj hmode, rfl, rfl, ['4'], [['0'], ['1'], ['0']],
      [['0'], ['-', '1'], ['0']], by decide, by decide, rfl, by decide +kernel⟩
  · refine Or.inl ?_
    rcases Nat.lt_or_ge n 15 with hlt | hge
    · exact hothers n hlt hn
    · rw [List.getElem?_eq_none hge, List.getElem?_eq_none hge]

theorem read_coordinates_square :
    (2 = 2 ∨ 2 = 3) ∧
    SameButCoordinates ℚ 2 (Line.ofBytes (Line.toBytes (squareFile "4 0 1 0")))
      (Line.ofBytes (Line.toBytes (squareFile "4 0 -1 0"))) ∧
    ∃ m m' : Mesh ℚ 2, read 2 (Line.toBytes (squareFile "4 0 1 0")) = .ok m ∧
      read 2 (Line.toBytes (squareFile "4 0 -1 0")) = .ok m' ∧
      m'.vertices.size = m.vertices.size ∧ m'.indicators = m.indicators ∧
      m'.boundaryVertices = m.boundaryVertices ∧
      (∀ output, Summary.ofMesh m' output = Summary.ofMesh m output) ∧
      m'.edges = m.edges ∧
      List.Forall₂ (fun c c' => c' = c ∨ c' = c.exchanged) m.cells m'.cells ∧
      m.cells.map Vector.toList = [[0, 1, 3, 2]] ∧ m'.cells.map Vector.toList = [[3, 2, 0, 1]] := by
  have hlines : Line.ofBytes (Line.toBytes (squareFile "4 0 1 0")) =
      (squareFile "4 0 1 0").map some := Line.ofBytes_toBytes (by decide)
  have hlines' : Line.ofBytes (Line.toBytes (squareFile "4 0 -1 0")) =
      (squareFile "4 0 -1 0").map some := Line.ofBytes_toBytes (by decide)
  have hsame : SameButCoordinates ℚ 2 (Line.ofBytes (Line.toBytes (squareFile "4 0 1 0")))
      (Line.ofBytes (Line.toBytes (squareFile "4 0 -1 0"))) := by
    rw [hlines, hlines']
    exact sameButCoordinates_squareFile
  -- What the two files are read as is computed; that the meshes agree is not.
  have hcells : (read (K := ℚ) 2 (Line.toBytes (squareFile "4 0 1 0"))).toOption.map
      (fun m => m.cells.map Vector.toList) = some [[0, 1, 3, 2]] := by
    rw [read, hlines]
    decide +kernel
  have hcells' : (read (K := ℚ) 2 (Line.toBytes (squareFile "4 0 -1 0"))).toOption.map
      (fun m => m.cells.map Vector.toList) = some [[3, 2, 0, 1]] := by
    rw [read, hlines']
    decide +kernel
  rcases read_coordinates (Or.inl rfl) hsame with
    ⟨fault, hfault, -⟩ | ⟨m, m', hm, hm', hsize, hindicators, hboundary, hsummary, hedges, hturned⟩
  · rw [hfault] at hcells
    cases hcells
  · rw [hm] at hcells
    rw [hm'] at hcells'
    exact ⟨Or.inl rfl, hsame, m, m', hm, hm', hsize, hindicators, hboundary, hsummary, hedges,
      hturned, Option.some.inj hcells, Option.some.inj hcells'⟩

end Msh
end HexMesh
