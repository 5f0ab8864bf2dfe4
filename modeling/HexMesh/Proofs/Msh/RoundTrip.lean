import HexMesh.Proofs.Msh.Sections
import HexMesh.Proofs.Number.Rational
import Mathlib.Data.List.FinRange

/-!
Reading a file that was written gives the mesh that it describes.

The three sections lead the reader to its end with exactly the nodes, the cells and the faces
of the listing.  What remains is to compare the mesh made of these with the description.
-/

namespace HexMesh
namespace Msh

open HexMesh.Cube

variable {K : Type} [Scalar K] [Numeral K] {d : Nat} {cell face : UInt32}

/-! ## What is gathered -/

theorem Roles.le_three (h : Roles d cell face) : d ≤ 3 := by
  cases h <;> decide

namespace Listing

omit [Scalar K] in
theorem mem_ofType {l : Listing K} {type : UInt32} {e : ListedElement} :
    e ∈ l.ofType type ↔ e ∈ l.elements ∧ e.type = type := by
  simp [ofType]

theorem Valid.accepts {l : Listing K} (hl : l.Valid d cell face) (hd : d ≤ 3) {g : Gathered K d}
    (hg : g.vertices = #[]) :
    ∀ e ∈ l.elements, (g.addNodes hd l.nodes).Accepts cell face l.place e := by
  intro e he
  refine ⟨hl.tags_lt e he, fun h => hl.cell_nodes e (mem_ofType.mpr ⟨he, h⟩),
    fun h => hl.face_nodes e (mem_ofType.mpr ⟨he, h⟩),
    fun h => hl.face_physical e (mem_ofType.mpr ⟨he, h⟩), fun h t ht => ?_⟩
  have hmem : e ∈ l.ofType cell ++ l.ofType face := by
    rw [List.mem_append, mem_ofType, mem_ofType]
    exact h.imp (⟨he, ·⟩) (⟨he, ·⟩)
  rw [Gathered.getElem?_vertexOfTag_addNodes hd hl.distinct, if_pos (hl.listed e hmem t ht), hg]
  simp [place]

theorem exists_scan {l : Listing K} (hroles : Roles d cell face) (hl : l.Valid d cell face) :
    ∃ g : Gathered K d, scan d (l.lines.map some) = .ok g ∧ g.mode = .outside ∧
      g.formatSeen = true ∧
      g.vertices.toList = l.nodes.map (ListedNode.point hroles.le_three) ∧
      g.cells.toList = (l.ofType cell).map (fun e => rawCell d (e.nodes.map l.place)) ∧
      g.faces.toList = (l.ofType face).map
        (fun e => (e.nodes.map l.place, e.physical.toNat.toUInt32)) := by
  have hd := hroles.le_three
  let start : Gathered K d := { formatSeen := true }
  let withNodes : Gathered K d := { start.addNodes hd l.nodes with mode := .outside }
  have hnodes : withNodes = { start with
      vertices := #[] ++ (l.nodes.map (ListedNode.point hd)).toArray
      vertexOfTag := (start.addNodes hd l.nodes).vertexOfTag } := by
    show { start.addNodes hd l.nodes with mode := .outside } = _
    rw [Gathered.addNodes_eq]
  have haccepts : ∀ e ∈ l.elements, withNodes.Accepts cell face l.place e := fun e he =>
    { hl.accepts hd (g := start) rfl e he with }
  have hformat : ({} : Gathered K d).Leads l.formatLines start :=
    Gathered.leads_format rfl hl.version
  have hnodeLines : start.Leads l.nodeLines withNodes :=
    Gathered.leads_nodeLines hd rfl rfl hl.nodes_lt
  have helementLines := Gathered.leads_elementLines (g := withNodes) hroles rfl
    (by rw [hnodes]) hl.elements_lt haccepts
  refine ⟨_, ((hformat.append hnodeLines).append helementLines).run 1, rfl, ?_, ?_, ?_, ?_⟩
  · show withNodes.formatSeen = true
    rw [hnodes]
  · show withNodes.vertices.toList = _
    rw [hnodes]
    simp
  · show (withNodes.cells ++ _).toList = _
    rw [hnodes]
    simp [start, ofType]
  · show (withNodes.faces ++ _).toList = _
    rw [hnodes]
    simp [start, ofType]

end Listing

/-! ## The mesh of what is gathered -/

omit [Scalar K] in
theorem ListedNode.toList_point (hd : d ≤ 3) (n : ListedNode K) :
    (n.point hd).coords.toList = (n.coordinates.toList.map Spelled.value).take d := by
  refine List.ext_getElem (by simp [hd]) fun i hi _ => ?_
  simp [point, Point.ofFn]
  rfl

/-- The places of the nodes are those of the format. -/
theorem toList_rawCell (hroles : Roles d cell face) {vs : List Nat} (hvs : vs.length = 2 ^ d) :
    (rawCell d vs).toList.map some = (cornerPlaces d).map (vs[·]?) := by
  have hplaces : (corners d).map (fun v : Corner d => nodePlace v) = cornerPlaces d := by
    cases hroles <;> decide
  have htoList : (rawCell d vs).toList =
      (corners d).map fun v : Corner d => vs.getD (nodePlace v) 0 := by
    rw [rawCell, Cell.ofFn, Vector.toList_ofFn, corners, List.ofFn_eq_map]
  rw [htoList, ← hplaces, List.map_map, List.map_map]
  refine List.map_congr_left fun v _ => ?_
  have hv : nodePlace v < vs.length := hvs ▸ nodePlace_lt v
  show some (vs.getD (nodePlace v) 0) = vs[nodePlace v]?
  rw [List.getD_eq_getElem?_getD, List.getElem?_eq_getElem hv, Option.getD_some]

namespace Listing

theorem isCell_oriented {l : Listing K} (hroles : Roles d cell face) {e : ListedElement}
    (he : e.nodes.length = 2 ^ d) (m : Mesh K d) :
    l.IsCell m e (Gathered.oriented m.vertices (rawCell d (e.nodes.map l.place))) := by
  have hpos : 0 < d := by cases hroles <;> decide
  have hhalf : cornerCount d / 2 = 2 ^ (d - 1) := by cases hroles <;> rfl
  refine ⟨_, toList_rawCell hroles (by rwa [List.length_map]), ?_⟩
  show (if Cell.orientation (m.cornerPoints _) < ((0 : Nat) : K) then
    (Cell.ofFn fun v => Vector.get _ v.across : Cell d) else _).toList = _
  split
  · rw [Cell.toList_across hpos, hhalf]
  · rfl

theorem describes_mesh {l : Listing K} (hroles : Roles d cell face) (hl : l.Valid d cell face)
    {g : Gathered K d}
    (hvertices : g.vertices.toList = l.nodes.map (ListedNode.point hroles.le_three))
    (hcells : g.cells.toList = (l.ofType cell).map (fun e => rawCell d (e.nodes.map l.place)))
    (hfaces : g.faces.toList = (l.ofType face).map
      (fun e => (e.nodes.map l.place, e.physical.toNat.toUInt32))) :
    l.Describes cell face g.mesh := by
  have hsame : g.mesh.vertices = g.vertices := by rw [Gathered.mesh_eq]
  refine ⟨?_, ?_, fun k => ?_, by rw [Gathered.mesh_eq]⟩
  · rw [hsame, hvertices, List.map_map]
    exact List.map_congr_left fun n _ => n.toList_point _
  · have hmesh : g.mesh.cells = (l.ofType cell).map fun e =>
        Gathered.oriented g.mesh.vertices (rawCell d (e.nodes.map l.place)) := by
      rw [hsame, Gathered.mesh_eq]
      dsimp only
      rw [hcells, List.map_map]
      rfl
    rw [hmesh, List.forall₂_map_right_iff, List.forall₂_same]
    exact fun e he => isCell_oriented hroles (hl.cell_nodes e he) _
  · have hmesh : g.mesh.indicators = KeyMap.ofEntries ((l.ofType face).map fun e =>
        (Key.ofList (e.nodes.map l.place), e.physical.toNat.toUInt32)) := by
      rw [Gathered.mesh_eq]
      dsimp only
      rw [hfaces, List.map_map]
      rfl
    rw [hmesh, KeyMap.getElem?_ofEntries_map, Option.map_map]
    refine Option.map_congr fun e he => ?_
    have hmem := (List.mem_filter.mp (List.mem_of_getLast? he)).1
    exact UInt32.toNat_ofNat_of_lt' (hl.face_physical e hmem)

theorem exists_read {l : Listing K} (hroles : Roles d cell face) (hl : l.Valid d cell face) :
    ∃ m : Mesh K d, read d l.bytes = .ok m ∧ l.Describes cell face m := by
  obtain ⟨g, hscan, hmode, hseen, hvertices, hcells, hfaces⟩ := exists_scan hroles hl
  refine ⟨g.mesh, ?_, describes_mesh hroles hl hvertices hcells hfaces⟩
  have hsome : g.cells.isEmpty = false := by
    have hne : g.cells.toList ≠ [] := by
      rw [hcells]
      exact fun h => hl.cell_exists (List.map_eq_nil_iff.mp h)
    simpa using hne
  have hmissing : g.missing? = none := by rw [Gathered.missing?, hmode]
  rw [read, bytes, Line.ofBytes_toBytes l.unbroken_lines, readLines_eq hroles.dimension, hscan]
  exact Gathered.finish_eq_ok_iff.mpr ⟨hmissing, hseen, hsome, rfl⟩

/-! ## Elements of other types -/

section Restrict

variable {l : Listing K}

omit [Scalar K] in
theorem ofType_restrict {type : UInt32} (h : type = cell ∨ type = face) :
    (l.restrict cell face).ofType type = l.ofType type := by
  rw [ofType, restrict, List.filter_filter, ofType]
  refine List.filter_congr fun e _ => ?_
  by_cases he : e.type = type
  · subst he
    simp [h]
  · simp [he]

theorem Valid.restrict (hl : l.Valid d cell face) : (l.restrict cell face).Valid d cell face where
  version := hl.version
  distinct := hl.distinct
  cell_nodes := ofType_restrict (l := l) (Or.inl rfl) ▸ hl.cell_nodes
  face_nodes := ofType_restrict (l := l) (Or.inr rfl) ▸ hl.face_nodes
  face_physical := ofType_restrict (l := l) (Or.inr rfl) ▸ hl.face_physical
  listed := by
    rw [ofType_restrict (Or.inl rfl), ofType_restrict (Or.inr rfl)]
    exact hl.listed
  cell_exists := ofType_restrict (l := l) (Or.inl rfl) ▸ hl.cell_exists
  nodes_lt := hl.nodes_lt
  elements_lt := Nat.lt_of_le_of_lt (List.length_filter_le _ _) hl.elements_lt
  tags_lt e he := hl.tags_lt e (List.mem_filter.mp he).1

theorem describes_restrict {m : Mesh K d} :
    (l.restrict cell face).Describes cell face m ↔ l.Describes cell face m := by
  constructor
  · intro h
    exact ⟨h.vertices, ofType_restrict (l := l) (Or.inl rfl) ▸ h.cells,
      ofType_restrict (l := l) (Or.inr rfl) ▸ h.indicators, h.shapes⟩
  · intro h
    refine ⟨h.vertices, ?_, ?_, h.shapes⟩
    · rw [ofType_restrict (Or.inl rfl)]
      exact h.cells
    · rw [ofType_restrict (Or.inr rfl)]
      exact h.indicators

end Restrict

end Listing

/-- A file that lists nodes and elements is read as the mesh that they describe, and elements
that are neither cells nor faces make no difference. -/
theorem read_listing {l : Listing K} (hroles : Roles d cell face) (hl : l.Valid d cell face) :
    (∃ m : Mesh K d, read d l.bytes = .ok m ∧ l.Describes cell face m) ∧
      read (K := K) d (l.restrict cell face).bytes = read d l.bytes := by
  obtain ⟨m, hm, hdescribes⟩ := Listing.exists_read hroles hl
  obtain ⟨m', hm', hdescribes'⟩ := Listing.exists_read hroles hl.restrict
  refine ⟨⟨m, hm, hdescribes⟩, ?_⟩
  rw [hm, hm', (Listing.describes_restrict.mp hdescribes').unique hdescribes]

/-- A square listed clockwise and without a tag, a side of it that is listed twice, the second
time without a tag, and a point at a node that is not listed. -/
def clockwiseSquare : Listing ℚ :=
  let zero : Spelled ℚ := ⟨['0'], 0, by decide +kernel⟩
  let half : Spelled ℚ := ⟨['5', 'e', '-', '1'], 1 / 2, by decide +kernel⟩
  { version := ⟨['2', '.', '2'], 11 / 5, by decide +kernel⟩
    nodes := [⟨7, #v[zero, zero, zero]⟩, ⟨3, #v[half, zero, zero]⟩, ⟨12, #v[half, half, zero]⟩,
      ⟨5, #v[zero, half, zero]⟩]
    elements := [⟨1, 15, [0, 1], [99]⟩, ⟨2, 1, [4, 1], [7, 3]⟩, ⟨3, 3, [], [7, 5, 12, 3]⟩,
      ⟨4, 1, [], [3, 7]⟩] }

theorem read_listing_clockwise :
    Roles 2 3 1 ∧ clockwiseSquare.Valid 2 3 1 ∧
      (∃ m : Mesh ℚ 2, read 2 clockwiseSquare.bytes = .ok m ∧ clockwiseSquare.Describes 3 1 m ∧
        (m.indicators[([0, 1] : Key)]?).map UInt32.toNat = some 0) ∧
      read (K := ℚ) 2 (clockwiseSquare.restrict 3 1).bytes = read 2 clockwiseSquare.bytes := by
  have hlisted : (clockwiseSquare.ofType 3 ++ clockwiseSquare.ofType 1).all (fun e =>
      e.nodes.all (clockwiseSquare.nodes.map ListedNode.tag).contains) = true := by decide +kernel
  have hvalid : clockwiseSquare.Valid 2 3 1 :=
    { version := by decide +kernel
      distinct := by decide +kernel
      cell_nodes := by decide +kernel
      face_nodes := by decide +kernel
      face_physical := by decide +kernel
      listed := fun e he t ht => List.contains_iff_mem.mp
        (List.all_eq_true.mp (List.all_eq_true.mp hlisted e he) t ht)
      cell_exists := by decide +kernel
      nodes_lt := by decide +kernel
      elements_lt := by decide +kernel
      tags_lt := by decide +kernel }
  obtain ⟨⟨m, hm, hdescribes⟩, hothers⟩ := read_listing .plane hvalid
  refine ⟨.plane, hvalid, ⟨m, hm, hdescribes, ?_⟩, hothers⟩
  rw [hdescribes.indicators]
  decide +kernel

end Msh
end HexMesh
