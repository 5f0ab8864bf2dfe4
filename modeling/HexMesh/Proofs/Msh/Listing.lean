import HexMesh.Msh.Reader
import HexMesh.Proofs.Text.Fields
import Mathlib.Algebra.Group.Nat.Defs
import Mathlib.Data.List.Forall2

/-!
Mesh files as they are written: what a file lists, its text, and the mesh that it describes.

The mesh is described without the reader, by the places of the nodes in the list and by the
numbers of the element types.
-/

namespace HexMesh

/-- A numeral together with the scalar that it spells. -/
structure Spelled (K : Type) [Numeral K] where
  text : List Char
  value : K
  read : Numeral.read? text = some value

theorem Spelled.word {K : Type} [Numeral K] (x : Spelled K) : Word x.text := by
  obtain ⟨decimal, hdecimal, -⟩ := Option.bind_eq_some_iff.mp x.read
  exact Decimal.word_of_read? hdecimal

namespace Msh

/-- A node: its tag and its three coordinates, whatever the dimension of the mesh. -/
structure ListedNode (K : Type) [Numeral K] where
  tag : UInt64
  coordinates : Vector (Spelled K) 3

/-- An element with its running number, its type, any number of tags, and the tags of its
nodes. -/
structure ListedElement where
  number : UInt64
  type : UInt32
  tags : List UInt64
  nodes : List UInt64

/-- What a file of a version lists. -/
structure Listing (K : Type) [Numeral K] where
  version : Spelled K
  nodes : List (ListedNode K)
  elements : List ListedElement

variable {K : Type} [Numeral K] {d : Nat}

/-! ## The text -/

def numeral (n : Nat) : List Char := Nat.toDigits 10 n

def ListedNode.words (n : ListedNode K) : List (List Char) :=
  numeral n.tag.toNat :: n.coordinates.toList.map Spelled.text

def ListedElement.numbers (e : ListedElement) : List Nat :=
  e.number.toNat :: e.type.toNat :: e.tags.length ::
    (e.tags.map UInt64.toNat ++ e.nodes.map UInt64.toNat)

def ListedElement.words (e : ListedElement) : List (List Char) := e.numbers.map numeral

theorem ListedNode.word_of_mem_words (n : ListedNode K) : ∀ w ∈ n.words, Word w := by
  refine List.forall_mem_cons.mpr ⟨word_toDigits _, fun w hw => ?_⟩
  obtain ⟨x, -, rfl⟩ := List.mem_map.mp hw
  exact x.word

theorem ListedElement.word_of_mem_words (e : ListedElement) : ∀ w ∈ e.words, Word w := by
  intro w hw
  obtain ⟨n, -, rfl⟩ := List.mem_map.mp hw
  exact word_toDigits n

/-- A section that tells the number of its entries before them. -/
def enclosed (opening closing : String) (entries : List (List Char)) : List (List Char) :=
  opening.toList :: numeral entries.length :: (entries ++ [closing.toList])

namespace Listing

def formatLines (l : Listing K) : List (List Char) :=
  ["$MeshFormat".toList, spaced [l.version.text, ['0'], ['8']], "$EndMeshFormat".toList]

def nodeLines (l : Listing K) : List (List Char) :=
  enclosed "$Nodes" "$EndNodes" (l.nodes.map fun n => spaced n.words)

def elementLines (l : Listing K) : List (List Char) :=
  enclosed "$Elements" "$EndElements" (l.elements.map fun e => spaced e.words)

def lines (l : Listing K) : List (List Char) := l.formatLines ++ l.nodeLines ++ l.elementLines

def bytes (l : Listing K) : List UInt8 := Line.toBytes l.lines

theorem unbroken_lines (l : Listing K) : ∀ line ∈ l.lines, Line.Unbroken line := by
  have hnumeral (n : Nat) : Line.Unbroken (numeral n) := (word_toDigits n).unbroken
  have henclosed {opening closing : String} {entries : List (List Char)}
      (hopening : Line.Unbroken opening.toList) (hclosing : Line.Unbroken closing.toList)
      (hentries : ∀ entry ∈ entries, Line.Unbroken entry) :
      ∀ line ∈ enclosed opening closing entries, Line.Unbroken line := by
    simp only [enclosed, List.forall_mem_cons, List.forall_mem_append]
    exact ⟨hopening, hnumeral _, hentries, hclosing, fun _ h => absurd h List.not_mem_nil⟩
  refine List.forall_mem_append.mpr ⟨List.forall_mem_append.mpr ⟨?_, ?_⟩, ?_⟩
  · simp only [formatLines, List.forall_mem_cons]
    refine ⟨by decide, unbroken_spaced ?_, by decide, fun _ h => absurd h List.not_mem_nil⟩
    simp only [List.forall_mem_cons]
    exact ⟨l.version.word, by decide, by decide, fun _ h => absurd h List.not_mem_nil⟩
  · refine henclosed (by decide) (by decide) fun line hline => ?_
    obtain ⟨n, -, rfl⟩ := List.mem_map.mp hline
    exact unbroken_spaced n.word_of_mem_words
  · refine henclosed (by decide) (by decide) fun line hline => ?_
    obtain ⟨e, -, rfl⟩ := List.mem_map.mp hline
    exact unbroken_spaced e.word_of_mem_words

/-! ## The mesh -/

/-- The vertex of a node tag: its place among the nodes. -/
def place (l : Listing K) (tag : UInt64) : Nat := (l.nodes.map ListedNode.tag).idxOf tag

def ofType (l : Listing K) (type : UInt32) : List ListedElement :=
  l.elements.filter (·.type = type)

/-- The listing without the elements of all but two types. -/
def restrict (l : Listing K) (cell face : UInt32) : Listing K :=
  { l with elements := l.elements.filter fun e => e.type = cell ∨ e.type = face }

end Listing

/-- Which types of elements are the cells and the faces of a mesh: quadrangles and lines of a
plane one, hexahedra and quadrangles of a spatial one. -/
inductive Roles : (d : Nat) → (cell face : UInt32) → Prop where
  | plane : Roles 2 3 1
  | spatial : Roles 3 5 3

/-- The first tag of an element, zero for an element without tags. -/
def ListedElement.physical (e : ListedElement) : UInt64 := e.tags.headD 0

/-- The places in an element's list of nodes of the corners of the cube, in ascending order. -/
def cornerPlaces (d : Nat) : List Nat := [0, 1, 3, 2, 4, 5, 7, 6].take (2 ^ d)

namespace Listing

variable [Scalar K]

/-- What a listing must keep to.  Its lists must not be longer than a word of 64 bits can tell,
since the text tells their lengths. -/
structure Valid (l : Listing K) (d : Nat) (cell face : UInt32) : Prop where
  version : ((2 : Nat) : K) ≤ l.version.value ∧ l.version.value < ((3 : Nat) : K)
  distinct : (l.nodes.map ListedNode.tag).Nodup
  cell_nodes : ∀ e ∈ l.ofType cell, e.nodes.length = 2 ^ d
  face_nodes : ∀ e ∈ l.ofType face, e.nodes.length = 2 ^ (d - 1)
  face_physical : ∀ e ∈ l.ofType face, e.physical.toNat < 2 ^ 32
  listed : ∀ e ∈ l.ofType cell ++ l.ofType face, ∀ t ∈ e.nodes, t ∈ l.nodes.map ListedNode.tag
  cell_exists : l.ofType cell ≠ []
  nodes_lt : l.nodes.length < 2 ^ 64
  elements_lt : l.elements.length < 2 ^ 64
  tags_lt : ∀ e ∈ l.elements, e.tags.length < 2 ^ 64

/-- A cell of a mesh has the vertices of an element in the order of the cube's corners.  Its two
halves are exchanged exactly if the cell would be negatively oriented otherwise. -/
def IsCell (l : Listing K) (m : Mesh K d) (e : ListedElement) (c : Cell d) : Prop :=
  ∃ raw : Cell d,
    raw.toList.map some = (cornerPlaces d).map ((e.nodes.map l.place)[·]?) ∧
      c.toList =
        if Cell.orientation (m.cornerPoints raw) < ((0 : Nat) : K) then
          raw.toList.drop (2 ^ (d - 1)) ++ raw.toList.take (2 ^ (d - 1))
        else raw.toList

/-- The mesh that a listing describes.  Of several elements with the same vertices the last one
decides on the indicator of their face. -/
structure Describes (l : Listing K) (cell face : UInt32) (m : Mesh K d) : Prop where
  vertices : m.vertices.toList.map (fun p => p.coords.toList) =
    l.nodes.map fun n => (n.coordinates.toList.map Spelled.value).take d
  cells : List.Forall₂ (l.IsCell m) (l.ofType cell) m.cells
  indicators : ∀ k : Key, (m.indicators[k]?).map UInt32.toNat =
    ((l.ofType face).filter fun e => Key.ofList (e.nodes.map l.place) = k).getLast?.map
      fun e => e.physical.toNat
  shapes : m.shapes = ∅

theorem IsCell.unique {l : Listing K} {m m' : Mesh K d} (hvertices : m.vertices = m'.vertices)
    {e : ListedElement} {c c' : Cell d} (h : l.IsCell m e c) (h' : l.IsCell m' e c') : c = c' := by
  obtain ⟨raw, hraw, hc⟩ := h
  obtain ⟨raw', hraw', hc'⟩ := h'
  have hsame : raw = raw' := Vector.toList_inj.mp
    (List.map_injective_iff.mpr (fun _ _ => Option.some.inj) (hraw.trans hraw'.symm))
  have hpoints : m.cornerPoints raw = m'.cornerPoints raw := by
    unfold Mesh.cornerPoints Mesh.position
    rw [hvertices]
  subst hsame
  rw [hpoints] at hc
  exact Vector.toList_inj.mp (hc.trans hc'.symm)

/-- A listing describes no more than one mesh. -/
theorem Describes.unique {l : Listing K} {cell face : UInt32} {m m' : Mesh K d}
    (h : l.Describes cell face m) (h' : l.Describes cell face m') : m = m' := by
  have hpoint : Function.Injective fun p : Point K d => p.coords.toList := fun p q hpq =>
    Point.ext (Vector.toList_inj.mp hpq)
  have hvertices : m.vertices = m'.vertices := Array.toList_inj.mp
    (List.map_injective_iff.mpr hpoint (h.vertices.trans h'.vertices.symm))
  have hcells : m.cells = m'.cells := by
    have hleft := h.cells
    have hright := h'.cells
    generalize l.ofType cell = es at hleft hright
    generalize m.cells = cs at hleft
    generalize m'.cells = cs' at hright
    induction hleft generalizing cs' with
    | nil =>
      cases hright
      rfl
    | cons hc _ ih =>
      cases hright with
      | cons hc' hrest => rw [hc.unique hvertices hc', ih _ hrest]
  have hindicators : m.indicators = m'.indicators := by
    refine Std.ExtTreeMap.ext_getElem? fun k => ?_
    exact Option.map_injective (fun _ _ => UInt32.toNat_inj.mp)
      ((h.indicators k).trans (h'.indicators k).symm)
  have hshapes : m.shapes = m'.shapes := h.shapes.trans h'.shapes.symm
  cases m
  cases m'
  simp only [Mesh.mk.injEq]
  exact ⟨hvertices, hcells, hindicators, hshapes⟩

end Listing
end Msh
end HexMesh
