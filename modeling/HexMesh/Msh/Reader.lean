import HexMesh.Mesh.Measure
import HexMesh.Text.Blank
import HexMesh.Text.Lines

/-!
Reading meshes in the text format of gmsh, version 2.

A file is a sequence of sections, each opened by a line `$Name` and closed by a
line `$EndName`.  Nodes become vertices in file order and are known by their
tags.  Elements of the cell's type become cells, and elements of the face's type
carry the indicators of the boundary.  All other elements, and all other
sections, are passed over.

The reader goes through the file line by line.  Between lines it keeps what it
has gathered and what it is waiting for, so that a fault always belongs to the
line at which it is found.
-/

namespace HexMesh
namespace Msh

/-- What the reader expects of the next line. -/
inductive Mode where
  /-- Outside all sections. -/
  | outside
  /-- The line with version and file type. -/
  | format
  /-- The rest of a section, up to the line that closes it. -/
  | closing (marker : List Char)
  | nodeCount
  /-- A node, and a number of nodes after it. -/
  | node (more : Nat)
  | elementCount
  /-- An element, and a number of elements after it. -/
  | element (more : Nat)
  deriving DecidableEq, Repr

/-- What was read so far. -/
structure Gathered (K : Type) (d : Nat) where
  mode : Mode := .outside
  /-- A section that tells the format was read to its end. -/
  formatSeen : Bool := false
  vertices : Array (Point K d) := #[]
  /-- The vertex of each node tag. -/
  vertexOfTag : Std.ExtTreeMap Nat Nat := ∅
  cells : Array (Cell d) := #[]
  /-- The indicators of faces, each face by its vertices in file order. -/
  faces : Array (List Nat × Indicator) := #[]

/-- The number of the element type of cells. -/
def cellType : Nat → Nat
  | 2 => 3
  | _ => 5

/-- The number of the element type of faces. -/
def faceType : Nat → Nat
  | 2 => 1
  | _ => 3

/-- The place in an element's node list of a corner of the cube.  The format walks around
each square, so its last two nodes stand in the opposite order. -/
def nodePlace (corner : Nat) : Nat := if corner.testBit 1 then corner ^^^ 1 else corner

/-! ## Fields -/

variable {K : Type} {d : Nat}

/-- Words of 64 bits. -/
def wordBound : Nat := Nat.pow 2 64

/-- Words of 32 bits. -/
def halfWordBound : Nat := Nat.pow 2 32

def badField {α : Type} (item : Item) (field : List Char) : Except (LineFault K) α :=
  .error (.badField item (String.ofList field))

/-- A natural number below a bound. -/
def natural (bound : Nat) (item : Item) (field : List Char) : Except (LineFault K) Nat :=
  match readNat? bound field with
  | some n => .ok n
  | none => badField item field

/-- A scalar. -/
def scalar [Numeral K] (item : Item) (field : List Char) : Except (LineFault K) K :=
  match Numeral.read? field with
  | some a => .ok a
  | none => badField item field

/-- The line with version and file type: any version from two up to but not including
three, and a text file. -/
def checkFormat [Scalar K] [Numeral K] (line : List Char) : Except (LineFault K) Unit := do
  let version ← scalar (K := K) .formatVersion ((fields line).getD 0 [])
  let fileType ← natural halfWordBound .fileType ((fields line).getD 1 [])
  if ¬(((2 : Nat) : K) ≤ version ∧ version < ((3 : Nat) : K)) then throw (.version version)
  if fileType ≠ 0 then throw .binary

/-- A node line: the tag and at least three coordinates, of which the mesh takes as many
as it has axes. -/
def readNode [Numeral K] (line : List Char) : Except (LineFault K) (Nat × Point K d) :=
  match fields line with
  | tag :: coordinates =>
    if coordinates.length < 3 then .error .shortNode
    else do
      let tag ← natural wordBound .nodeTag tag
      let coords ← (Vector.ofFn fun a : Fin d => coordinates.getD a []).mapM
        (scalar .coordinate)
      return (tag, ⟨coords⟩)
  | [] => .error .shortNode

/-- What the fields of an element line say: its type, its physical tag, and its nodes.
The third field tells how many tags stand before the nodes; the first of them is the
physical tag. -/
structure Element where
  type : Nat
  physical : Nat
  nodes : List Nat

/-- An element line. -/
def readElement (line : List Char) : Except (LineFault K) Element := do
  let numbers ← (fields line).mapM (natural wordBound .elementField)
  match numbers with
  | _ :: type :: tagCount :: rest =>
    if halfWordBound ≤ type then throw .elementType
    else if rest.length < tagCount then throw .elementTags
    else
      return { type, physical := (rest.take tagCount).headD 0, nodes := rest.drop tagCount }
  | _ => throw .shortElement

namespace Gathered

/-- The vertices of a list of node tags. -/
def resolve (g : Gathered K d) (tags : List Nat) : Except (LineFault K) (List Nat) :=
  tags.mapM fun t =>
    match g.vertexOfTag[t]? with
    | some v => .ok v
    | none => .error (.unknownNode t)

def addNode (g : Gathered K d) (tag : Nat) (p : Point K d) : Gathered K d :=
  { g with
    vertexOfTag := g.vertexOfTag.insert tag g.vertices.size
    vertices := g.vertices.push p }

/-- Take an element in: a cell, a face with an indicator, or nothing of interest. -/
def addElement (g : Gathered K d) (e : Element) : Except (LineFault K) (Gathered K d) :=
  if e.type = cellType d then
    if e.nodes.length ≠ Cube.cornerCount d then .error .cellNodes
    else do
      let vs ← g.resolve e.nodes
      return { g with cells := g.cells.push (Cell.ofFn fun v => vs.getD (nodePlace v) 0) }
  else if e.type = faceType d then
    if e.nodes.length ≠ Cube.cornerCount (d - 1) then .error .faceNodes
    else if halfWordBound ≤ e.physical then .error (.physicalTag e.physical)
    else do
      let vs ← g.resolve e.nodes
      return { g with faces := g.faces.push (vs, e.physical.toUInt32) }
  else return g

/-! ## Lines -/

/-- Wait for a number of entries, or for the end of the section when none is left. -/
def awaiting (g : Gathered K d) (entry : Nat → Mode) (endMarker : String) :
    Nat → Gathered K d
  | 0 => { g with mode := .closing endMarker.toList }
  | n + 1 => { g with mode := entry n }

def nodesLeft (g : Gathered K d) : Nat → Gathered K d := g.awaiting .node "$EndNodes"

def elementsLeft (g : Gathered K d) : Nat → Gathered K d := g.awaiting .element "$EndElements"

/-- A line outside all sections: it opens a section, or is blank. -/
def opening (g : Gathered K d) (line : List Char) : Except (LineFault K) (Gathered K d) :=
  let word := trim line
  if word = "$MeshFormat".toList then .ok { g with mode := .format }
  else if word = "$Nodes".toList then .ok { g with mode := .nodeCount }
  else if word = "$Elements".toList then .ok { g with mode := .elementCount }
  else if "$".toList.isPrefixOf word && !"$End".toList.isPrefixOf word then
    .ok { g with mode := .closing ("$End".toList ++ word.tail) }
  else if word.isEmpty then .ok g
  else .error (.unexpected (String.ofList line))

/-- The section that tells the format is known by the line that closes it. -/
def formatMarker : List Char := "$EndMeshFormat".toList

variable [Scalar K] [Numeral K]

/-- Read the text of one line. -/
def readLine (g : Gathered K d) (line : List Char) : Except (LineFault K) (Gathered K d) :=
  match g.mode with
  | .outside => g.opening line
  | .format => do
    checkFormat (K := K) line
    return { g with mode := .closing formatMarker }
  | .closing marker =>
    if trim line = marker then
      .ok { g with mode := .outside, formatSeen := g.formatSeen || marker = formatMarker }
    else .ok g
  | .nodeCount => do
    let count ← natural wordBound .nodeCount (trim line)
    return g.nodesLeft count
  | .node more => do
    let (tag, p) ← readNode line
    return (g.addNode tag p).nodesLeft more
  | .elementCount => do
    let count ← natural wordBound .elementCount (trim line)
    return g.elementsLeft count
  | .element more => do
    let e ← readElement line
    return (← g.addElement e).elementsLeft more

/-- Read a numbered line. -/
def step (g : Gathered K d) (numbered : Line × Nat) : Except (Fault K) (Gathered K d) :=
  match numbered with
  | (none, _) => .error (.unreadable "stream did not contain valid UTF-8")
  | (some line, number) =>
    match g.readLine line with
    | .ok g => .ok g
    | .error fault => .error (.line number fault)

omit [Scalar K] [Numeral K] in
/-- What is missing if the file ends here. -/
def missing? (g : Gathered K d) : Option (LineFault K) :=
  match g.mode with
  | .outside => none
  | .format => some (.endOfFile .meshFormat)
  | .closing marker => some (.missingMarker (String.ofList marker))
  | .nodeCount => some (.endOfFile .nodeCount)
  | .node _ => some (.endOfFile .node)
  | .elementCount => some (.endOfFile .elementCount)
  | .element _ => some (.endOfFile .element)

omit [Numeral K] in
/-- A cell with the two halves along its last axis exchanged if it is turned inside out. -/
def oriented (vertices : Array (Point K d)) (c : Cell d) : Cell d :=
  let m : Mesh K d := { vertices }
  if Cell.orientation (m.cornerPoints c) < ((0 : Nat) : K) then
    Cell.ofFn fun v => c.get v.across
  else c

omit [Numeral K] in
/-- The mesh of a file that was read to its end. -/
def mesh (g : Gathered K d) : Mesh K d :=
  g.faces.foldl (fun m f => m.setIndicator f.1 f.2)
    { vertices := g.vertices, cells := (g.cells.map (oriented g.vertices)).toList }

end Gathered

variable [Scalar K] [Numeral K]

/-- Read a mesh from the lines of a file. -/
def readLines (d : Nat) (lines : List Line) : Except (Fault K) (Mesh K d) := do
  if d ≠ 2 ∧ d ≠ 3 then throw (.fileDimension d)
  let g ← (lines.zipIdx 1).foldlM Gathered.step ({} : Gathered K d)
  if let some fault := g.missing? then throw (.line lines.length fault)
  if !g.formatSeen then throw (.line 0 .missingFormat)
  if g.cells.isEmpty then throw .noCells
  return g.mesh

/-- Read a mesh from the bytes of a file. -/
def read (d : Nat) (bytes : List UInt8) : Except (Fault K) (Mesh K d) :=
  readLines d (Line.ofBytes bytes)

end Msh
end HexMesh
