import HexMesh.Mesh.Boundary

/-!
Global refinement: every cell is halved along every axis.

The children of a cell meet at the points of its halving lattice.  A lattice
point lies in the middle of a piece of the cell, and the key of that piece names
the vertex there: a corner is an old vertex, and each longer key gets one new
vertex, which all cells with that piece share.  New vertices are numbered in the
order in which their keys are first met, and their positions depend on the old
vertices alone.
-/

namespace HexMesh
namespace Mesh

variable {K : Type} {d : Nat}

/-- The keys of the pieces of a cell that get a new vertex, in the order of the lattice. -/
def splitKeys (c : Cell d) : List Key :=
  ((List.range (Cube.latticeCount d)).map c.latticeKey).filter (1 < ·.length)

/-- The keys of all new vertices, numbered. -/
def newKeys (m : Mesh K d) : Numbering := Numbering.ofList (m.cells.flatMap splitKeys)

/-- The vertex in the middle of the piece with a given key. -/
def vertexOfKey (m : Mesh K d) (new : Numbering) : Key → Nat
  | [v] => v
  | k => m.vertices.size + new.number k

/-! ## Positions -/

/-- The keys of all pieces that lie in a boundary face with a shape, and the indicator of
that face.  Where two such faces meet, the later one is recorded. -/
def curvedKeys (m : Mesh K d) : KeyMap Indicator :=
  let shaped (c : Cell d) (f : BoundaryFace) : List (Key × Indicator) :=
    if m.shapes.contains f.indicator then
      let points := (List.range (Cube.latticeCount d)).filter (Cube.latticeOnFace f.face)
      ((points.map c.latticeKey).filter (1 < ·.length)).map fun k => (k, f.indicator)
    else []
  let cells := m.cells.toArray
  KeyMap.ofEntries <| m.boundaryFaces.flatMap fun f =>
    match cells[f.cell]? with
    | some c => shaped c f
    | none => []

variable [Scalar K]

/-- The shape that decides where the vertex with a given key goes. -/
def shapeOfKey (m : Mesh K d) (curved : KeyMap Indicator) (k : Key) : Shape K d :=
  ((curved[k]?).bind fun i => m.shapes[i]?).getD .flat

/-- The position of a new vertex: its parents in ascending order, placed by the shape of
the boundary face they lie in, or flat. -/
def newPosition (m : Mesh K d) (curved : KeyMap Indicator) (k : Key) : Point K d :=
  (m.shapeOfKey curved k).place (k.map m.position)

/-! ## Children -/

omit [Scalar K] in
/-- One child of a cell: its corner `v` is the vertex at the lattice point of child and
corner. -/
def childCell (m : Mesh K d) (new : Numbering) (c : Cell d) (child : Cube.Corner d) : Cell d :=
  Cell.ofFn fun v => m.vertexOfKey new (c.latticeKey (Cube.childPoint child v))

omit [Scalar K] in
/-- The indicators that one child inherits: on each side of its parent on which it lies it
takes over the indicator that was set there. -/
def inherited (m : Mesh K d) (c : Cell d) (child : Cube.Corner d) (childCell : Cell d) :
    List (Key × Indicator) :=
  ((List.range (Cube.faceCount d)).filter fun f => Cube.onFace f child).filterMap fun f =>
    (m.indicators[c.faceKey f]?).map fun i => (childCell.faceKey f, i)

/-- Split every cell once.  The children of a cell stand together, in the order of the
corners of the cell that they contain. -/
def refineOnce (m : Mesh K d) : Mesh K d :=
  let new := m.newKeys
  let curved := m.curvedKeys
  let children := m.cells.map fun c =>
    (c, (Cube.corners d).map fun child => (child, m.childCell new c child))
  { vertices := m.vertices ++ new.keys.map (m.newPosition curved)
    cells := children.flatMap fun (_, cs) => cs.map (·.2)
    indicators := KeyMap.ofEntries <| children.flatMap fun (c, cs) =>
      cs.flatMap fun (child, childCell) => m.inherited c child childCell
    shapes := m.shapes }

/-- Split every cell a number of times. -/
def refine (m : Mesh K d) : Nat → Mesh K d
  | 0 => m
  | n + 1 => m.refineOnce.refine n

end Mesh
end HexMesh
