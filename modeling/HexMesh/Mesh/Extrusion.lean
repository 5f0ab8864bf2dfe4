import HexMesh.Mesh.Boundary

/-!
Sweeping a plane mesh along the third axis.

The vertices of the plane mesh are repeated in layers, and each cell gives one
hexahedron between every two neighboring layers.
-/

namespace HexMesh
namespace Mesh

variable {K : Type}

/-- The number of a vertex in a layer. -/
def layered (m : Mesh K 2) (layer v : Nat) : Nat := layer * m.vertices.size + v

/-- The hexahedron above a cell of the plane: its low corners lie in one layer and its
high corners in the next. -/
def hexahedron (m : Mesh K 2) (layer : Nat) (c : Cell 2) : Cell 3 :=
  let below := c.map (m.layered layer)
  let above := c.map (m.layered (layer + 1))
  below ++ above

/-- The vertices of the face above an edge of the plane. -/
def lateral (m : Mesh K 2) (layer : Nat) (edge : Key) : List Nat :=
  edge.map (m.layered layer) ++ edge.map (m.layered (layer + 1))

/-- The indicators of an extruded mesh, in the order in which they are set: those of the
sides, then bottom and top above each cell.  Sides take over the indicator of the edge
below them. -/
def extrudedIndicators (m : Mesh K 2) (slices : Nat) : List (Key × Indicator) :=
  let top := m.maxIndicator
  let sides := m.outerFaces.flatMap fun f =>
    (List.range (slices - 1)).map fun k =>
      (Key.ofList (m.lateral k f.2), m.indicator f.2)
  let ends := m.cells.flatMap fun c =>
    [((m.hexahedron 0 c).faceKey 4, top + 1), ((m.hexahedron (slices - 2) c).faceKey 5, top + 2)]
  sides ++ ends

/-- Sweep a plane mesh along the third axis up to a height, with a number of layers of
vertices that divide the height evenly.  If `i` is the largest indicator of the boundary,
the bottom gets `i + 1` and the top `i + 2`.  Both have to fit in 32 bits; that they do is found
out last, when they are set. -/
def extrude [Scalar K] (m : Mesh K 2) (slices : Nat) (height : K) :
    Except (Fault K) (Mesh K 3) :=
  if slices < 2 then .error (.slices slices)
  else if height ≤ ((0 : Nat) : K) then .error (.height height)
  else if UInt32.size ≤ m.maxIndicator.toNat + 2 then
    .error (.indicatorOverflow m.maxIndicator.toNat)
  else
    let layers := List.range slices
    let vertices := layers.flatMap fun k =>
      let z := height * ((k : Nat) : K) / ((slices - 1 : Nat) : K)
      m.vertices.toList.map fun p => Point.xyz p.abscissa p.ordinate z
    .ok
      { vertices := vertices.toArray
        cells := (List.range (slices - 1)).flatMap fun k => m.cells.map (m.hexahedron k)
        indicators := KeyMap.ofEntries (m.extrudedIndicators slices) }

end Mesh
end HexMesh
