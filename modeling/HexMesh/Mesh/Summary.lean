import HexMesh.Mesh.Boundary
import HexMesh.Text.Json

/-!
The summary of a mesh that is printed beside its picture.
-/

namespace HexMesh

/-- The size of a mesh, its boundary faces by indicator, and where its picture went. -/
structure Summary where
  dimension : Nat
  cellCount : Nat
  /-- How many boundary faces have each indicator, in ascending order. -/
  boundaryCounts : List (Indicator × Nat)
  output : String
  deriving DecidableEq, Repr

namespace Summary

variable {K : Type} {d : Nat}

/-- Summarize a mesh whose picture goes to a given place. -/
def ofMesh (m : Mesh K d) (output : String) : Summary :=
  { dimension := d
    cellCount := m.cells.length
    boundaryCounts := m.indicatorCounts.toList
    output }

/-- How many boundary faces there are. -/
def boundaryFaceCount (s : Summary) : Nat := s.boundaryCounts.foldl (fun n c => n + c.2) 0

/-- The lines that describe a mesh. -/
def lines (s : Summary) : List String :=
  let counts := s.boundaryCounts.map fun (i, n) => s!"{i}({n} times) "
  ["Mesh info:",
    s!" dimension: {s.dimension}",
    s!" no. of cells: {s.cellCount}",
    " boundary indicators: " ++ String.join counts,
    s!" written to {s.output}"]

def text (s : Summary) : String := "\n".intercalate s.lines

/-- The summary as a record. -/
def json (s : Summary) : Json :=
  .record
    [("dimension", .number s.dimension),
      ("n_active_cells", .number s.cellCount),
      ("boundary_counts",
        .record (s.boundaryCounts.map fun (i, n) => (s!"{i}", .number n))),
      ("output", .string s.output)]

end Summary
end HexMesh
