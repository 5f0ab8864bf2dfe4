import HexMesh.Geometry.Point
import HexMesh.Geometry.Shape
import HexMesh.Host.Session
import HexMesh.Main
import HexMesh.Mesh.Access
import HexMesh.Mesh.Box
import HexMesh.Mesh.Distortion
import HexMesh.Mesh.Extrusion
import HexMesh.Mesh.Hole
import HexMesh.Mesh.Inspection
import HexMesh.Mesh.Merge
import HexMesh.Mesh.Refinement
import HexMesh.Mesh.Summary
import HexMesh.Msh.Reader
import HexMesh.Number.Binary64
import HexMesh.Picture.Eps
import HexMesh.Proofs.Identification.Exact
import HexMesh.Proofs.Identification.Gluing
import HexMesh.Proofs.Refinement.Boundary
import HexMesh.Settings.File
import HexMesh.Tour.Run
import HexMesh.Proofs.Extrusion.Boundary
import HexMesh.Proofs.Mesh.Fault
import HexMesh.Proofs.Msh.Scan
import HexMesh.Proofs.Mesh.WellFormed
import HexMesh.Proofs.Msh.Gathered
import HexMesh.Proofs.Msh.Strict
import HexMesh.Proofs.Text.Fields
import HexMesh.Proofs.Msh.Safety
import HexMesh.Proofs.Mesh.Constructions
import HexMesh.Proofs.Workshop
import HexMesh.Proofs.Workshop.Stored
import HexMesh.Proofs.Msh.Listing
import HexMesh.Proofs.Msh.Sections
import HexMesh.Proofs.Msh.RoundTrip
import HexMesh.Proofs.Mesh.Relabeling
import HexMesh.Proofs.Geometry.Average
import HexMesh.Proofs.Number.Radix
import HexMesh.Proofs.Refinement.Halving
import HexMesh.Proofs.Box.Boundary
import HexMesh.Proofs.Box.Refinement
import HexMesh.Proofs.Box.Extrusion
import HexMesh.Proofs.Extrusion.Pieces
import HexMesh.Proofs.Extrusion.Refinement
import HexMesh.Proofs.Box.Gluing
import HexMesh.Proofs.Box.Tiling
import HexMesh.Proofs.Identification.Assembly
import HexMesh.Proofs.Refinement.Curved
import HexMesh.Proofs.Refinement.CellOrder
import HexMesh.Proofs.Geometry.Length
import HexMesh.Proofs.Mesh.Exchange
import HexMesh.Proofs.Refinement.Parts
import HexMesh.Proofs.Msh.Coordinates
import HexMesh.Proofs.Text.Trim
import HexMesh.Proofs.Text.LineEnds
import HexMesh.Proofs.Msh.Acceptance
import HexMesh.Proofs.Msh.Markers
import HexMesh.Proofs.Msh.Layout
import HexMesh.Proofs.Msh.Comparison
import HexMesh.Proofs.Msh.NodeTags
import HexMesh.Proofs.Msh.NodeOrder
import HexMesh.Proofs.Msh.Nodes
import HexMesh.Proofs.Mesh.Orientation
import HexMesh.Proofs.Msh.Orientation
import HexMesh.Proofs.Msh.Counts
import HexMesh.Proofs.Mesh.Summary
import HexMesh.Proofs.Text.Json
import HexMesh.Proofs.Command.Run
import HexMesh.Proofs.Identification.Enumeration
import HexMesh.Proofs.Extrusion.Indicators
import HexMesh.Proofs.Picture.Lines
import HexMesh.Proofs.Text.Numerals
import HexMesh.Proofs.Number.Rounding
import HexMesh.Proofs.Picture.Frame
import HexMesh.Proofs.Picture.CellOrder
import HexMesh.Proofs.Mesh.Closed
import HexMesh.Proofs.Mesh.Distortion
import HexMesh.Proofs.Refinement.Counts
import HexMesh.Proofs.Tour.TopEdge
import HexMesh.Proofs.Refinement.Affine
import HexMesh.Proofs.Refinement.Convexity
import HexMesh.Proofs.Mesh.Scaling
import HexMesh.Proofs.Topology.Incidence
import HexMesh.Proofs.Mesh.Labeling
import HexMesh.Proofs.Mesh.Unused
import HexMesh.Proofs.Mesh.Determinant
import HexMesh.Proofs.Mesh.Simplices
import HexMesh.Proofs.Mesh.Volume
import HexMesh.Proofs.Topology.Ordering
import HexMesh.Proofs.Topology.Parity
