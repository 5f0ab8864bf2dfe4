import HexMesh.Mesh.Boundary
import HexMesh.Number.Decimal
import HexMesh.Picture.Frame
import HexMesh.Picture.View

/-!
Line drawings of meshes in encapsulated PostScript.

A drawing is computed first, as strokes in picture coordinates, and written
afterwards.  Every distinct edge of the mesh is one stroke.
-/

namespace HexMesh

/-- What a picture should look like. -/
structure Style (K : Type) where
  /-- The length of the chosen side, in points. -/
  size : K
  side : Side
  lineWidth : K
  /-- Draw the boundary of plane meshes in red. -/
  colorBoundary : Bool
  /-- The angle between the viewing direction and the vertical axis, in degrees. -/
  azimuth : K
  /-- How far the viewer went round the vertical axis, in degrees. -/
  turn : K

/-- A picture three hundred points wide. -/
def Style.standard {K : Type} [Scalar K] : Style K :=
  { size := ((300 : Nat) : K)
    side := .width
    lineWidth := Scalar.ratio 1 2
    colorBoundary := false
    azimuth := ((60 : Nat) : K)
    turn := ((30 : Nat) : K) }

/-- The color of a stroke. -/
inductive Ink where
  | black
  | red
  deriving DecidableEq, Repr

structure Stroke (K : Type) where
  ink : Ink
  start : Point K 2
  stop : Point K 2

/-- A finished drawing, with its lower left corner at the origin. -/
structure Drawing (K : Type) where
  width : K
  height : K
  lineWidth : K
  strokes : List (Stroke K)

/-- Why a mesh cannot be drawn. -/
inductive DrawingFault where
  | noCells
  | noEdges
  deriving DecidableEq, Repr

def DrawingFault.message : DrawingFault → String
  | noCells => "Cannot draw a mesh without cells"
  | noEdges => "Mesh has no edges to draw"

namespace Mesh

variable {K : Type} {d : Nat} [Scalar K]

/-- Where a point is drawn: a point of the line on the horizontal axis, one of the plane
where it is, and one of space as it is seen. -/
def drawn (view : View K) (p : Point K d) : Point K 2 :=
  let coordinate (i : Nat) : K := (p.coords[i]?).getD ((0 : Nat) : K)
  match d with
  | 1 => .xy (coordinate 0) ((0 : Nat) : K)
  | 2 => .xy (coordinate 0) (coordinate 1)
  | _ => view.project (.xyz (coordinate 0) (coordinate 1) (coordinate 2))

omit [Scalar K] in
/-- The keys of the edges that are drawn in red: those on the boundary of a plane mesh, if
the style asks for it. -/
def redEdges (m : Mesh K d) (style : Style K) : Std.ExtTreeSet Key :=
  if style.colorBoundary && d == 2 then (m.outerFaces.map (·.2)).foldl (·.insert ·) ∅ else ∅

/-- Draw the distinct edges of a mesh in ascending order. -/
def draw [Transcendental K] (m : Mesh K d) (style : Style K) :
    Except DrawingFault (Drawing K) :=
  if m.cells.isEmpty then .error .noCells
  else
    let view := View.ofAngles style.azimuth style.turn
    let points := m.vertices.map (drawn view)
    let point (v : Nat) : Point K 2 := (points[v]?).getD Point.origin
    let edges := m.edges
    match Frame.ofList? (edges.flatMap fun e => [point e.1, point e.2]) with
    | none => .error .noEdges
    | some frame =>
      let fit := Fit.ofFrame frame style.size style.side
      let red := m.redEdges style
      let stroke (e : Nat × Nat) : Stroke K :=
        { ink := if red.contains [e.1, e.2] then .red else .black
          start := fit.place (point e.1)
          stop := fit.place (point e.2) }
      .ok { width := fit.width, height := fit.height, lineWidth := style.lineWidth
            strokes := edges.map stroke }

end Mesh

/-! ## Writing -/

/-- The command that selects a color. -/
def Ink.command : Ink → String
  | black => "b"
  | red => "r"

variable {K : Type} [Numeral K]

/-- The coordinates of a point with three decimal places. -/
def Point.written (p : Point K 2) : String :=
  s!"{Numeral.fixed 3 p.abscissa} {Numeral.fixed 3 p.ordinate}"

/-- The line that draws a stroke. -/
def Stroke.line (s : Stroke K) : String :=
  s!"{s.ink.command} {s.start.written} m {s.stop.written} x"

namespace Drawing

/-- The lines of the file.  The bounding box is the smallest one with whole sides. -/
def lines [Scalar K] (g : Drawing K) : List String :=
  ["%!PS-Adobe-2.0 EPSF-1.2",
    "%%Title: meshtour output",
    "%%Creator: meshtour",
    s!"%%BoundingBox: 0 0 {Scalar.ceiling g.width} {Scalar.ceiling g.height}",
    "/m \x7bmoveto\x7d bind def",
    "/x \x7blineto stroke\x7d bind def",
    "/b \x7b0 0 0 setrgbcolor\x7d def",
    "/r \x7b1 0 0 setrgbcolor\x7d def",
    "%%EndProlog",
    "",
    s!"{Numeral.text g.lineWidth} setlinewidth"] ++
  g.strokes.map Stroke.line ++
  ["showpage", "%%EOF"]

/-- The whole file. -/
def text [Scalar K] (g : Drawing K) : String := String.join (g.lines.map (· ++ "\n"))

end Drawing
end HexMesh
