import HexMesh.Geometry.Point

/-!
Fitting a drawing into a picture of a given size.
-/

namespace HexMesh

/-- The smallest upright rectangle around a set of points, by its lower left and its upper
right corner. -/
structure Frame (K : Type) where
  low : Point K 2
  high : Point K 2

/-- Which side of a picture has the size that was asked for. -/
inductive Side where
  | width
  | height
  deriving DecidableEq, Repr

namespace Frame

variable {K : Type} [Scalar K]

/-- The frame widened to hold one more point.  A coordinate that is not a number widens
nothing. -/
def enclose (f : Frame K) (p : Point K 2) : Frame K :=
  { low :=
      .xy (Scalar.least f.low.abscissa p.abscissa) (Scalar.least f.low.ordinate p.ordinate)
    high :=
      .xy (Scalar.greatest f.high.abscissa p.abscissa)
        (Scalar.greatest f.high.ordinate p.ordinate) }

/-- The frame widened to hold all points of a list. -/
def expand (f : Frame K) (ps : List (Point K 2)) : Frame K := ps.foldl enclose f

/-- The frame that holds nothing: its low corner is as high as a finite number can be. -/
def empty : Frame K :=
  { low := .xy Scalar.largest Scalar.largest
    high := .xy (-Scalar.largest) (-Scalar.largest) }

/-- The frame around a list of points, if there are any. -/
def ofList? (ps : List (Point K 2)) : Option (Frame K) :=
  if ps.isEmpty then none else some (empty.expand ps)

def width (f : Frame K) : K := f.high.abscissa - f.low.abscissa

def height (f : Frame K) : K := f.high.ordinate - f.low.ordinate

/-- The length of one of the sides. -/
def extent (f : Frame K) : Side → K
  | .width => f.width
  | .height => f.height

end Frame

/-- A map from the plane of a drawing to a picture whose lower left corner is the origin.
Both axes are stretched by the same factor. -/
structure Fit (K : Type) where
  factor : K
  offset : Point K 2
  width : K
  height : K

namespace Fit

variable {K : Type} [Scalar K]

/-- Fit a frame into a picture whose chosen side is `size` long.  A frame without extent
along that side keeps its size. -/
def ofFrame (f : Frame K) (size : K) (side : Side) : Fit K :=
  let extent := f.extent side
  let factor := if ((0 : Nat) : K) < extent then size / extent else ((1 : Nat) : K)
  { factor
    offset := .xy (-f.low.abscissa * factor) (-f.low.ordinate * factor)
    width := f.width * factor
    height := f.height * factor }

/-- Where a point of the drawing lies in the picture. -/
def place (t : Fit K) (p : Point K 2) : Point K 2 :=
  .xy (p.abscissa * t.factor + t.offset.abscissa) (p.ordinate * t.factor + t.offset.ordinate)

end Fit
end HexMesh
