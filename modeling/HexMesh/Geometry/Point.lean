import HexMesh.Number.Scalar

/-!
Points of `d`-dimensional space, which serve as vectors too.
-/

namespace HexMesh

/-- A point, given by one coordinate for each axis. -/
@[ext] structure Point (K : Type) (d : Nat) where
  coords : Vector K d

namespace Point

variable {K : Type} {d : Nat}

/-- The point whose coordinate along axis `i` is `f i`. -/
def ofFn (f : Fin d → K) : Point K d := ⟨Vector.ofFn f⟩

/-- A point of the line. -/
def x (a : K) : Point K 1 := ⟨#v[a]⟩

/-- A point of the plane. -/
def xy (a b : K) : Point K 2 := ⟨#v[a, b]⟩

/-- The coordinate along the first axis of the plane. -/
def abscissa (p : Point K 2) : K := p.coords[0]

/-- The coordinate along the second axis of the plane. -/
def ordinate (p : Point K 2) : K := p.coords[1]

/-- A point of space. -/
def xyz (a b c : K) : Point K 3 := ⟨#v[a, b, c]⟩

/-- The same point with the coordinate along axis `i` replaced. -/
def set (p : Point K d) (i : Nat) (a : K) : Point K d := ⟨p.coords.setIfInBounds i a⟩

variable [Scalar K]

def origin : Point K d := ⟨Vector.replicate d ((0 : Nat) : K)⟩

instance : Add (Point K d) := ⟨fun p q => ⟨Vector.zipWith (· + ·) p.coords q.coords⟩⟩

instance : Sub (Point K d) := ⟨fun p q => ⟨Vector.zipWith (· - ·) p.coords q.coords⟩⟩

/-- The point with every coordinate multiplied by `a`, on the right. -/
def scale (p : Point K d) (a : K) : Point K d := ⟨p.coords.map (· * a)⟩

/-- Equal coordinate by coordinate.  This is the comparison of the scalars, for which two
zeros of different sign agree and an undefined value differs from itself. -/
def same (p q : Point K d) : Bool :=
  (p.coords.toList.zip q.coords.toList).all fun c => c.1 == c.2

/-- The scalar product, summed from the first axis to the last. -/
def dot (p q : Point K d) : K :=
  Scalar.sum (Vector.zipWith (· * ·) p.coords q.coords).toList

def normSquare (p : Point K d) : K := p.dot p

/-- The arithmetic mean of a list of points; the origin for an empty list.  The points are
added in list order and the sum is multiplied by the reciprocal of their number. -/
def average (ps : List (Point K d)) : Point K d :=
  let total := ps.foldl (· + ·) origin
  if ps.isEmpty then total else total.scale (Scalar.ratio 1 ps.length)

/-- Each coordinate is finite. -/
def isFinite (p : Point K d) : Bool := p.coords.toList.all Scalar.isFinite

variable [SquareRoot K]

/-- The Euclidean length. -/
def norm (p : Point K d) : K := SquareRoot.sqrt p.normSquare

def distance (p q : Point K d) : K := (p - q).norm

end Point
end HexMesh
