import HexMesh.Mesh.Boundary
import HexMesh.Random.Words

/-!
Random distortion of a mesh.

Every free vertex is moved in a random direction, by a fraction of the length of
the shortest edge that ends in it.  Lengths and boundary are those of the mesh
before anything moved.  The vertices are visited in ascending order, and each free
one takes as many words from the stream as there are axes, even if it does not move.
-/

namespace HexMesh

/-- The number between minus one and one that a random word stands for: its upper
fifty-two bits as a fraction, stretched to length two. -/
def signedUnit {K : Type} [Scalar K] (w : UInt64) : K :=
  let one := ((1 : Nat) : K)
  let fraction : K := Scalar.ratio (Nat.pow 2 52 + (w >>> 12).toNat) (Nat.pow 2 52)
  (fraction - one) * ((2 : Nat) : K) + -one

namespace Mesh

variable {K : Type} {d : Nat} [Scalar K] [SquareRoot K]

/-- The shorter of a known length and a new one.  A length that is not finite is no
length. -/
def shorter (known : Option K) (length : K) : Option K :=
  if Scalar.isFinite length then
    some (known.elim length fun l => Scalar.least l length)
  else known

/-- For every vertex the length of the shortest edge that ends in it, if there is one. -/
def shortestEdges (m : Mesh K d) : Array (Option K) :=
  (m.cells.flatMap Cell.edges).foldl
    (fun table (a, b) =>
      let length := (m.position a).distance (m.position b)
      (table.modify a (shorter · length)).modify b (shorter · length))
    (Array.replicate m.vertices.size none)

omit [SquareRoot K] in
/-- The direction drawn from a stream of which some words were taken: one word for each
axis. -/
def drawnShift (d : Nat) (words : WordStream) (taken : Nat) : Point K d :=
  Point.ofFn fun a => signedUnit (words (taken + a))

/-- A point moved by a multiple of a shift, to a distance of `reach`.  A shift without
length moves nothing. -/
def displace (p shift : Point K d) (reach : K) : Point K d :=
  if shift.norm == ((0 : Nat) : K) then p else p + shift.scale (reach / shift.norm)

/-- A mesh on its way through a distortion, and how many words were taken from the
stream so far. -/
structure Distorting (K : Type) (d : Nat) where
  mesh : Mesh K d
  taken : Nat

omit [Scalar K] [SquareRoot K] in
/-- The vertices that have to stay where they are. -/
def fixedVertices (m : Mesh K d) (keepBoundary : Bool) : Std.ExtTreeSet Nat :=
  if keepBoundary then m.boundaryVertices else ∅

/-- Visit a vertex, given with the length of its shortest edge.  It is passed over when it
is fixed or has no such length. -/
def Distorting.visit (factor : K) (fixed : Std.ExtTreeSet Nat) (words : WordStream)
    (s : Distorting K d) : Option K × Nat → Distorting K d
  | (some length, v) =>
    if fixed.contains v then s
    else
      let shift := drawnShift d words s.taken
      { mesh := s.mesh.modifyVertex v fun p => displace p shift (factor * length)
        taken := s.taken + d }
  | (none, _) => s

/-- The mesh after all its vertices were visited, and how many words that took. -/
def distorting (m : Mesh K d) (factor : K) (keepBoundary : Bool) (words : WordStream) :
    Distorting K d :=
  let fixed := m.fixedVertices keepBoundary
  m.shortestEdges.toList.zipIdx.foldl (Distorting.visit factor fixed words) ⟨m, 0⟩

/-- Move every free vertex by `factor` times the length of its shortest edge, in a random
direction. -/
def distort (m : Mesh K d) (factor : K) (keepBoundary : Bool) (words : WordStream) :
    Mesh K d :=
  (m.distorting factor keepBoundary words).mesh

end Mesh
end HexMesh
