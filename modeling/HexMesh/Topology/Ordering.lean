import HexMesh.Number.Scalar

/-!
The orderings of an initial segment of the natural numbers, with their signs.

An ordering of the axes is a path along the edges of a cube from its lowest to
its highest corner.  The simplices spanned by these paths fill the cube.
-/

namespace HexMesh
namespace Ordering

/-- All orderings of `0, …, n - 1`: the largest number is put into every place of every
ordering of the others. -/
def all : Nat → List (List Nat)
  | 0 => [[]]
  | n + 1 => (all n).flatMap fun rest =>
      (List.range (rest.length + 1)).map fun place => rest.insertIdx place n

/-- How many pairs stand in descending order. -/
def inversions : List Nat → Nat
  | [] => 0
  | a :: rest => rest.countP (· < a) + inversions rest

/-- One for an even number of inversions, minus one for an odd number. -/
def sign {K : Type} [Scalar K] (p : List Nat) : K :=
  if inversions p % 2 = 0 then ((1 : Nat) : K) else -((1 : Nat) : K)

end Ordering
end HexMesh
