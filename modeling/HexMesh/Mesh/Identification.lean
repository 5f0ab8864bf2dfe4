import HexMesh.Mesh.Boundary

/-!
Identification of vertices that lie at the same place.

Vertices are visited in the order of their first coordinate.  A vertex that has
not been identified with an earlier one stands for itself and takes over every
later one that agrees with it in all coordinates up to a tolerance.  Since the
first coordinates ascend, the candidates are a stretch of the order right behind
the vertex.
-/

namespace HexMesh

/-- Which vertex stands for each vertex.  A vertex outside the table stands for itself. -/
structure Identification where
  representative : Array Nat

namespace Identification

/-- Every vertex stands for itself. -/
def discrete (n : Nat) : Identification := ⟨Array.range n⟩

def of (r : Identification) (v : Nat) : Nat := r.representative.getD v v

/-- A vertex that stands for itself survives. -/
def survives (r : Identification) (v : Nat) : Bool := r.of v == v

/-- Let `a` stand for `b`. -/
def assign (r : Identification) (a b : Nat) : Identification :=
  ⟨r.representative.setIfInBounds b a⟩

/-- The surviving vertices in ascending order. -/
def survivors (r : Identification) : List Nat :=
  (List.range r.representative.size).filter r.survives

/-- The new number of every vertex: the place of its representative among the survivors. -/
def renumbering (r : Identification) : Array Nat :=
  let place := r.survivors.zipIdx.foldl (fun t (v, i) => t.setIfInBounds v i)
    (Array.replicate r.representative.size 0)
  r.representative.map fun v => place.getD v 0

end Identification

namespace Mesh

variable {K : Type} [Scalar K] {d : Nat}

/-- The first coordinate of a vertex. -/
def leading (m : Mesh K d) (v : Nat) : K := ((m.position v).coords[0]?).getD ((0 : Nat) : K)

/-- The vertices in ascending order of their first coordinate, equal ones by number. -/
def sweepOrder (m : Mesh K d) : List Nat :=
  (List.range m.vertices.size).mergeSort fun a b =>
    (Scalar.rank (m.leading a) (m.leading b)).isLE

/-- Two vertices agree in every coordinate up to a tolerance. -/
def close (m : Mesh K d) (tol : K) (a b : Nat) : Bool :=
  (Vector.zipWith (fun p q => decide (Scalar.abs (p - q) ≤ tol)) (m.position a).coords
    (m.position b).coords).toList.all id

/-- Let `a` take over the vertices of a list that are close to it and stand for
themselves. -/
def absorb (m : Mesh K d) (tol : K) (a : Nat) (r : Identification) (bs : List Nat) :
    Identification :=
  bs.foldl (fun r b => if r.survives b && m.close tol a b then r.assign a b else r) r

/-- Visit the vertices of a list.  The candidates of a vertex end at the first later one
that exceeds its first coordinate by more than the tolerance. -/
def sweep (m : Mesh K d) (tol : K) : List Nat → Identification → Identification
  | [], r => r
  | a :: later, r =>
    let candidates := later.takeWhile fun b => !decide (tol < m.leading b - m.leading a)
    m.sweep tol later (if r.survives a then m.absorb tol a r candidates else r)

/-- Which vertices are identified for a given tolerance. -/
def identify (m : Mesh K d) (tol : K) : Identification :=
  m.sweep tol m.sweepOrder (.discrete m.vertices.size)

omit [Scalar K] in
/-- The entries of a map of indicators under new vertex numbers, put in one by one. -/
def renumberIndicators (f : Nat → Nat) (entries : List (Key × Indicator)) : KeyMap Indicator :=
  KeyMap.ofEntries (entries.map fun e => (Key.ofList (e.1.map f), e.2))

omit [Scalar K] in
/-- Other vertices, with vertex `v` of the cells and keys becoming vertex `f v`. -/
def renumber (m : Mesh K d) (vertices : Array (Point K d)) (f : Nat → Nat) : Mesh K d :=
  { m with
    vertices
    cells := m.cells.map (·.map f)
    indicators := renumberIndicators f m.indicators.toList }

/-- Identify the vertices that agree up to a tolerance, and tell how many were removed.
If any were, a stored key that mentions a vertex outside the table cannot be renumbered. -/
def deduplicate (m : Mesh K d) (tol : K) : Except (Fault K) (Mesh K d × Nat) :=
  let r := m.identify tol
  let survivors := r.survivors
  let removed := m.vertices.size - survivors.length
  if removed = 0 then .ok (m, 0)
  else if m.indicators.keys.all (·.below m.vertices.size) then
    let numbers := r.renumbering
    .ok (m.renumber (survivors.map m.position).toArray (fun v => numbers.getD v 0), removed)
  else .error .outOfRange

end Mesh
end HexMesh
