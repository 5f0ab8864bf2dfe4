import Mathlib.Algebra.Field.Rat
import Mathlib.Algebra.Order.Ring.Rat
import Mathlib.Tactic.Linarith
import Mathlib.Tactic.NormNum
import HexMesh.Proofs.Mesh.WellFormed
import HexMesh.Proofs.Number.Ordered
import HexMesh.Tour.Meshes

/-!
Lifting the upper side of a mesh.

The vertices are visited cell by cell, so one that is shared is visited again and again.  A
vertex that was lifted is no longer on the upper side, and to visit it again changes nothing.  So
a vertex ends where its first visit takes it, in whatever order the cells list it.
-/

namespace HexMesh

variable {K : Type}

/-- Where a map acts once only, a vertex may be visited any number of times. -/
theorem Mesh.getElem?_foldl_modifyVertex {d : Nat} {f : Point K d → Point K d}
    (hf : ∀ p, f (f p) = f p) (visits : List Nat) (m : Mesh K d) (v : Nat) :
    (visits.foldl (fun m u => m.modifyVertex u f) m).vertices[v]? =
      if v ∈ visits then m.vertices[v]?.map f else m.vertices[v]? := by
  induction visits generalizing m with
  | nil => rw [List.foldl_nil, if_neg List.not_mem_nil]
  | cons u rest ih =>
    have hvisit : (m.modifyVertex u f).vertices[v]? =
        if u = v then m.vertices[v]?.map f else m.vertices[v]? := Array.getElem?_modify
    rw [List.foldl_cons, ih, hvisit]
    by_cases huv : u = v
    · subst huv
      rw [if_pos rfl, if_pos List.mem_cons_self, Option.map_map]
      have hagain : f ∘ f = f := funext hf
      rw [hagain, ite_self]
    · rw [if_neg huv]
      have hrest : v ∈ u :: rest ↔ v ∈ rest := by
        rw [List.mem_cons, or_iff_right (Ne.symm huv)]
      rw [if_congr hrest rfl rfl]

namespace Tour

variable [Field K] [LinearOrder K] [IsStrictOrderedRing K]

omit [IsStrictOrderedRing K] in
theorem onTopEdge_iff {p : Point K 2} : onTopEdge p = true ↔ |p.ordinate - 1| < 1 / 10 ^ 5 := by
  have htolerance : (Scalar.ratio 1 (Nat.pow 10 5) : K) = 1 / 10 ^ 5 := by
    norm_num [Scalar.ratio]
  rw [onTopEdge, decide_eq_true_iff, htolerance, Nat.cast_one]
  rfl

omit [IsStrictOrderedRing K] in
theorem raise_of_near {p : Point K 2} (h : |p.ordinate - 1| < 1 / 10 ^ 5) :
    raise p = .xy p.abscissa (p.ordinate + 1 / 2) := by
  have hhalf : (Scalar.ratio 1 2 : K) = 1 / 2 := by norm_num [Scalar.ratio]
  rw [raise, if_pos (onTopEdge_iff.mpr h), hhalf]

omit [IsStrictOrderedRing K] in
theorem raise_of_far {p : Point K 2} (h : ¬|p.ordinate - 1| < 1 / 10 ^ 5) : raise p = p := by
  rw [raise, if_neg (onTopEdge_iff.not.mpr h)]

/-- A point that was lifted is half a unit away from where it could be lifted. -/
theorem raise_raise (p : Point K 2) : raise (raise p) = raise p := by
  by_cases hnear : |p.ordinate - 1| < 1 / 10 ^ 5
  · rw [raise_of_near hnear]
    refine raise_of_far ?_
    show ¬|p.ordinate + 1 / 2 - 1| < 1 / 10 ^ 5
    obtain ⟨hlow, -⟩ := abs_lt.mp hnear
    intro hagain
    obtain ⟨-, hhigh⟩ := abs_lt.mp hagain
    have hgap : (1 : K) / 10 ^ 5 + 1 / 10 ^ 5 < 1 / 2 := by norm_num
    linarith
  · rw [raise_of_far hnear, raise_of_far hnear]

omit [IsStrictOrderedRing K] in
theorem exists_raiseTopEdge (m : Mesh K 2) :
    ∃ vertices : Array (Point K 2), vertices.size = m.vertices.size ∧
      raiseTopEdge m = { m with vertices } :=
  Mesh.exists_foldl_modifyVertex id (fun _ => raise) (m.cells.flatMap Vector.toList) m

theorem getElem?_raiseTopEdge (m : Mesh K 2) (v : Nat) :
    (raiseTopEdge m).vertices[v]? =
      if ∃ c ∈ m.cells, v ∈ c.toList then m.vertices[v]?.map raise else m.vertices[v]? := by
  rw [raiseTopEdge, Mesh.getElem?_foldl_modifyVertex raise_raise,
    if_congr List.mem_flatMap rfl rfl]

/-- Nothing is left to be lifted: the cells use the same vertices as before. -/
theorem raiseTopEdge_raiseTopEdge (m : Mesh K 2) :
    raiseTopEdge (raiseTopEdge m) = raiseTopEdge m := by
  obtain ⟨vertices, -, hraised⟩ := exists_raiseTopEdge m
  have hcells : (raiseTopEdge m).cells = m.cells := by rw [hraised]
  obtain ⟨again, -, hagain⟩ := exists_raiseTopEdge (raiseTopEdge m)
  have hvertices : again = (raiseTopEdge m).vertices := Array.ext_getElem? fun v => by
    have hentry : again[v]? = (raiseTopEdge (raiseTopEdge m)).vertices[v]? := by rw [hagain]
    rw [hentry, getElem?_raiseTopEdge, hcells, getElem?_raiseTopEdge]
    by_cases hused : ∃ c ∈ m.cells, v ∈ c.toList
    · have hraise : raise ∘ raise = (raise : Point K 2 → Point K 2) := funext raise_raise
      rw [if_pos hused, if_pos hused, Option.map_map, hraise]
    · rw [if_neg hused, if_neg hused]
  rw [hagain, hvertices]

/-- Lifting moves the vertices of cells that lie on the upper side, up to the tolerance, by half
a unit upwards.  All others stay, cells and boundary do too, and there is nothing left to be
lifted. -/
theorem raiseTopEdge_once (m : Mesh K 2) :
    let raised := raiseTopEdge m
    let lifted (v : Nat) (p : Point K 2) : Prop :=
      (∃ c ∈ m.cells, v ∈ c.toList) ∧ |p.ordinate - 1| < 1 / 10 ^ 5
    raised.cells = m.cells ∧ raised.indicators = m.indicators ∧ raised.shapes = m.shapes ∧
      raised.vertices.size = m.vertices.size ∧
      (∀ v p, m.vertices[v]? = some p → lifted v p →
        raised.vertices[v]? = some (.xy p.abscissa (p.ordinate + 1 / 2))) ∧
      (∀ v p, m.vertices[v]? = some p → ¬lifted v p → raised.vertices[v]? = some p) ∧
      raiseTopEdge raised = raised := by
  intro raised lifted
  obtain ⟨vertices, hsize, hraised⟩ := exists_raiseTopEdge m
  have hsame : raised = { m with vertices } := hraised
  refine ⟨by rw [hsame], by rw [hsame], by rw [hsame], by rw [hsame]; exact hsize,
    fun v p hp hlifted => ?_, fun v p hp hstays => ?_, raiseTopEdge_raiseTopEdge m⟩
  · rw [getElem?_raiseTopEdge, if_pos hlifted.1, hp, Option.map_some, raise_of_near hlifted.2]
  · rw [getElem?_raiseTopEdge, hp]
    by_cases hused : ∃ c ∈ m.cells, v ∈ c.toList
    · rw [if_pos hused, Option.map_some, raise_of_far fun hnear => hstays ⟨hused, hnear⟩]
    · rw [if_neg hused]

/-- Three cells around a common vertex on the upper side, another vertex that is a little lower, one
that is just too low, and one on the upper side that no cell uses. -/
def roof : Mesh ℚ 2 :=
  { vertices := #[.xy 2 0, .xy 1 0, .xy 0 0, .xy 0 (1 - 1 / 10 ^ 5), .xy 1 1,
      .xy 2 (1 - 1 / 10 ^ 6), .xy 1 3, .xy 5 1]
    cells := [#v[2, 1, 3, 4], #v[4, 1, 5, 0], #v[3, 4, 4, 6]]
    indicators := KeyMap.ofEntries [([3, 4], 7)] }

theorem raiseTopEdge_once_roof :
    ((∃ c ∈ roof.cells, 5 ∈ c.toList) ∧ |(1 - 1 / 10 ^ 6 : ℚ) - 1| < 1 / 10 ^ 5) ∧
      (raiseTopEdge roof).vertices[4]? = some (.xy 1 (3 / 2)) ∧
      (raiseTopEdge roof).vertices[5]? = some (.xy 2 (3 / 2 - 1 / 10 ^ 6)) ∧
      (raiseTopEdge roof).vertices[3]? = some (.xy 0 (1 - 1 / 10 ^ 5)) ∧
      (raiseTopEdge roof).vertices[7]? = some (.xy 5 1) ∧
      raiseTopEdge (raiseTopEdge roof) = raiseTopEdge roof := by
  have hused : ∃ c ∈ roof.cells, 5 ∈ c.toList := by decide
  have hnear : |(1 - 1 / 10 ^ 6 : ℚ) - 1| < 1 / 10 ^ 5 := by decide +kernel
  have hlow : ¬|(1 - 1 / 10 ^ 5 : ℚ) - 1| < 1 / 10 ^ 5 := by decide +kernel
  have hunused : ¬∃ c ∈ roof.cells, 7 ∈ c.toList := by decide
  obtain ⟨-, -, -, -, hlifted, hstays, hagain⟩ := raiseTopEdge_once roof
  have hshared := hlifted 4 (.xy 1 1) rfl ⟨by decide, by decide +kernel⟩
  have hlower := hlifted 5 (.xy 2 (1 - 1 / 10 ^ 6)) rfl ⟨hused, hnear⟩
  refine ⟨⟨hused, hnear⟩, hshared.trans ?_, hlower.trans ?_, hstays 3 _ rfl fun h => hlow h.2,
    hstays 7 _ rfl fun h => hunused h.1, hagain⟩
  · exact congrArg (fun y => some (Point.xy 1 y)) (by decide +kernel)
  · exact congrArg (fun y => some (Point.xy 2 y)) (by decide +kernel)

end Tour
end HexMesh
