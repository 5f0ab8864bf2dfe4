import Mathlib.Algebra.BigOperators.Fin
import Mathlib.Algebra.Field.Rat
import Mathlib.Algebra.Order.BigOperators.Group.List
import Mathlib.Algebra.Order.Ring.Rat
import HexMesh.Proofs.Mesh.Orientation
import HexMesh.Proofs.Number.Rational
import HexMesh.Proofs.Refinement.Halving

/-!
Convex cells under refinement.

A quadrilateral is strictly convex, with its corners in the right order, when its orientation is
positive at each of them.  The orientation of a child at one of its corners is a quarter of the
mean of four orientations of the parent: those at the child's own corner, at the corner in question
and at the two corners that have one side from each.  So the property is kept by every refinement.
It would not be enough to know the orientation at the lowest corner, which is all that the program
looks at.
-/

namespace HexMesh

open HexMesh.Cube

variable {K : Type} {d : Nat}

/-! ## Corners of the square -/

namespace Cube.Corner

theorem toward_toward (v : Corner d) (axis : Fin d) (last last' : Bool) :
    (v.toward axis last).toward axis last' = v.toward axis last' := by
  refine ext_high fun a => ?_
  simp only [high_toward]
  split <;> rfl

/-- The four corners that have each side from one of two corners. -/
def between (v w : Corner 2) : List (Corner 2) :=
  [v, v.toward 0 (w.high 0), v.toward 1 (w.high 1), w]

/-- Two of the four corners move with a side of the second one. -/
theorem between_toward (v w : Corner 2) (last : Bool) :
    v.between (w.toward 0 last) =
        [v, v.toward 0 last, v.toward 1 (w.high 1), w.toward 0 last] ∧
      v.between (w.toward 1 last) =
        [v, v.toward 0 (w.high 0), v.toward 1 last, w.toward 1 last] := by
  revert v w last
  decide

/-- They are the corners of the piece between the two, all repeated equally often. -/
theorem latticeCorners_perm (child v : Corner 2) :
    (List.replicate (4 / (latticeCorners 2 (childPoint child v)).length)
      (latticeCorners 2 (childPoint child v))).flatten.Perm (child.between v) := by
  revert child v
  decide +kernel

/-- No corner stands between more pairs of corners than any other. -/
theorem flatMap_between_perm :
    ((corners 2).flatMap fun child => (corners 2).flatMap child.between).Perm
      (List.replicate 16 (corners 2)).flatten := by
  decide +kernel

end Cube.Corner

/-! ## Children of a cell -/

theorem sum_map_flatMap_div {α β : Type} [Field K] (as : List α) (g : α → List β) (f : β → K)
    (n : K) : ((as.flatMap g).map f).sum / n = (as.map fun a => ((g a).map f).sum / n).sum := by
  induction as with
  | nil => simp
  | cons a rest ih =>
    rw [List.flatMap_cons, List.map_append, List.sum_append, add_div, ih, List.map_cons,
      List.sum_cons]

namespace Cell

variable [Field K] [LinearOrder K]

/-- The corners of a child of the cell with given corners. -/
def childPoints (corners : Vector (Point K d) (cornerCount d)) (child : Corner d) :
    Vector (Point K d) (cornerCount d) :=
  Vector.ofFn fun v => Point.average ((latticeCorners d (childPoint child v)).map corners.get)

@[simp] theorem get_childPoints (corners : Vector (Point K d) (cornerCount d))
    (child v : Corner d) : (childPoints corners child).get v =
      Point.average ((latticeCorners d (childPoint child v)).map corners.get) :=
  Vector.getElem_ofFn v.isLt

/-- The area of a quadrilateral, positive if its boundary turns to the left. -/
def signedArea (corners : Vector (Point K 2) (cornerCount 2)) : K :=
  let cross (v w : Corner 2) : K :=
    (corners.get v).abscissa * (corners.get w).ordinate -
      (corners.get v).ordinate * (corners.get w).abscissa
  (cross 0 1 + cross 1 3 + cross 3 2 + cross 2 0) / ((2 : Nat) : K)

/-- Twice the area of the triangle of three corners, positive if they turn to the left. -/
def turn (corners : Vector (Point K 2) (cornerCount 2)) (u v w : Corner 2) : K :=
  let edge (v : Corner 2) (i : Fin 2) : K :=
    (corners.get v).coords.get i - (corners.get u).coords.get i
  edge v 0 * edge w 1 - edge v 1 * edge w 0

/-- The orientation at a corner says how the boundary turns there. -/
theorem orientationAt_eq_turn (corners : Vector (Point K 2) (cornerCount 2)) :
    orientationAt corners 0 = turn corners 0 1 2 ∧ orientationAt corners 1 = turn corners 1 3 0 ∧
      orientationAt corners 2 = turn corners 2 0 3 ∧
        orientationAt corners 3 = turn corners 3 2 1 := by
  let edge (v w : Corner 2) (i : Fin 2) : K :=
    (corners.get w).coords.get i - (corners.get v).coords.get i
  have hdet {v start start' stop stop' : Corner 2}
      (hends : v.toward 0 false = start ∧ v.toward 0 true = stop ∧ v.toward 1 false = start' ∧
        v.toward 1 true = stop') : orientationAt corners v =
          edge start stop 0 * edge start' stop' 1 - edge start stop 1 * edge start' stop' 0 := by
    obtain ⟨rfl, rfl, rfl, rfl⟩ := hends
    exact Matrix.det_fin_two _
  have hone : orientationAt corners 1 = edge 0 1 0 * edge 1 3 1 - edge 0 1 1 * edge 1 3 0 :=
    hdet (by decide)
  have htwo : orientationAt corners 2 = edge 2 3 0 * edge 0 2 1 - edge 2 3 1 * edge 0 2 0 :=
    hdet (by decide)
  have hthree : orientationAt corners 3 = edge 2 3 0 * edge 1 3 1 - edge 2 3 1 * edge 1 3 0 :=
    hdet (by decide)
  refine ⟨hdet (by decide), ?_, ?_, ?_⟩
  · rw [hone, turn]
    ring
  · rw [htwo, turn]
    ring
  · rw [hthree, turn]
    ring

/-- Along an axis the edges at both ends are the same. -/
theorem edgesAt_toward (corners : Vector (Point K d) (cornerCount d)) (v : Corner d) (a : Fin d)
    (last : Bool) : edgesAt corners (v.toward a last) a = edgesAt corners v a := by
  funext i
  simp only [edgesAt, Matrix.of_apply, Corner.toward_toward]

variable [IsStrictOrderedRing K] (corners : Vector (Point K 2) (cornerCount 2))
  (child v : Corner 2)

theorem get_childPoints_plane (a : Fin 2) :
    ((childPoints corners child).get v).coords.get a =
      ((child.between v).map fun w => (corners.get w).coords.get a).sum / 4 := by
  have hperm := Corner.latticeCorners_perm child v
  have hrepeat : 4 / (latticeCorners 2 (childPoint child v)).length ≠ 0 := fun hzero => by
    have hlength := hperm.length_eq
    rw [hzero] at hlength
    exact absurd (show 0 = 4 from hlength) (by decide)
  rw [get_childPoints, ← Point.average_flatten_replicate hrepeat, ← List.map_replicate,
    ← List.map_flatten, Point.average_perm (hperm.map _), Point.get_average, List.map_map]
  rfl

/-- An edge of a child is a quarter of the edges at the two corners that it lies between. -/
theorem edgesAt_childPoints (a i : Fin 2) :
    edgesAt (childPoints corners child) v a i =
      (edgesAt corners child a i + edgesAt corners v a i) / 4 := by
  have hget (last : Bool) := get_childPoints_plane corners child (v.toward a last) i
  have hmoved (last : Bool) := Corner.between_toward child v last
  -- Of the four corners in the mean, two move with the end of the edge and two cancel.
  fin_cases a
  all_goals
    simp only [Fin.zero_eta, Fin.mk_one, (hmoved _).1, (hmoved _).2, List.map_cons, List.map_nil,
      List.sum_cons, List.sum_nil] at hget
    simp only [edgesAt, Matrix.of_apply, Fin.zero_eta, Fin.mk_one, hget]
    ring

omit [IsStrictOrderedRing K] in
/-- At a corner with one side from each of two corners, each edge is that at one of the two. -/
theorem edgesAt_toward_plane (w : Corner 2) :
    edgesAt corners (v.toward 0 (w.high 0)) 0 = edgesAt corners v 0 ∧
      edgesAt corners (v.toward 0 (w.high 0)) 1 = edgesAt corners w 1 ∧
      edgesAt corners (v.toward 1 (w.high 1)) 0 = edgesAt corners w 0 ∧
      edgesAt corners (v.toward 1 (w.high 1)) 1 = edgesAt corners v 1 := by
  have hcorner : v.toward 0 (w.high 0) = w.toward 1 (v.high 1) ∧
      v.toward 1 (w.high 1) = w.toward 0 (v.high 0) := by
    revert v w
    decide
  refine ⟨edgesAt_toward .., ?_, ?_, edgesAt_toward ..⟩
  · rw [hcorner.1, edgesAt_toward]
  · rw [hcorner.2, edgesAt_toward]

theorem orientationAt_childPoints :
    orientationAt (childPoints corners child) v =
      ((child.between v).map (orientationAt corners)).sum / 16 := by
  obtain ⟨h₀, h₁, h₂, h₃⟩ := edgesAt_toward_plane corners child v
  simp only [orientationAt, Matrix.det_fin_two, edgesAt_childPoints, Corner.between, List.map_cons,
    List.map_nil, List.sum_cons, List.sum_nil, h₀, h₁, h₂, h₃]
  ring

/-- The area is the mean of the orientations at the four corners. -/
theorem signedArea_eq :
    signedArea corners = ((Cube.corners 2).map (orientationAt corners)).sum / 4 := by
  obtain ⟨hzero, hone, htwo, hthree⟩ := orientationAt_eq_turn corners
  have hcorners : Cube.corners 2 = [0, 1, 2, 3] := rfl
  have hfirst (v : Corner 2) : (corners.get v).abscissa = (corners.get v).coords.get 0 := rfl
  have hsecond (v : Corner 2) : (corners.get v).ordinate = (corners.get v).coords.get 1 := rfl
  simp only [hcorners, signedArea, hfirst, hsecond, List.map_cons, List.map_nil, List.sum_cons,
    List.sum_nil, hzero, hone, htwo, hthree, turn, Nat.cast_ofNat]
  ring

/-- Halving a cell along both axes leaves the area as it is. -/
theorem sum_signedArea_childPoints :
    ∑ child, signedArea (childPoints corners child) = signedArea corners := by
  have hchild (child : Corner 2) : signedArea (childPoints corners child) =
      (((Cube.corners 2).flatMap child.between).map (orientationAt corners)).sum / 64 := by
    have horientation : orientationAt (childPoints corners child) =
        fun v => ((child.between v).map (orientationAt corners)).sum / 16 :=
      funext (orientationAt_childPoints corners child)
    rw [signedArea_eq, horientation, ← sum_map_flatMap_div, div_div]
    norm_num
  have hall := (Corner.flatMap_between_perm.map (orientationAt corners)).sum_eq
  rw [List.map_flatten, List.map_replicate, List.sum_flatten, List.map_replicate,
    List.sum_replicate] at hall
  calc ∑ child, signedArea (childPoints corners child)
      = ((Cube.corners 2).map fun child =>
          (((Cube.corners 2).flatMap child.between).map (orientationAt corners)).sum / 64).sum := by
        rw [Fin.sum_univ_def]
        exact congrArg List.sum (List.map_congr_left fun child _ => hchild child)
    _ = 16 • ((Cube.corners 2).map (orientationAt corners)).sum / 64 := by
        rw [← sum_map_flatMap_div, hall]
    _ = signedArea corners := by
        rw [signedArea_eq, nsmul_eq_mul]
        ring

end Cell

/-! ## Refined meshes -/

namespace Mesh

variable [Field K] [LinearOrder K] {m : Mesh K d} {c : Cell d}

theorem cornerPoints_childCell (hm : m.CellsValid) (hshapes : m.shapes = ∅) (hc : c ∈ m.cells)
    (child : Corner d) :
    m.refineOnce.cornerPoints (m.childCell m.newKeys c child) =
      Cell.childPoints (m.cornerPoints c) child := by
  have hget (v : Corner d) :
      (m.refineOnce.cornerPoints (m.childCell m.newKeys c child)).get v =
        (Cell.childPoints (m.cornerPoints c) child).get v := by
    have hsite := (isPiece_latticeKey hc child v).mem_sites hm
    have hcorners : (m.cornerPoints c).get = m.position ∘ c.get :=
      funext (m.get_cornerPoints c)
    rw [get_cornerPoints, get_childCell, position_middle hshapes hsite, Cell.get_childPoints,
      hcorners, ← List.map_map]
    exact Point.average_perm ((Key.ofList_perm _).map _)
  exact Vector.ext fun i hi => hget ⟨i, hi⟩

/-- Every cell is strictly convex and not turned over: at all of its corners it has a positive
orientation. -/
def CellsConvex (m : Mesh K 2) : Prop :=
  ∀ c ∈ m.cells, ∀ v, 0 < Cell.orientationAt (m.cornerPoints c) v

instance (m : Mesh K 2) : Decidable m.CellsConvex :=
  inferInstanceAs (Decidable (∀ c ∈ m.cells, ∀ v, 0 < Cell.orientationAt (m.cornerPoints c) v))

variable {m : Mesh K 2} {c : Cell 2}

theorem CellsConvex.inverted_inspect [SquareRoot K] (h : m.CellsConvex) :
    m.inspect.inverted = 0 := by
  rw [Mesh.inverted_inspect, List.countP_eq_zero]
  intro c hc
  rw [isInverted_iff (Or.inl rfl)]
  exact (h c hc _).not_gt

variable [IsStrictOrderedRing K]

theorem CellsConvex.refineOnce (h : m.CellsConvex) (hm : m.CellsValid) (hshapes : m.shapes = ∅) :
    m.refineOnce.CellsConvex := by
  intro c' hc' v
  obtain ⟨c, hc, child, rfl⟩ := mem_cells_refineOnce.mp hc'
  rw [cornerPoints_childCell hm hshapes hc, Cell.orientationAt_childPoints]
  refine div_pos (List.sum_pos _ (fun x hx => ?_) (by simp [Corner.between])) (by norm_num)
  obtain ⟨w, -, rfl⟩ := List.mem_map.mp hx
  exact h c hc w

/-- Refining a mesh of convex cells without shapes never inverts a cell, at whatever corner one
looks, and splits the area of each cell among its children. -/
theorem refine_convex [SquareRoot K] (hm : m.CellsValid) (hshapes : m.shapes = ∅)
    (hconvex : m.CellsConvex) (n : Nat) :
    (m.refine n).CellsConvex ∧ (m.refine n).inspect.inverted = 0 ∧
      ∀ i c, (m.refine n).cells[i]? = some c → ∃ child : Corner 2 → Cell 2,
        (∀ v : Corner 2, (m.refine (n + 1)).cells[i * cornerCount 2 + v]? = some (child v)) ∧
          ∑ v, Cell.signedArea ((m.refine (n + 1)).cornerPoints (child v)) =
            Cell.signedArea ((m.refine n).cornerPoints c) := by
  -- All corners are needed in the induction: those of a child take from several of its parent.
  have hrefined : (m.refine n).CellsConvex := by
    induction n with
    | zero => exact hconvex
    | succ n ih =>
      rw [refine_succ]
      exact ih.refineOnce (cellsValid_refine hm n) ((m.shapes_refine n).trans hshapes)
  refine ⟨hrefined, hrefined.inverted_inspect, fun i c hc => ?_⟩
  have hflat : (m.refine n).shapes = ∅ := (m.shapes_refine n).trans hshapes
  have hplace (v : Corner 2) : (m.refine n).refineOnce.cells[i * cornerCount 2 + v]? =
      some ((m.refine n).childCell (m.refine n).newKeys c v) := by
    rw [getElem?_cells_refineOnce, hc, Option.map_some]
  rw [refine_succ]
  refine ⟨_, hplace, ?_⟩
  simp only [cornerPoints_childCell (cellsValid_refine hm n) hflat (List.mem_of_getElem? hc)]
  exact Cell.sum_signedArea_childPoints _

/-- Two convex quadrilaterals with a common side, none of them a parallelogram. -/
def quads : Mesh ℚ 2 :=
  { vertices := #[.xy 3 (-1), .xy 0 0, .xy 4 3, .xy 1 2, .xy 7 0, .xy 6 2]
    cells := [#v[1, 0, 3, 2], #v[0, 4, 2, 5]]
    indicators := ∅ }

theorem refine_convex_quads :
    quads.CellsValid ∧ quads.shapes = ∅ ∧ quads.CellsConvex ∧ (quads.refine 2).CellsConvex ∧
      (quads.refine 2).inspect.inverted = 0 :=
  have hm : quads.CellsValid := by decide +kernel
  have hconvex : quads.CellsConvex := by decide +kernel
  have h := refine_convex hm rfl hconvex 2
  ⟨hm, rfl, hconvex, h.1, h.2.1⟩

/-- A cell whose orientation is positive at its lowest corner only may have an inverted child. -/
example :
    let m : Mesh ℚ 2 := ⟨#[.xy 1 1, .xy 1 0, .xy 0 0, .xy 2 (-5)], [#v[2, 1, 0, 3]], ∅, ∅⟩
    m.inspect.inverted = 0 ∧ m.refineOnce.inspect.inverted = 1 := by
  decide +kernel

end Mesh
end HexMesh
