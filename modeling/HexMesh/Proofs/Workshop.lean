import HexMesh.Proofs.Mesh.Strict
import Mathlib.Logic.Function.Basic

/-!
Meshes that are made, changed and used for each other, in any order and any number.

A workshop holds meshes of every dimension.  One operation makes a mesh or changes one that is
there, and an operation that fails leaves all meshes as they were.  Every mesh that a run of
operations leads to is well-formed, so no number that it stores is ever looked up in vain.
-/

namespace HexMesh

open Strict

variable {K : Type} {d : Nat}

/-- The meshes of each dimension, in the order in which they were made. -/
structure Workshop (K : Type) where
  meshes : (d : Nat) → List (Mesh K d) := fun _ => []

/-- What can be done to a mesh. -/
inductive Change (K : Type) (d : Nat) where
  | setIndicator (vs : List Nat) (i : Indicator)
  | setFaceIndicator (cell face : Nat) (i : Indicator)
  | setShape (i : Indicator) (s : Shape K d)
  | clearShape (i : Indicator)
  | refine (times : Nat)
  | transform (f : Point K d → Point K d)
  | distort (factor : K) (keepBoundary : Bool) (words : WordStream)
  | deduplicate (tol : K)

/-- What a new mesh is made from.  The meshes of the workshop go by their numbers. -/
inductive Source (K : Type) : Nat → Type where
  | nothing {d : Nat} : Source K d
  | cells {d : Nat} (vertices : Array (Point K d)) (cells : List (List Nat)) : Source K d
  | box {d : Nat} (repetitions : Vector Nat d) (p q : Point K d) (colorize : Bool) : Source K d
  | squareWithHole (inner outer : K) : Source K 2
  | file {d : Nat} (bytes : List UInt8) : Source K d
  | copy {d : Nat} (i : Nat) : Source K d
  | merge {d : Nat} (i j : Nat) : Source K d
  | extrude (i slices : Nat) (height : K) : Source K 3

inductive Operation (K : Type) where
  | make {d : Nat} (source : Source K d)
  | change {d : Nat} (i : Nat) (c : Change K d)

/-! ## Changes -/

namespace Change

def apply [Scalar K] [SquareRoot K] (m : Mesh K d) : Change K d → Except (Fault K) (Mesh K d)
  | setIndicator vs i => .ok (m.setIndicator vs i)
  | setFaceIndicator cell face i => m.setFaceIndicatorAt cell face i
  | setShape i s => .ok (m.setShape i s)
  | clearShape i => .ok (m.clearShape i)
  | refine times => .ok (m.refine times)
  | transform f => .ok (m.transform f)
  | distort factor keepBoundary words => .ok (m.distort factor keepBoundary words)
  | deduplicate tol => return (← m.deduplicate tol).1

/-- A face that is named by its vertices must be made of vertices of the mesh.  Nothing else is
asked of a caller: an indicator is stored for any list of numbers. -/
def Allowed (m : Mesh K d) : Change K d → Prop
  | setIndicator vs _ => ∀ v ∈ vs, v < m.vertices.size
  | _ => True

instance (m : Mesh K d) : (c : Change K d) → Decidable (c.Allowed m)
  | setIndicator vs _ => inferInstanceAs (Decidable (∀ v ∈ vs, v < m.vertices.size))
  | setFaceIndicator .. | setShape .. | clearShape .. | refine .. | transform .. | distort ..
  | deduplicate .. => isTrue trivial

variable [Scalar K] [SquareRoot K]

theorem wellFormed_apply {m m' : Mesh K d} (hm : m.WellFormed) {c : Change K d}
    (hc : c.Allowed m) (h : c.apply m = .ok m') : m'.WellFormed := by
  cases c with
  | setIndicator vs i =>
    cases h
    exact hm.setIndicator hc i
  | setFaceIndicator cell face i => exact hm.setFaceIndicatorAt h
  | setShape i s =>
    cases h
    exact hm.setShape i s
  | clearShape i =>
    cases h
    exact hm.clearShape i
  | refine times =>
    cases h
    exact hm.refine times
  | transform f =>
    cases h
    exact hm.transform f
  | distort factor keepBoundary words =>
    cases h
    exact hm.distort factor keepBoundary words
  | deduplicate tol =>
    obtain ⟨⟨glued, n⟩, hglued, h⟩ := bind_eq_ok_iff.mp h
    cases h
    exact hm.deduplicate hglued

end Change

/-! ## The workshop -/

namespace Workshop

def meshAt (w : Workshop K) (d i : Nat) : Except (Fault K) (Mesh K d) :=
  match (w.meshes d)[i]? with
  | some m => .ok m
  | none => .error .outOfRange

def add (w : Workshop K) (m : Mesh K d) : Workshop K :=
  ⟨Function.update w.meshes d (w.meshes d ++ [m])⟩

def replace (w : Workshop K) (i : Nat) (m : Mesh K d) : Workshop K :=
  ⟨Function.update w.meshes d ((w.meshes d).set i m)⟩

def WellFormed (w : Workshop K) : Prop := ∀ d, ∀ m ∈ w.meshes d, m.WellFormed

theorem meshAt_eq_ok_iff {w : Workshop K} {i : Nat} {m : Mesh K d} :
    w.meshAt d i = .ok m ↔ (w.meshes d)[i]? = some m := by
  unfold meshAt
  cases (w.meshes d)[i]? <;> simp

theorem WellFormed.meshAt {w : Workshop K} (hw : w.WellFormed) {i : Nat} {m : Mesh K d}
    (h : w.meshAt d i = .ok m) : m.WellFormed :=
  hw d m (List.mem_of_getElem? (meshAt_eq_ok_iff.mp h))

section Meshes

variable {w : Workshop K} {P : (e : Nat) → Mesh K e → Prop} {m : Mesh K d}

/-- What is true of all meshes is so still when the meshes of one dimension are replaced. -/
theorem forall_update (hw : ∀ e, ∀ a ∈ w.meshes e, P e a) {meshes : List (Mesh K d)}
    (h : ∀ a ∈ meshes, P d a) : ∀ e, ∀ a ∈ Function.update w.meshes d meshes e, P e a :=
  (Function.forall_update_iff w.meshes fun e ms => ∀ a ∈ ms, P e a).mpr ⟨h, fun e _ => hw e⟩

theorem forall_add (hw : ∀ e, ∀ a ∈ w.meshes e, P e a) (hm : P d m) :
    ∀ e, ∀ a ∈ (w.add m).meshes e, P e a := by
  refine forall_update hw fun a ha => ?_
  rcases List.mem_append.mp ha with ha | ha
  · exact hw d a ha
  · exact List.mem_singleton.mp ha ▸ hm

theorem forall_replace (hw : ∀ e, ∀ a ∈ w.meshes e, P e a) (hm : P d m) (i : Nat) :
    ∀ e, ∀ a ∈ (w.replace i m).meshes e, P e a := by
  refine forall_update hw fun a ha => ?_
  rcases List.mem_or_eq_of_mem_set ha with ha | rfl
  · exact hw d a ha
  · exact hm

theorem WellFormed.add (hw : w.WellFormed) (hm : m.WellFormed) : (w.add m).WellFormed :=
  forall_add (P := fun _ a => a.WellFormed) hw hm

theorem WellFormed.replace (hw : w.WellFormed) (hm : m.WellFormed) (i : Nat) :
    (w.replace i m).WellFormed := forall_replace (P := fun _ a => a.WellFormed) hw hm i

end Meshes

/-- An operation must name existing vertices where it names a face by its vertices. -/
def Allows (w : Workshop K) : Operation K → Prop
  | .make _ => True
  | .change (d := d) i c => ∀ m ∈ (w.meshes d)[i]?, c.Allowed m

instance (w : Workshop K) : (o : Operation K) → Decidable (w.Allows o)
  | .make _ => isTrue trivial
  | .change (d := d) i c => inferInstanceAs (Decidable (∀ m ∈ (w.meshes d)[i]?, c.Allowed m))

variable [Scalar K] [SquareRoot K] [Transcendental K] [Numeral K]

/-- The mesh made from a source.  A mesh that the workshop does not have is the fault of the
caller. -/
def make (w : Workshop K) : {d : Nat} → Source K d → Except (Fault K) (Mesh K d)
  | _, .nothing => .ok {}
  | _, .cells vertices cells => Mesh.ofCells vertices cells
  | _, .box repetitions p q colorize => Mesh.box repetitions p q colorize
  | _, .squareWithHole inner outer => Mesh.squareWithHole inner outer
  | d, .file bytes => Msh.read d bytes
  | d, .copy i => w.meshAt d i
  | d, .merge i j => do (← w.meshAt d i).merge (← w.meshAt d j)
  | _, .extrude i slices height => do (← w.meshAt 2 i).extrude slices height

def perform (w : Workshop K) : Operation K → Except (Fault K) (Workshop K)
  | .make source => return w.add (← w.make source)
  | .change (d := d) i c => return w.replace i (← c.apply (← w.meshAt d i))

/-- The workshop after an operation, which stays as it is when the operation fails. -/
def after (w : Workshop K) (o : Operation K) : Workshop K :=
  match w.perform o with
  | .ok w' => w'
  | .error _ => w

def run (w : Workshop K) (ops : List (Operation K)) : Workshop K := ops.foldl after w

/-- Every operation of a run is allowed when its turn comes. -/
def Admissible (w : Workshop K) : List (Operation K) → Prop
  | [] => True
  | o :: rest => w.Allows o ∧ (w.after o).Admissible rest

instance decidableAdmissible (w : Workshop K) :
    (ops : List (Operation K)) → Decidable (w.Admissible ops)
  | [] => isTrue trivial
  | o :: rest =>
    have := decidableAdmissible (w.after o) rest
    inferInstanceAs (Decidable (w.Allows o ∧ (w.after o).Admissible rest))

theorem WellFormed.make {w : Workshop K} (hw : w.WellFormed) {source : Source K d}
    {m : Mesh K d} (h : w.make source = .ok m) : m.WellFormed := by
  cases source with
  | nothing =>
    cases h
    exact Mesh.wellFormed_empty
  | cells vertices cells => exact Mesh.wellFormed_ofCells h
  | box repetitions p q colorize => exact Mesh.wellFormed_box h
  | squareWithHole inner outer => exact Mesh.wellFormed_squareWithHole h
  | file bytes => exact Mesh.wellFormed_read h
  | copy i => exact hw.meshAt h
  | merge i j =>
    obtain ⟨a, ha, h⟩ := bind_eq_ok_iff.mp h
    obtain ⟨b, hb, h⟩ := bind_eq_ok_iff.mp h
    obtain ⟨glued, hglued, hwell⟩ := Mesh.exists_merge (hw.meshAt ha) (hw.meshAt hb)
    cases hglued.symm.trans h
    exact hwell
  | extrude i slices height =>
    obtain ⟨a, ha, h⟩ := bind_eq_ok_iff.mp h
    exact Mesh.wellFormed_extrude (hw.meshAt ha) h

theorem WellFormed.perform {w w' : Workshop K} (hw : w.WellFormed) {o : Operation K}
    (ho : w.Allows o) (h : w.perform o = .ok w') : w'.WellFormed := by
  cases o with
  | make source =>
    obtain ⟨m, hm, h⟩ := bind_eq_ok_iff.mp h
    cases h
    exact hw.add (hw.make hm)
  | change i c =>
    obtain ⟨m, hm, h⟩ := bind_eq_ok_iff.mp h
    obtain ⟨m', hm', h⟩ := bind_eq_ok_iff.mp h
    cases h
    have hallowed : c.Allowed m := ho m (meshAt_eq_ok_iff.mp hm)
    exact hw.replace (Change.wellFormed_apply (hw.meshAt hm) hallowed hm') i

theorem WellFormed.after {w : Workshop K} (hw : w.WellFormed) {o : Operation K}
    (ho : w.Allows o) : (w.after o).WellFormed := by
  unfold Workshop.after
  cases h : w.perform o with
  | ok w' => exact hw.perform ho h
  | error fault => exact hw

theorem WellFormed.run {w : Workshop K} (hw : w.WellFormed) {ops : List (Operation K)}
    (hops : w.Admissible ops) : (w.run ops).WellFormed := by
  induction ops generalizing w with
  | nil => exact hw
  | cons o rest ih => exact ih (hw.after hops.1) hops.2

end Workshop

/-! ## What a run leads to -/

variable [Scalar K]

/-- No lookup by a number that is stored in a mesh, or that comes up while the mesh is worked on,
goes outside.  Faces and corners of a cell are found, and with lookups that fail, identification
and refinement come out as they do. -/
structure Mesh.InRange (m : Mesh K d) : Prop where
  faceKey : ∀ i c, m.cells[i]? = some c → ∀ face, m.faceKeyAt i face = .ok (c.faceKey face) ∧
    (strictFaceKey c face : Strict (Fault K) Key) = total (.ok (c.faceKey face))
  corners : ∀ i c, m.cells[i]? = some c → m.cornersOf i = .ok (m.cornerPoints c).toList
  deduplicate : ∀ tol, ∃ m' n, m.deduplicate tol = .ok (m', n) ∧
    (m.strictDeduplicate tol : Strict (Fault K) (Mesh K d × Nat)) = total (.ok (m', n))
  refine : ∀ n, (m.strictRefine n : Strict (Fault K) (Mesh K d)) = total (.ok (m.refine n))

theorem Mesh.WellFormed.inRange {m : Mesh K d} (h : m.WellFormed) : m.InRange where
  faceKey _ c hc face := ⟨faceKeyAt_eq_ok hc face, strictFaceKey_eq c face⟩
  corners _ c hc := cornersOf_eq_ok hc (h.cell_lt c (List.mem_of_getElem? hc))
  deduplicate tol := strictDeduplicate_eq h tol
  refine n := strictRefine_eq h n

namespace Workshop

variable [SquareRoot K] [Transcendental K] [Numeral K]

/-- In every mesh that a run leads to, each cell has one vertex for each corner of the cube, the
keys are sorted, all numbers belong to vertices, and no lookup fails.  Two such meshes can be
glued, and no lookup fails on the way. -/
theorem run_inRange {ops : List (Operation K)} (h : ({} : Workshop K).Admissible ops) (d : Nat)
    {m : Mesh K d} (hm : m ∈ (({} : Workshop K).run ops).meshes d) :
    (∀ c ∈ m.cells, c.toList.length = 2 ^ d ∧ ∀ v ∈ c.toList, v < m.vertices.size) ∧
      (∀ k ∈ m.indicators, k.Pairwise (· ≤ ·) ∧ ∀ v ∈ k, v < m.vertices.size) ∧
      m.InRange ∧
      ∀ other ∈ (({} : Workshop K).run ops).meshes d, ∃ glued, m.merge other = .ok glued ∧
        (Mesh.strictMerge m other : Strict (Fault K) (Mesh K d)) = total (.ok glued) := by
  have hempty : ({} : Workshop K).WellFormed := fun _ _ h => absurd h List.not_mem_nil
  have hrun := hempty.run h
  have hwell : m.WellFormed := hrun d m hm
  refine ⟨fun c hc => ⟨c.length_toList, hwell.cell_lt c hc⟩,
    fun k hk => ⟨hwell.key_sorted k hk, hwell.key_lt k hk⟩, hwell.inRange, fun other hother => ?_⟩
  obtain ⟨glued, hglued, -⟩ := Mesh.exists_merge hwell (hrun d other hother)
  exact ⟨glued, hglued, (Mesh.strictMerge_eq hwell (hrun d other hother)).trans
    (congrArg total hglued)⟩

/-- A square whose left side is named before it is refined and the lower half of that side
afterwards, a sweep of a mesh that is not there, and a copy. -/
def squareRun : List (Operation Float) :=
  [.make (.cells #[.xy 0 0, .xy 1 0, .xy 0 1, .xy 1 1] [[0, 1, 2, 3]]),
    .change (d := 2) 0 (.setIndicator [2, 0] 7), .change (d := 2) 0 (.refine 1),
    .change (d := 2) 0 (.setIndicator [5, 0] 8), .make (.extrude 5 2 1), .make (d := 2) (.copy 0)]

theorem run_inRange_square :
    ({} : Workshop Float).Admissible squareRun ∧
      ∃ m ∈ (({} : Workshop Float).run squareRun).meshes 2, m.cells.length = 4 ∧
        m.vertices.size = 9 ∧ m.indicators.keys = [[0, 5], [2, 5]] ∧ m.InRange := by
  have hops : ({} : Workshop Float).Admissible squareRun := by decide +kernel
  have hcopy : (((({} : Workshop Float).run squareRun).meshes 2)[1]?).map
      (fun m => (m.cells.length, m.vertices.size, m.indicators.keys)) =
        some (4, 9, [[0, 5], [2, 5]]) := by decide +kernel
  obtain ⟨m, hm, hfound⟩ := Option.map_eq_some_iff.mp hcopy
  simp only [Prod.mk.injEq] at hfound
  obtain ⟨hcells, hvertices, hkeys⟩ := hfound
  have hmem := List.mem_of_getElem? hm
  exact ⟨hops, m, hmem, hcells, hvertices, hkeys, (run_inRange hops 2 hmem).2.2.1⟩

end Workshop
end HexMesh
