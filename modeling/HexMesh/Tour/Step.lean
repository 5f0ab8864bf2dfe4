/-!
The steps of the tour.
-/

namespace HexMesh

/-- A step of the tour, named for what it shows. -/
inductive Step where
  /-- A mesh is read from a file. -/
  | loading
  /-- Two meshes are glued together. -/
  | merging
  /-- A side is lifted, and a round hole stays round under refinement. -/
  | curving
  /-- A plane mesh is swept along the third axis. -/
  | extruding
  /-- A strip is bent into a wave. -/
  | bending
  /-- The rows of a square are crowded towards one side. -/
  | grading
  /-- The vertices of a square are moved at random. -/
  | distorting
  deriving DecidableEq, Repr

namespace Step

/-- All steps in the order of the tour. -/
def all : List Step := [loading, merging, curving, extruding, bending, grading, distorting]

/-- The place of a step in the tour, counted from one. -/
def number : Step → Nat
  | loading => 1
  | merging => 2
  | curving => 3
  | extruding => 4
  | bending => 5
  | grading => 6
  | distorting => 7

def title : Step → String
  | loading => "Loading a mesh generated by gmsh"
  | merging => "Merging triangulations"
  | curving => "Moving vertices and refining with a curved boundary"
  | extruding => "Extruding into three dimensions"
  | bending => "Transforming with a plain function"
  | grading => "Transforming with a function object"
  | distorting => "Random distortion"

/-- The step with a given number. -/
def ofNumber? (n : Nat) : Option Step := all.find? fun s => s.number == n

/-- The steps of a tour that was asked for some of them: each of those once, in the order of
the tour, or all of them if none was asked for. -/
def selected (asked : List Step) : List Step :=
  all.filter fun s => asked.isEmpty || asked.contains s

theorem mem_all (s : Step) : s ∈ all := by cases s <;> decide

theorem mem_selected {asked : List Step} {s : Step} :
    s ∈ selected asked ↔ asked = [] ∨ s ∈ asked := by
  simp [selected, mem_all]

/-- The steps of a tour stand in the order of their numbers. -/
theorem pairwise_selected (asked : List Step) :
    (selected asked).Pairwise (fun s t => s.number < t.number) := by
  have h : all.Pairwise (fun s t => s.number < t.number) := by decide
  exact h.filter _

end Step
end HexMesh
