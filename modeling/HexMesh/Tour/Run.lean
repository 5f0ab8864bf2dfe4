import HexMesh.Host.Basic
import HexMesh.Mesh.Inspection
import HexMesh.Mesh.Summary
import HexMesh.Msh.Reader
import HexMesh.Picture.Eps
import HexMesh.Tour.Meshes
import HexMesh.Tour.Step

/-!
Taking the tour.

A step makes its mesh, writes a picture of it and gives back a summary.  Steps
share nothing but the settings.
-/

namespace HexMesh

/-- Why a step failed. -/
inductive StepFault (K : Type) where
  /-- The mesh file at a path cannot be used. -/
  | input (path : String) (fault : Fault K)
  /-- A mesh cannot be made. -/
  | mesh (fault : Fault K)
  /-- The picture cannot be written to a path. -/
  | picture (path : String) (reason : Refusal)
  /-- The mesh cannot be drawn. -/
  | drawing (fault : DrawingFault)
  deriving Repr

variable {K : Type}

/-- A fault with what lies behind it.  Behind a file that cannot be read lies the same reason
without the name of the family. -/
def Fault.causes [Numeral K] (f : Fault K) : List String :=
  match f with
  | .unreadable reason => [f.message, reason]
  | _ => [f.message]

/-- What went wrong in a step, followed by what lies behind it. -/
def StepFault.causes [Numeral K] : StepFault K → List String
  | input path fault => s!"Failed to read mesh from {path}" :: fault.causes
  | mesh fault => fault.causes
  | picture path reason => [s!"Failed to create EPS file: {path}", reason.message]
  | drawing fault => [fault.message]

/-- What is said about a step that failed. -/
def Step.failure (s : Step) : String := s!"Step {s.number} ({s.title}) failed"

namespace Tour

variable [Scalar K] [SquareRoot K] [Transcendental K] [Numeral K] {m : Type → Type} [Monad m]
  [Host m]

/-- What keeps a mesh file from being read. -/
def unreadable (path : String) : ReadRefusal → Fault K
  | .opening reason => .unreadable s!"cannot open {path}: {reason.message}"
  | .reading reason => .unreadable reason.message

/-- Read a mesh from a file. -/
def readMesh (path : String) : ExceptT (StepFault K) m (Mesh K 2) := do
  let found : Except (Fault K) (Mesh K 2) :=
    match ← (Host.read path : m _) with
    | .ok bytes => Msh.read 2 bytes
    | .error refusal => .error (unreadable path refusal)
  MonadExcept.ofExcept (found.mapError (StepFault.input path))

/-- The lines that warn of a mesh from a file. -/
def warningLines (path : String) (found : Findings) : List String :=
  s!"Warning: {path}: {found.summary}" :: found.warnings.map ("  " ++ ·)

/-- Read a mesh from a file, and warn of what is wrong with it. -/
def loadMesh (path : String) : ExceptT (StepFault K) m (Mesh K 2) := do
  let mesh ← readMesh path
  let found := mesh.inspect
  if found.hasIssues then ((warningLines path found).forM Host.warn : m Unit)
  return mesh

/-- Draw a mesh into a file and summarize it. -/
def present {d : Nat} (style : Style K) (path : String) (mesh : Mesh K d) :
    ExceptT (StepFault K) m Summary := do
  let drawing ← MonadExcept.ofExcept ((mesh.draw style).mapError StepFault.drawing)
  let written ← (Host.create path drawing.text : m _)
  MonadExcept.ofExcept (written.mapError (StepFault.picture path))
  return Summary.ofMesh mesh path

/-- The random words of a run: those of the seed, or else new ones. -/
def drawWords (seed : Option UInt64) : m WordStream :=
  match seed with
  | some seed => pure (Random.ofSeed seed)
  | none => Host.words

/-- Take one step. -/
def take (s : Settings K) (step : Step) : ExceptT (StepFault K) m Summary :=
  let finish {d : Nat} (mesh : Mesh K d) : ExceptT (StepFault K) m Summary :=
    present s.style (s.picture step.number) mesh
  let make {d : Nat} (mesh : Except (Fault K) (Mesh K d)) : ExceptT (StepFault K) m Summary := do
    finish (← MonadExcept.ofExcept (mesh.mapError StepFault.mesh))
  match step with
  | .loading => do finish (← loadMesh s.input)
  | .merging => make flag
  | .curving => make curvedPlate
  | .extruding => make block
  | .bending => make wavyStrip
  | .grading => make gradedSquare
  | .distorting => do make (distortedSquare s.distortion (← (drawWords s.seed : m _)))

/-- Take all steps in order, up to the first one that fails. -/
def takeAll (s : Settings K) : ExceptT (Step × StepFault K) m (List Summary) :=
  Step.all.mapM fun step => ExceptT.adapt (fun fault => (step, fault)) (take s step)

end Tour
end HexMesh
