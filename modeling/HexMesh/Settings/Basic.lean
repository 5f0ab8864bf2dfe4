import HexMesh.Host.Path
import HexMesh.Picture.Eps

/-!
What a tour is told: where to read, where to write, and how to draw and distort.
-/

namespace HexMesh

/-- How a mesh is distorted. -/
structure Distortion (K : Type) where
  /-- How far a vertex moves, as a fraction of the length of its shortest edge. -/
  factor : K
  keepBoundary : Bool

/-- Three tenths of the shortest edge, inside only. -/
def Distortion.standard {K : Type} [Scalar K] : Distortion K :=
  { factor := Scalar.ratio 3 10, keepBoundary := true }

/-- The settings of a tour. -/
structure Settings (K : Type) where
  /-- The mesh file that the first step reads. -/
  input : String
  /-- The directory that the pictures are written to. -/
  outputDirectory : String
  /-- The seed of the distortion.  Without one every run is different. -/
  seed : Option UInt64
  style : Style K
  distortion : Distortion K

namespace Settings

variable {K : Type}

/-- The settings of a tour that is told nothing. -/
def standard [Scalar K] : Settings K :=
  { input := "untitled.msh"
    outputDirectory := "."
    seed := none
    style := .standard
    distortion := .standard }

/-- Where the picture of a numbered step goes. -/
def picture (s : Settings K) (number : Nat) : String :=
  pathIn s.outputDirectory s!"grid-{number}.eps"

end Settings
end HexMesh
