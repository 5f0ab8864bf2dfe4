import HexMesh.Geometry.Point

/-!
The two maps of the plane that the tour bends its meshes with.
-/

namespace HexMesh
namespace Tour

variable {K : Type} [Scalar K] [Transcendental K]

/-- Lift a point by the sine of its abscissa, with ten for a full wave. -/
def wave (p : Point K 2) : Point K 2 :=
  .xy p.abscissa
    (p.ordinate + Transcendental.sin (p.abscissa / ((5 : Nat) : K) * Transcendental.pi))

/-- Crowd the ordinates between zero and one towards one. -/
def grade (p : Point K 2) : Point K 2 :=
  let two := ((2 : Nat) : K)
  .xy p.abscissa (Transcendental.tanh (two * p.ordinate) / Transcendental.tanh two)

end Tour
end HexMesh
