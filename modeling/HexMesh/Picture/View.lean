import HexMesh.Geometry.Point

/-!
Looking at space: a parallel projection onto the plane of a drawing.
-/

namespace HexMesh

/-- A viewing direction, kept as the two directions of space that run to the right and
upwards in the drawing. -/
structure View (K : Type) where
  right : Point K 3
  up : Point K 3

namespace View

variable {K : Type} [Scalar K]

/-- The view from a direction that makes the angle `azimuth` with the vertical axis, by a
viewer who went round that axis by the angle `turn`.  Both angles are in degrees. -/
def ofAngles [Transcendental K] (azimuth turn : K) : View K :=
  let degree : K := Transcendental.pi / (180 : Nat)
  let tilt := azimuth * degree
  let around := turn * degree
  let sinTilt := Transcendental.sin tilt
  let cosTilt := Transcendental.cos tilt
  let sinAround := Transcendental.sin around
  let cosAround := Transcendental.cos around
  { right := .xyz cosAround sinAround (0 : Nat)
    up := .xyz (sinAround * cosTilt) (-cosAround * cosTilt) sinTilt }

/-- Where a point of space appears in the drawing. -/
def project (v : View K) (p : Point K 3) : Point K 2 := .xy (p.dot v.right) (p.dot v.up)

end View
end HexMesh
