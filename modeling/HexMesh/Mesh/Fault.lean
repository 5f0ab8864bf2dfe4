import HexMesh.Number.Decimal

/-!
Why a mesh cannot be built, changed or read.
-/

namespace HexMesh

/-- What a line of a mesh file should have held. -/
inductive Item where
  | meshFormat
  | formatVersion
  | fileType
  | nodeCount
  | node
  | nodeTag
  | coordinate
  | elementCount
  | element
  | elementField
  deriving DecidableEq, Repr

def Item.name : Item → String
  | meshFormat => "mesh format"
  | formatVersion => "format version"
  | fileType => "file type"
  | nodeCount => "node count"
  | node => "node"
  | nodeTag => "node tag"
  | coordinate => "coordinate"
  | elementCount => "element count"
  | element => "element"
  | elementField => "element field"

/-- What is wrong with a line of a mesh file. -/
inductive LineFault (K : Type) where
  /-- The file ends where a line was due. -/
  | endOfFile (expected : Item)
  /-- A field does not spell what it should. -/
  | badField (item : Item) (field : String)
  /-- The file ends inside a section, before the line that closes it. -/
  | missingMarker (marker : String)
  | shortNode
  | shortElement
  | elementType
  | elementTags
  | unknownNode (tag : Nat)
  | cellNodes
  | faceNodes
  | physicalTag (tag : Nat)
  | version (v : K)
  | binary
  | unexpected (line : String)
  | missingFormat
  deriving Repr

/-- Why a mesh cannot be built, changed or read. -/
inductive Fault (K : Type) where
  | unsupportedDimension (d : Nat)
  | cellSize (cell found expected : Nat)
  | cellVertex (cell vertex count : Nat)
  | noRepetitions (axis : Nat)
  | noExtent (axis : Nat)
  | radii (inner outer : K)
  | slices (count : Nat)
  | height (h : K)
  /-- Mesh files hold plane and spatial meshes only. -/
  | fileDimension (d : Nat)
  | noCells
  /-- Line zero stands for the file as a whole. -/
  | line (number : Nat) (fault : LineFault K)
  /-- The file cannot be read, for the reason given. -/
  | unreadable (reason : String)
  /-- A vertex, a cell or a corner that the mesh does not have was asked for. -/
  | outOfRange
  /-- New indicators are wanted beyond the largest one in use, and there are not enough. -/
  | indicatorOverflow (largest : Nat)
  deriving Repr

variable {K : Type} [Numeral K]

def LineFault.message : LineFault K → String
  | endOfFile expected => s!"unexpected end of file, expected {expected.name}"
  | badField item field => s!"invalid {item.name}: '{field}'"
  | missingMarker marker => s!"missing {marker}"
  | shortNode => "node needs a tag and three coordinates"
  | shortElement => "truncated element"
  | elementType => "invalid element type"
  | elementTags => "missing element tags"
  | unknownNode tag => s!"unknown node {tag}"
  | cellNodes => "wrong number of cell nodes"
  | faceNodes => "wrong number of face nodes"
  | physicalTag tag => s!"physical tag {tag} out of range"
  | version v => s!"unsupported gmsh format version {Numeral.text v}"
  | binary => "binary gmsh files are not supported"
  | unexpected line => s!"unexpected line: {line}"
  | missingFormat => "missing $MeshFormat section"

namespace Fault

/-- The four families of faults that a message names, and one for those that end the program: an
index out of range, or a sum beyond 32 bits. -/
inductive Kind where
  | io
  | parse (line : Nat)
  | geometry
  | argument
  | index
  deriving DecidableEq, Repr

def kind : Fault K → Kind
  | unsupportedDimension _ | noRepetitions _ | radii _ _ | slices _ | height _
  | fileDimension _ => .argument
  | cellSize _ _ _ | cellVertex _ _ _ | noExtent _ | noCells => .geometry
  | line number _ => .parse number
  | unreadable _ => .io
  | outOfRange | indicatorOverflow _ => .index

/-- What went wrong, without the family. -/
def detail : Fault K → String
  | unsupportedDimension d => s!"unsupported dimension {d}"
  | cellSize cell found expected => s!"cell {cell} has {found} vertices, expected {expected}"
  | cellVertex cell vertex count =>
    s!"cell {cell} references vertex {vertex} but only {count} vertices exist"
  | noRepetitions axis => s!"repetitions along axis {axis} must be positive"
  | noExtent axis => s!"box has zero extent along axis {axis}"
  | radii inner outer =>
    s!"need 0 < inner radius ({Numeral.text inner}) < outer radius ({Numeral.text outer})"
  | slices count => s!"extrusion needs at least 2 slices, got {count}"
  | height h => s!"extrusion height must be positive, got {Numeral.text h}"
  | fileDimension d => s!"gmsh input supports 2D and 3D meshes, not {d}D"
  | noCells => "no cells in gmsh file"
  | line _ fault => fault.message
  | unreadable reason => reason
  | outOfRange => "index out of range"
  | indicatorOverflow largest => s!"no two indicators beyond {largest}"

def Kind.opening : Kind → String
  | io => "I/O error"
  | parse number => s!"parse error at line {number}"
  | geometry => "invalid geometry"
  | argument => "invalid argument"
  | index => "invalid index"

def message (f : Fault K) : String := s!"{f.kind.opening}: {f.detail}"

end Fault
end HexMesh
