import HexMesh.Settings.Basic
import HexMesh.Toml.Document

/-!
Settings files.

A settings file is a TOML document.  Whatever it does not mention keeps its
standard value, and keys without a meaning are passed over; a setting of the
wrong type makes the whole file unusable.
-/

namespace HexMesh

/-- What a settings file says. -/
structure FileSettings (K : Type) where
  input : Option String := none
  outputDirectory : Option String := none
  seed : Option UInt64 := none
  verbose : Bool := false
  style : Option (Style K) := none
  distortion : Option (Distortion K) := none

namespace FileSettings

open Toml (Value)

variable {K : Type}

/-! ## Single values -/

def text? : Value → Option String
  | .string s => some s
  | _ => none

def flag? : Value → Option Bool
  | .boolean b => some b
  | _ => none

/-- An integer that is not negative. -/
def seed? : Value → Option UInt64
  | .integer n => if 0 ≤ n then some n.toNat.toUInt64 else none
  | _ => none

/-- A float, or an integer in its place. -/
def scalar? [Numeral K] : Value → Option K
  | .float d => Numeral.ofDecimal? d
  | .integer n => Numeral.ofDecimal? (.finite (n < 0) n.natAbs 0)
  | _ => none

/-- A value that holds nothing. -/
def isVoid : Value → Bool
  | .table _ entries => entries.isEmpty
  | .array _ items => items.isEmpty
  | _ => false

def sideNamed? : String → Option Side
  | "width" => some .width
  | "height" => some .height
  | _ => none

/-- The name of a side, or a table whose only key is that name and holds nothing. -/
def side? : Value → Option Side
  | .string s => sideNamed? s
  | .table _ [(s, v)] => if isVoid v then sideNamed? s else none
  | _ => none

/-! ## Records -/

/-- The fields of a record.  Instead of a table there may be an array, which gives the
fields in the order of their names.  A date has no fields. -/
def fields? (names : List String) : Value → Option (List (String × Value))
  | .table _ entries => some entries
  | .array _ items => some (names.zip items)
  | .datetime _ => some []
  | _ => none

/-- A field that may be missing. -/
def field? {α : Type} (fields : List (String × Value)) (name : String)
    (read : Value → Option α) : Option (Option α) :=
  match fields.lookup name with
  | none => some none
  | some v => (read v).map some

/-- A field with a value that stands in when it is missing. -/
def fieldOr {α : Type} (fields : List (String × Value)) (name : String)
    (read : Value → Option α) (standard : α) : Option α :=
  (field? fields name read).map fun found => found.getD standard

variable [Scalar K] [Numeral K]

/-- How pictures look. -/
def style? (v : Value) : Option (Style K) := do
  let fields ← fields? ["size", "size_type", "line_width", "color_boundary", "azimuth", "turn"] v
  let standard : Style K := .standard
  return {
    size := ← fieldOr fields "size" scalar? standard.size
    side := ← fieldOr fields "size_type" side? standard.side
    lineWidth := ← fieldOr fields "line_width" scalar? standard.lineWidth
    colorBoundary := ← fieldOr fields "color_boundary" flag? standard.colorBoundary
    azimuth := ← fieldOr fields "azimuth" scalar? standard.azimuth
    turn := ← fieldOr fields "turn" scalar? standard.turn }

/-- How the last step distorts its mesh. -/
def distortion? (v : Value) : Option (Distortion K) := do
  let fields ← fields? ["factor", "keep_boundary"] v
  let standard : Distortion K := .standard
  return {
    factor := ← fieldOr fields "factor" scalar? standard.factor
    keepBoundary := ← fieldOr fields "keep_boundary" flag? standard.keepBoundary }

/-- The settings in a table. -/
def ofTable? (t : Toml.Table) : Option (FileSettings K) := do
  return {
    input := ← field? t.entries "input" text?
    outputDirectory := ← field? t.entries "output_dir" text?
    seed := ← field? t.entries "seed" seed?
    verbose := ← fieldOr t.entries "verbose" flag? false
    style := ← field? t.entries "eps" style?
    distortion := ← field? t.entries "distortion" distortion? }

/-- The settings in a document. -/
def parse? (document : String) : Option (FileSettings K) := (Toml.parse? document).bind ofTable?

omit [Numeral K] in
/-- The settings of a tour: those in the file, and the standard ones for all others. -/
def resolve (f : FileSettings K) : Settings K :=
  let standard : Settings K := .standard
  { input := f.input.getD standard.input
    outputDirectory := f.outputDirectory.getD standard.outputDirectory
    seed := f.seed
    style := f.style.getD standard.style
    distortion := f.distortion.getD standard.distortion }

end FileSettings
end HexMesh
