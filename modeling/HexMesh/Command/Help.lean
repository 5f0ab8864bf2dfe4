import HexMesh.Command.Options

/-!
What the command says about itself.
-/

namespace HexMesh
namespace Command

def version : String := "meshtour 0.1.0"

def usage : String := "Usage: meshtour [OPTIONS]"

/-- What an option is for. -/
def Parameter.purpose : Parameter → String
  | config => "Path to config file (optional, auto-searches meshtour.toml if not provided)"
  | outputDirectory => "Directory receiving the grid-<N>.eps pictures"
  | input => "gmsh mesh read by step 1 (defaults to untitled.msh)"
  | seed => "Seed for the random distortion of step 7"
  | only => "Run only the given step; may be repeated"
  | size => "Picture size in points"
  | summary => "Write the summaries of all steps to this JSON file"

def Switch.purpose : Switch → String
  | verbose => "Enable verbose logging"
  | help => "Print help"
  | version => "Print version"

/-- An option as it is written, with room for a letter in front. -/
def written (letter? : Option Char) (name : String) : String :=
  match letter? with
  | some c => s!"  -{c}, --{name}"
  | none => s!"      --{name}"

/-- The stand-in for the value of an option. -/
def Parameter.placeholder (p : Parameter) : String :=
  String.ofList (p.name.toList.map fun c => if c == '-' then '_' else c.toUpper)

/-- All options, each as it is written and with what it is for. -/
def optionTable : List (String × String) :=
  (Parameter.all.map fun p =>
    (written p.letter? p.name ++ s!" <{p.placeholder}>", p.purpose)) ++
    Switch.all.map fun s => (written (some s.letter) s.name, s.purpose)

/-- The lines that explain all options, with the explanations below each other. -/
def optionLines : List String :=
  let width := optionTable.foldl (fun w row => max w row.1.length) 0 + 2
  optionTable.map fun (option, purpose) =>
    option ++ String.ofList (List.replicate (width - option.length) ' ') ++ purpose

def helpLines : List String :=
  ["Walk through generating, transforming and drawing hexahedral meshes", "", usage, "",
    "Options:"] ++ optionLines

/-- What is said when the arguments cannot be used. -/
def UsageFault.lines (fault : UsageFault) : List String :=
  [s!"error: {fault.message}", "", usage, "", "For more information, try '--help'."]

end Command
end HexMesh
