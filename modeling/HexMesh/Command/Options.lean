import HexMesh.Number.Decimal
import HexMesh.Tour.Step

/-!
The arguments of the command.

An option has a long name, and some have a letter too.  Its value follows as the
next argument, or after an equals sign, or right after the letter; letters
without a value may stand together.  Only the choice of steps may be repeated.
-/

namespace HexMesh
namespace Command

/-- The options that take a value. -/
inductive Parameter where
  | config
  | outputDirectory
  | input
  | seed
  | only
  | size
  | summary
  deriving DecidableEq, Repr

/-- The options that take none. -/
inductive Switch where
  | verbose
  | help
  | version
  deriving DecidableEq, Repr

namespace Parameter

def all : List Parameter := [config, outputDirectory, input, seed, only, size, summary]

/-- The name after two dashes. -/
def name : Parameter → String
  | config => "config"
  | outputDirectory => "output-dir"
  | input => "input"
  | seed => "seed"
  | only => "only"
  | size => "eps-size"
  | summary => "summary"

def letter? : Parameter → Option Char
  | outputDirectory => some 'o'
  | input => some 'i'
  | _ => none

end Parameter

namespace Switch

def all : List Switch := [verbose, help, version]

def name : Switch → String
  | verbose => "verbose"
  | help => "help"
  | version => "version"

def letter : Switch → Char
  | verbose => 'v'
  | help => 'h'
  | version => 'V'

end Switch

/-- What the arguments ask for. -/
structure Options (K : Type) where
  config : Option String := none
  outputDirectory : Option String := none
  input : Option String := none
  seed : Option UInt64 := none
  /-- The steps to take; all of them if none is named. -/
  only : List Step := []
  /-- The size of the pictures. -/
  size : Option K := none
  /-- Where to write the summaries of all steps. -/
  summary : Option String := none
  verbose : Bool := false

/-- What is wrong with the arguments. -/
inductive UsageFault where
  | unexpected (argument : String)
  | missingValue (p : Parameter)
  | badValue (p : Parameter) (value : String)
  | needlessValue (s : Switch) (value : String)
  | repeated (name : String)
  deriving DecidableEq, Repr

def UsageFault.message : UsageFault → String
  | unexpected argument => s!"unexpected argument '{argument}' found"
  | missingValue p => s!"a value is required for '--{p.name}' but none was supplied"
  | badValue p value => s!"invalid value '{value}' for '--{p.name}'"
  | needlessValue s value => s!"unexpected value '{value}' for '--{s.name}' found"
  | repeated name => s!"the argument '--{name}' cannot be used multiple times"

/-- Why the arguments are not read to their end. -/
inductive Stop where
  | help
  | version
  | misuse (fault : UsageFault)
  deriving DecidableEq, Repr

/-! ## Values -/

/-- A path has at least one character. -/
def path? (value : String) : Option String := if value.isEmpty then none else some value

/-- A step by its number, which may have a sign. -/
def step? (value : String) : Option Step := do
  let n ← Decimal.signed? value.toList
  if n < 0 then none else Step.ofNumber? n.toNat

/-- A natural number of 64 bits. -/
def seed? (value : String) : Option UInt64 :=
  (readNat? (Nat.pow 2 64) value.toList).map Nat.toUInt64

namespace Options

variable {K : Type} [Numeral K]

/-- Take in the value of an option that may be given once. -/
def once {α : Type} (p : Parameter) (given : Option α) (value : String)
    (read : String → Option α) : Except UsageFault (Option α) :=
  match read value with
  | none => .error (.badValue p value)
  | some a => if given.isSome then .error (.repeated p.name) else .ok (some a)

/-- Take in the value of an option. -/
def give (o : Options K) (p : Parameter) (value : String) : Except UsageFault (Options K) := do
  match p with
  | .config => return { o with config := ← once p o.config value path? }
  | .outputDirectory =>
    return { o with outputDirectory := ← once p o.outputDirectory value path? }
  | .input => return { o with input := ← once p o.input value path? }
  | .seed => return { o with seed := ← once p o.seed value seed? }
  | .only =>
    match step? value with
    | some s => return { o with only := o.only ++ [s] }
    | none => throw (.badValue p value)
  | .size => return { o with size := ← once p o.size value fun v => Numeral.read? v.toList }
  | .summary => return { o with summary := ← once p o.summary value path? }

end Options

/-! ## Arguments -/

/-- What was read so far. -/
structure Reading (K : Type) where
  options : Options K := {}
  /-- The option whose value is due. -/
  awaited : Option Parameter := none
  /-- Two dashes alone were seen, after which no option may follow. -/
  closed : Bool := false

namespace Reading

variable {K : Type} [Numeral K]

def misuse {α : Type} (fault : UsageFault) : Except Stop α := .error (.misuse fault)

/-- Take in the value of an option. -/
def give (r : Reading K) (p : Parameter) (value : String) : Except Stop (Reading K) :=
  match r.options.give p value with
  | .ok options => .ok { r with options, awaited := none }
  | .error fault => misuse fault

omit [Numeral K] in
/-- Throw a switch. -/
def throwSwitch (r : Reading K) : Switch → Except Stop (Reading K)
  | .help => .error .help
  | .version => .error .version
  | .verbose =>
    if r.options.verbose then misuse (.repeated Switch.verbose.name)
    else .ok { r with options := { r.options with verbose := true } }

/-- Take in an argument after its two dashes. -/
def long (r : Reading K) (argument : String) (body : List Char) : Except Stop (Reading K) :=
  let name := String.ofList (body.takeWhile (· != '='))
  let value? := (body.dropWhile (· != '=')).tail?.map String.ofList
  match Parameter.all.find? (·.name == name), Switch.all.find? (·.name == name), value? with
  | some p, _, some value => r.give p value
  | some p, _, none => .ok { r with awaited := some p }
  | none, some s, some value => misuse (.needlessValue s value)
  | none, some s, none => r.throwSwitch s
  | none, none, _ => misuse (.unexpected argument)

/-- Take in the letters of an argument after its dash. -/
def letters (argument : String) : Reading K → List Char → Except Stop (Reading K)
  | r, [] => .ok r
  | r, c :: rest =>
    match Switch.all.find? (·.letter == c), Parameter.all.find? (·.letter? == some c) with
    | some s, _ => do letters argument (← r.throwSwitch s) rest
    | none, some p =>
      match rest with
      | [] => .ok { r with awaited := some p }
      | '=' :: value => r.give p (String.ofList value)
      | value => r.give p (String.ofList value)
    | none, none => misuse (.unexpected argument)

/-- Take in an argument.  What begins with a dash is no value, unless it is a dash alone. -/
def take (r : Reading K) (argument : String) : Except Stop (Reading K) :=
  let chars := argument.toList
  match r.awaited with
  | some p =>
    if chars.head? = some '-' ∧ chars ≠ ['-'] then misuse (.missingValue p)
    else r.give p argument
  | none =>
    if r.closed then misuse (.unexpected argument)
    else
      match chars with
      | ['-', '-'] => .ok { r with closed := true }
      | '-' :: '-' :: body => r.long argument body
      | '-' :: c :: rest => letters argument r (c :: rest)
      | _ => misuse (.unexpected argument)

end Reading

/-- Read all arguments. -/
def Options.ofArguments {K : Type} [Numeral K] (arguments : List String) :
    Except Stop (Options K) := do
  let r ← arguments.foldlM Reading.take ({} : Reading K)
  match r.awaited with
  | some p => throw (.misuse (.missingValue p))
  | none => return r.options

end Command
end HexMesh
