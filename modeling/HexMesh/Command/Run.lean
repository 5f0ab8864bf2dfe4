import HexMesh.Command.Help
import HexMesh.Settings.File
import HexMesh.Text.Quoted
import HexMesh.Tour.Run

/-!
A run of the command.

A run settles what it is told, takes the steps that were asked for and tells
about each of them.  The first fault ends it, and with it the run fails.
-/

namespace HexMesh
namespace Command

/-- Why a run fails. -/
inductive RunFault (K : Type) where
  /-- There is no settings file where one was named. -/
  | settingsMissing (path : String)
  | settingsUnreadable (path : String) (reason : Refusal)
  | settingsMalformed
  /-- The size of the pictures is not positive. -/
  | size (size : K)
  | outputDirectory (path : String) (reason : Refusal)
  | step (s : Step) (fault : StepFault K)
  | summary (path : String) (reason : Refusal)
  deriving Repr

/-- What is wrong with a document that is no settings file. -/
def malformed : String := "TOML parse error"

variable {K : Type}

/-- What went wrong, followed by what lies behind it. -/
def RunFault.causes [Numeral K] : RunFault K → List String
  | settingsMissing path => [s!"Config file not found: {quotedText path}"]
  | settingsUnreadable path reason =>
    [s!"Failed to read config file: {quotedText path}", reason.message]
  | settingsMalformed => ["Failed to parse config file", malformed]
  | .size a => [s!"--eps-size must be positive, got {Numeral.text a}"]
  | outputDirectory path reason =>
    [s!"Failed to create output directory: {quotedText path}", reason.message]
  | step s fault => s.failure :: fault.causes
  | summary path reason => [s!"Failed to write summary file: {quotedText path}", reason.message]

/-! ## Telling about a fault -/

/-- A text of one or more lines, with a mark before the first one and as much room before
the others. -/
def hanging (mark text : String) : List String :=
  match (text.toList.splitOn '\n').map String.ofList with
  | [] => []
  | first :: rest =>
    (mark ++ first) :: rest.map (String.ofList (List.replicate mark.length ' ') ++ ·)

/-- The mark before a numbered cause. -/
def numberMark (number : Nat) : String :=
  let digits := toString number
  String.ofList (List.replicate (5 - digits.length) ' ') ++ digits ++ ": "

/-- What went wrong, and below it what lies behind it.  Several causes are numbered. -/
def faultLines : List String → List String
  | [] => []
  | [top] => [s!"Error: {top}"]
  | [top, cause] => [s!"Error: {top}", "", "Caused by:"] ++ hanging "    " cause
  | top :: causes =>
    [s!"Error: {top}", "", "Caused by:"] ++
      causes.zipIdx.flatMap fun (cause, number) => hanging (numberMark number) cause

/-! ## Settings -/

variable {m : Type → Type} [Monad m] [Host m]

/-- The text of a file. -/
def readText (path : String) : m (Except Refusal String) := do
  match ← Host.read path with
  | .error refusal => return .error refusal.reason
  | .ok bytes =>
    match String.fromUTF8? ⟨bytes.toArray⟩ with
    | some text => return .ok text
    | none => return .error .notText

variable [Scalar K] [Numeral K]

/-- The settings in a file that was named. -/
def namedSettings (path : String) : ExceptT (RunFault K) m (FileSettings K) := do
  if !(← (Host.isThere path : m Bool)) then throw (.settingsMissing path)
  match ← (readText path : m _) with
  | .error reason => throw (.settingsUnreadable path reason)
  | .ok text =>
    match FileSettings.parse? text with
    | some f => return f
    | none => throw .settingsMalformed

/-- The settings in the first of several files that holds any.  A file that cannot be read
does not count, and one that is no settings file is warned of. -/
def firstSettings : List String → m (Option (FileSettings K))
  | [] => return none
  | path :: rest => do
    match ← readText path with
    | .error _ => firstSettings rest
    | .ok text =>
      match FileSettings.parse? text with
      | some f => return some f
      | none => do
        Host.warn s!"Warning: Failed to parse config file {quotedText path}: {malformed}"
        firstSettings rest

/-- Where settings are looked for when no file is named. -/
def settingsPlaces (settingsDirectory? home? : Option String) : List String :=
  let shared := settingsDirectory?.toList.flatMap fun directory =>
    [pathIn (pathIn directory "meshtour") "config.toml", pathIn directory "meshtour.toml"]
  let own := home?.toList.map fun home => pathIn home ".meshtour.toml"
  ["meshtour.toml", ".meshtour.toml"] ++ shared ++ own

/-- The settings file of a run, if it has one. -/
def findSettings (named : Option String) : ExceptT (RunFault K) m (Option (FileSettings K)) := do
  match named with
  | some path => return some (← namedSettings path)
  | none =>
    let places := settingsPlaces (← (Host.settingsDirectory? : m _)) (← (Host.home? : m _))
    (firstSettings places : m _)

omit [Numeral K] in
/-- Settings with what the arguments say in place of what they said before. -/
def override (s : Settings K) (o : Options K) : Except (RunFault K) (Settings K) := do
  let style ← match o.size with
    | some size =>
      if size ≤ ((0 : Nat) : K) then throw (.size size) else pure { s.style with size }
    | none => pure s.style
  return { s with
    input := o.input.getD s.input
    outputDirectory := o.outputDirectory.getD s.outputDirectory
    seed := o.seed <|> s.seed
    style }

/-! ## Telling about a run -/

/-- The lines in front of everything else. -/
def heading : List String :=
  ["meshtour - Mesh Generation Tour", "===============================", ""]

def sideText : Side → String
  | .width => "Width"
  | .height => "Height"

omit [Scalar K] in
/-- The lines about the settings of a run. -/
def settingsLines (s : Settings K) (steps : List Step) : List String :=
  let seed := match s.seed with
    | some seed => toString seed
    | none => "random"
  let numbers := ", ".intercalate (steps.map fun step => toString step.number)
  ["Configuration:",
    s!"  Input: {s.input}",
    s!"  Output directory: {s.outputDirectory}",
    s!"  Seed: {seed}",
    s!"  Picture: {Numeral.text s.style.size} pt ({sideText s.style.side}), " ++
      s!"line width {Numeral.text s.style.lineWidth}",
    s!"  Distortion: factor {Numeral.text s.distortion.factor}, " ++
      s!"keep boundary {s.distortion.keepBoundary}",
    s!"  Steps: {numbers}",
    ""]

/-- The lines about a step. -/
def summaryLines (verbose : Bool) (s : Summary) : List String :=
  s.lines ++ (if verbose then [s!"  boundary faces: {s.boundaryFaceCount}"] else []) ++ [""]

/-- Write several lines to the terminal. -/
def sayAll (lines : List String) : m Unit := lines.forM Host.say

/-! ## The run -/

/-- Make the directory for the pictures unless there is something in its place. -/
def prepare (directory : String) : ExceptT (RunFault K) m Unit := do
  if !(← (Host.isThere directory : m Bool)) then
    if let .error reason ← (Host.makeDirectories directory : m _) then
      throw (.outputDirectory directory reason)

variable [SquareRoot K] [Transcendental K]

/-- Take steps in order and tell about each of them. -/
def takeSteps (s : Settings K) (verbose : Bool) (steps : List Step) :
    ExceptT (RunFault K) m (List Summary) :=
  steps.mapM fun step => do
    let summary ← ExceptT.adapt (RunFault.step step) (Tour.take s step)
    (sayAll (summaryLines verbose summary) : m Unit)
    return summary

/-- Write the summaries to a file. -/
def writeSummaries (path : String) (summaries : List Summary) :
    ExceptT (RunFault K) m Unit := do
  let text := (Json.list (summaries.map Summary.json)).text
  if let .error reason ← (Host.create path text : m _) then
    throw (.summary path reason)
  (Host.say s!"Summary: {path}" : m Unit)

/-- Do what the arguments ask for. -/
def perform (o : Options K) : ExceptT (RunFault K) m Unit := do
  let file? ← findSettings o.config
  let s ← MonadExcept.ofExcept (override (file?.elim .standard FileSettings.resolve) o)
  let verbose := o.verbose || file?.elim false FileSettings.verbose
  let steps := Step.selected o.only
  (sayAll heading : m Unit)
  if verbose then (sayAll (settingsLines s steps) : m Unit)
  prepare s.outputDirectory
  let summaries ← takeSteps s verbose steps
  if let some path := o.summary then writeSummaries path summaries
  let tenths ← (Host.elapsed : m Nat)
  (Host.say s!"Done! Total time: {tenths / 10}.{tenths % 10}s" : m Unit)

/-- Run the command.  The answer is its exit code: zero for success, one for a failed run and
two for arguments that cannot be used. -/
def run (K : Type) [Scalar K] [Numeral K] [SquareRoot K] [Transcendental K]
    (arguments : List String) : m UInt32 := do
  match (Options.ofArguments arguments : Except Stop (Options K)) with
  | .error .help => do
    sayAll helpLines
    return 0
  | .error .version => do
    Host.say version
    return 0
  | .error (.misuse fault) => do
    fault.lines.forM Host.warn
    return 2
  | .ok options =>
    match ← (perform options).run with
    | .ok () => return 0
    | .error fault => do
      (faultLines fault.causes).forM Host.warn
      return 1

end Command
end HexMesh
