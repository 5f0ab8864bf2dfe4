import HexMesh.Command.Run
import HexMesh.Number.Binary64

/-!
The command on a real machine.
-/

namespace HexMesh

/-- Actions on the machine that know when the run began, in milliseconds. -/
abbrev Machine := ReaderT Nat IO

namespace Machine

/-- Why the machine refused, by the number of the fault. -/
def refusal (e : IO.Error) : Refusal :=
  match e with
  | .noFileOrDirectory _ number details => .system details number.toNat
  | .inappropriateType _ number details => .system details number.toNat
  | .permissionDenied _ number details => .system details number.toNat
  | .alreadyExists _ number details => .system details number.toNat
  | .resourceExhausted _ number details => .system details number.toNat
  | .invalidArgument _ number details => .system details number.toNat
  | .resourceBusy number details => .system details number.toNat
  | .hardwareFault number details => .system details number.toNat
  | .otherError number details => .system details number.toNat
  | e => .system e.toString 5

/-- An action whose refusal is an answer. -/
def attempt {α : Type} (action : IO α) : Machine (Except Refusal α) := do
  match ← action.toBaseIO with
  | .ok a => return .ok a
  | .error e => return .error (refusal e)

/-- An action at a path. -/
def attemptAt {α : Type} (path : String) (action : IO α) : Machine (Except Refusal α) :=
  if holdsZero path then return .error .zeroInPath else attempt action

/-- A directory from the environment, unless it has no name. -/
def directory? (variableName : String) : IO (Option String) := do
  return (← IO.getEnv variableName).filter fun path => !path.isEmpty

/-- The bytes of a file that was opened. -/
def contents (file : IO.FS.Handle) : IO ByteArray := file.readBinToEnd

def random64 : IO UInt64 := do
  let bytes ← IO.getRandomBytes 8
  return bytes.toList.foldl (fun n b => n * 256 + b.toUInt64) 0

instance : Host Machine where
  read path := do
    match ← attemptAt path (IO.FS.Handle.mk path .read) with
    | .error reason => return .error (.opening reason)
    | .ok file =>
      match ← attempt (contents file) with
      | .error reason => return .error (.reading reason)
      | .ok bytes => return .ok bytes.toList
  isThere path := do return (← attemptAt path (IO.FS.realPath path)).isOk
  create path text := attemptAt path (IO.FS.writeFile path text)
  isDirectory path := do return (← attemptAt path (IO.FS.realPath (path ++ "/."))).isOk
  makeDirectory path := attemptAt path (IO.FS.createDir path)
  say line := do
    let out ← IO.getStdout
    out.putStrLn line
    out.flush
  warn line := do IO.eprintln line
  home? := directory? "HOME"
  settingsDirectory? := do
    let home ← directory? "HOME"
    let named ← directory? "XDG_CONFIG_HOME"
    return (named.filter (·.startsWith "/")).or (home.map fun path => pathIn path ".config")
  words := do return Random.ofSeed (← random64)
  elapsed := do return ((← IO.monoMsNow) - (← read)) / 100

end Machine
end HexMesh

def main (arguments : List String) : IO UInt32 := do
  (HexMesh.Command.run Float arguments : HexMesh.Machine UInt32).run (← IO.monoMsNow)
