import HexMesh.Host.Path
import HexMesh.Random.Words

/-!
The world around a run: files, the terminal, the clock and a source of random
words.

What the programs of this library do to the world goes through one class, so
that a run can be taken as well on a real machine as on files that are kept in
memory.
-/

namespace HexMesh

/-- Why the world refuses to do something. -/
inductive Refusal where
  /-- The system says no, with a text and a number. -/
  | system (text : String) (number : Nat)
  /-- A path that holds a zero byte is not even handed to the system. -/
  | zeroInPath
  /-- The bytes of a file are not a text. -/
  | notText
  deriving DecidableEq, Repr

namespace Refusal

def notFound : Refusal := .system "No such file or directory" 2

def alreadyThere : Refusal := .system "File exists" 17

def notDirectory : Refusal := .system "Not a directory" 20

def isDirectory : Refusal := .system "Is a directory" 21

def nameTooLong : Refusal := .system "File name too long" 36

/-- Something on the way does not exist. -/
def isMissing : Refusal → Bool
  | system _ number => number == 2
  | zeroInPath => false
  | notText => false

def message : Refusal → String
  | system text number => s!"{text} (os error {number})"
  | zeroInPath => "file name contained an unexpected NUL byte"
  | notText => "stream did not contain valid UTF-8"

end Refusal

/-- Reading a file can fail when it is opened, or afterwards. -/
inductive ReadRefusal where
  | opening (reason : Refusal)
  | reading (reason : Refusal)
  deriving DecidableEq, Repr

/-- What went wrong, wherever it did. -/
def ReadRefusal.reason : ReadRefusal → Refusal
  | opening reason => reason
  | reading reason => reason

/-- A monad whose actions reach the world. -/
class Host (m : Type → Type) where
  /-- The bytes of a file. -/
  read : String → m (Except ReadRefusal (List UInt8))
  /-- Whether there is a file or a directory at a path. -/
  isThere : String → m Bool
  /-- Write a text to a new file, or in place of what a file held. -/
  create : String → String → m (Except Refusal Unit)
  isDirectory : String → m Bool
  /-- Make a directory in one that exists. -/
  makeDirectory : String → m (Except Refusal Unit)
  /-- Write a line to the terminal. -/
  say : String → m Unit
  /-- Write a line to where faults are told. -/
  warn : String → m Unit
  /-- The home directory, if there is one. -/
  home? : m (Option String)
  /-- The directory for the settings of programs, if there is one. -/
  settingsDirectory? : m (Option String)
  /-- Random words that are different in every run. -/
  words : m WordStream
  /-- The time since the start, in tenths of a second. -/
  elapsed : m Nat

namespace Host

variable {m : Type → Type} [Monad m] [Host m]

/-- Make the first of some directories, of which each stands in the next one.  Where that one
is missing it is made before.  A directory that is there already is as good as a new one. -/
def makeFirst : List String → m (Except Refusal Unit)
  | [] => return .ok ()
  | path :: above => do
    let orThere (reason : Refusal) : m (Except Refusal Unit) := do
      if ← isDirectory path then return .ok () else return .error reason
    match ← makeDirectory path with
    | .ok () => return .ok ()
    | .error reason =>
      if reason.isMissing then
        match ← makeFirst above with
        | .error reason => return .error reason
        | .ok () =>
          match ← makeDirectory path with
          | .ok () => return .ok ()
          | .error reason => orThere reason
      else orThere reason

/-- Make a directory together with those above it that are missing. -/
def makeDirectories (path : String) : m (Except Refusal Unit) :=
  if path.isEmpty then return .ok ()
  else makeFirst (path :: (Route.ofPath path).above.map Route.path)

end Host
end HexMesh
