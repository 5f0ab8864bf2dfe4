import HexMesh.Host.Basic

/-!
A disk that is kept in memory.

Paths are followed as a system does it: name by name, where every place on the
way must be a directory.  A single point stays where it is, two points lead
upwards, and a slash at the end asks for a directory.  There are limits to how
long a name and a whole path may be.
-/

namespace HexMesh

/-- A place on a disk: the names that lead to it from the root. -/
abbrev Place := List String

/-- What stands at a place. -/
inductive Node where
  | file (bytes : List UInt8)
  | directory (entries : List (String × Node))

namespace Node

/-- A directory that holds nothing. -/
def empty : Node := .directory []

/-- What a directory holds under each name.  A file holds nothing of that kind. -/
def entries : Node → List (String × Node)
  | file _ => []
  | directory entries => entries

/-- Entries with something under a name, in place of what was there. -/
def setEntry (name : String) (n : Node) : List (String × Node) → List (String × Node)
  | [] => [(name, n)]
  | e :: rest => if name == e.1 then (name, n) :: rest else e :: setEntry name n rest

/-- What stands at a place below a node. -/
def at? : Node → Place → Option Node
  | n, [] => some n
  | n, name :: rest => (n.entries.lookup name).bind fun below => at? below rest

/-- A node with something put at a place below it.  What is missing on the way becomes a
directory. -/
def put : Node → Place → Node → Node
  | _, [], new => new
  | n, name :: rest, new =>
    .directory (setEntry name (put ((n.entries.lookup name).getD empty) rest new) n.entries)

mutual

/-- The places of all files below a node. -/
def files : Node → List Place
  | file _ => [[]]
  | directory entries => filesIn entries

/-- The places of all files among some entries. -/
def filesIn : List (String × Node) → List Place
  | [] => []
  | (name, n) :: rest => n.files.map (name :: ·) ++ filesIn rest

end

end Node

/-! ## Following names -/

/-- The most bytes that a name may have. -/
def longestName : Nat := 255

/-- The most bytes that a path may have. -/
def longestPath : Nat := 4095

/-- The names that mean a place itself and the one above it. -/
def isMark (name : String) : Bool := name == "." || name == ".."

/-- Where a path has led so far: what stands there, if anything does, and the directories above
from the nearest to the root, each with the name that was followed from it. -/
structure Position where
  here : Option Node
  above : List (String × Node)

namespace Position

def place (p : Position) : Place := (p.above.map Prod.fst).reverse

/-- The position above.  The root is above itself. -/
def up (p : Position) : Position :=
  match p.above with
  | [] => p
  | (_, n) :: rest => { here := some n, above := rest }

/-- The entries of the directory here. -/
def entries (p : Position) : Except Refusal (List (String × Node)) :=
  match p.here with
  | some (.directory entries) => .ok entries
  | some (.file _) => .error .notDirectory
  | none => .error .notFound

/-- Follow a name.  There may be nothing where it leads. -/
def next (p : Position) (name : String) : Except Refusal Position := do
  let entries ← p.entries
  if name == "." then return p
  if name == ".." then return p.up
  if longestName < name.utf8ByteSize then throw .nameTooLong
  return { here := entries.lookup name, above := (name, .directory entries) :: p.above }

def follow (p : Position) (names : List String) : Except Refusal Position := names.foldlM next p

end Position

/-! ## The disk -/

/-- What stands at the root, and the directory at which paths without a leading slash begin. -/
structure Disk where
  root : Node := .empty
  working : Place := []

namespace Disk

def put (d : Disk) (place : Place) (n : Node) : Disk := { d with root := d.root.put place n }

/-- The parts of a path, unless it can lead nowhere as a whole. -/
def route (path : String) : Except Refusal Route :=
  if holdsZero path then .error .zeroInPath
  else if path.isEmpty then .error .notFound
  else if longestPath < path.utf8ByteSize then .error .nameTooLong
  else .ok (Route.ofPath path)

/-- Follow names from where a route begins. -/
def follow (d : Disk) (r : Route) (names : List String) : Except Refusal Position :=
  let root : Position := { here := some d.root, above := [] }
  root.follow ((if r.absolute then [] else d.working) ++ names)

/-- What a path leads to. -/
def find (d : Disk) (path : String) : Except Refusal Node := do
  let r ← route path
  let p ← d.follow r r.names
  if r.slash then let _ ← p.entries
  match p.here with
  | some n => return n
  | none => throw .notFound

/-- The directory that a route without its last name leads to. -/
def findParent (d : Disk) (r : Route) : Except Refusal Position := do
  let p ← d.follow r r.names.dropLast
  let _ ← p.entries
  return p

def read (d : Disk) (path : String) : Except ReadRefusal (List UInt8) :=
  match d.find path with
  | .ok (.file bytes) => .ok bytes
  | .ok (.directory _) => .error (.reading .isDirectory)
  | .error reason => .error (.opening reason)

def isThere (d : Disk) (path : String) : Bool := (d.find path).isOk

def isDirectory (d : Disk) (path : String) : Bool :=
  match d.find path with
  | .ok (.directory _) => true
  | _ => false

/-- Write a file.  The directory for it must exist, and no directory may have its name. -/
def create (d : Disk) (path text : String) : Except Refusal Disk := do
  let r ← route path
  let p ← d.findParent r
  match r.names.getLast? with
  | none => throw .isDirectory
  | some name =>
    if r.slash || isMark name then throw .isDirectory
    let target ← p.next name
    if let some (.directory _) := target.here then throw .isDirectory
    return d.put target.place (.file text.toUTF8.toList)

/-- Make a directory in one that exists. -/
def makeDirectory (d : Disk) (path : String) : Except Refusal Disk := do
  let r ← route path
  let p ← d.findParent r
  match r.names.getLast? with
  | none => throw .alreadyThere
  | some name =>
    if isMark name then throw .alreadyThere
    let target ← p.next name
    if target.here.isSome then throw .alreadyThere
    return d.put target.place .empty

/-- A file below the working directory, together with the directories that lead to it. -/
def withFile (d : Disk) (path : String) (bytes : List UInt8) : Disk :=
  d.put (d.working ++ (Route.ofPath path).names) (.file bytes)

/-- The paths of all files below the working directory. -/
def files (d : Disk) : List String :=
  ((d.root.at? d.working).elim [] Node.files).map "/".intercalate

end Disk
end HexMesh
