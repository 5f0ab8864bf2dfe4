/-!
Paths as they are written.
-/

namespace HexMesh

/-- The path of an entry of a directory.  A directory without a name is the current one, and
a name that ends in a slash gets no second one. -/
def pathIn (directory entry : String) : String :=
  if directory.isEmpty || directory.endsWith "/" then directory ++ entry
  else directory ++ "/" ++ entry

/-- A path with a zero byte, where a system would take it to end. -/
def holdsZero (path : String) : Bool := path.toList.contains '\x00'

/-- The parts of a path: where it begins, its names, and whether a slash follows the last one.
Slashes next to each other count as one. -/
structure Route where
  absolute : Bool
  names : List String
  slash : Bool
  deriving DecidableEq, Repr

namespace Route

def ofPath (path : String) : Route :=
  { absolute := path.startsWith "/"
    names := ((path.toList.splitOn '/').filter fun name => !name.isEmpty).map String.ofList
    slash := path.endsWith "/" }

def path (r : Route) : String :=
  let names := "/".intercalate r.names
  (if r.absolute then "/" else "") ++ names ++ (if r.slash && !r.names.isEmpty then "/" else "")

/-- The names without single points at the end, which name nothing of their own. -/
def trimmed (names : List String) : List String :=
  (names.reverse.dropWhile (· == ".")).reverse

/-- The routes to the directories above, from the nearest to the farthest. -/
def above (r : Route) : List Route :=
  let names := trimmed r.names
  let starts := (List.range names.length).reverse.map names.take
  (starts.filter fun start => !start.isEmpty && start.getLast? != some ".").map fun start =>
    { absolute := r.absolute, names := start, slash := false }

end Route
end HexMesh
