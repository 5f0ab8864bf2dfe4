/-!
The lines of a file.

A line ends at a line feed, and a carriage return right before the line feed
belongs to the line end.  What stands after the last line feed is a line too,
unless it is empty, and keeps its carriage return.
-/

namespace HexMesh

/-- A line of a file: its text, or nothing when its bytes are not the UTF-8 form of a
text. -/
abbrev Line := Option (List Char)

namespace Line

/-- The bytes of the lines of a file, each with a mark that says whether a line feed
followed. -/
def cut (bytes : List UInt8) : List (Bool × List UInt8) :=
  bytes.foldr
    (fun b lines =>
      if b = 10 then (true, []) :: lines
      else match lines with
        | (ended, line) :: rest => (ended, b :: line) :: rest
        | [] => [(false, [b])])
    []

/-- A line without the carriage return of its line end. -/
def withoutReturn : Bool × List UInt8 → List UInt8
  | (true, line) => if line.getLast? = some 13 then line.dropLast else line
  | (false, line) => line

/-- The text of a sequence of bytes. -/
def decode (bytes : List UInt8) : Line :=
  (String.fromUTF8? ⟨bytes.toArray⟩).map String.toList

/-- The lines of a file, in order. -/
def ofBytes (bytes : List UInt8) : List Line := (cut bytes).map fun l => decode (withoutReturn l)

end Line
end HexMesh
