/-!
JSON documents, written for people to read.
-/

namespace HexMesh

/-- A value of the format, as far as this library writes it. -/
inductive Json where
  | number (n : Nat)
  | string (s : String)
  | list (items : List Json)
  | record (fields : List (String × Json))

namespace Json

/-- The last digits of a number in base sixteen, as many as asked for. -/
def lastDigits : Nat → Nat → List Char
  | 0, _ => []
  | count + 1, n => lastDigits count (n / 16) ++ [Nat.digitChar (n % 16)]

/-- A character as it stands in a string. -/
def escape (c : Char) : List Char :=
  if c == '"' then ['\\', '"']
  else if c == '\\' then ['\\', '\\']
  else if c == '\n' then ['\\', 'n']
  else if c == '\r' then ['\\', 'r']
  else if c == '\t' then ['\\', 't']
  else if c == '\x08' then ['\\', 'b']
  else if c == '\x0c' then ['\\', 'f']
  else if c.toNat < 0x20 then ['\\', 'u'] ++ lastDigits 4 c.toNat
  else [c]

/-- A string in quotes. -/
def quoted (s : String) : String := String.ofList ('"' :: s.toList.flatMap escape ++ ['"'])

/-- The beginning of a line at some depth. -/
def indent (depth : Nat) : String := String.ofList (List.replicate (2 * depth) ' ')

/-- Items between two brackets, each on a line of its own, or nothing between them. -/
def bracketed (opening closing : String) (depth : Nat) (items : List String) : String :=
  if items.isEmpty then opening ++ closing
  else
    let lines := items.map fun item => indent (depth + 1) ++ item
    opening ++ "\n" ++ ",\n".intercalate lines ++ "\n" ++ indent depth ++ closing

mutual

/-- A value that begins at some depth. -/
def textAt (depth : Nat) : Json → String
  | number n => toString n
  | string s => quoted s
  | list items => bracketed "[" "]" depth (itemsAt (depth + 1) items)
  | record fields => bracketed "\x7b" "\x7d" depth (fieldsAt (depth + 1) fields)

/-- The items of a list. -/
def itemsAt (depth : Nat) : List Json → List String
  | [] => []
  | item :: rest => textAt depth item :: itemsAt depth rest

/-- The fields of a record. -/
def fieldsAt (depth : Nat) : List (String × Json) → List String
  | [] => []
  | (name, value) :: rest => (quoted name ++ ": " ++ textAt depth value) :: fieldsAt depth rest

end

/-- The text of a value. -/
def text (value : Json) : String := textAt 0 value

end Json
end HexMesh
