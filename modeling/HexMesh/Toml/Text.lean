/-!
The smallest pieces of a TOML document: blanks, comments, line ends, quoted
strings and keys.

Every reader takes the text from some place on and gives back what it read
together with the text that follows, or nothing if the text is not well formed.
-/

namespace HexMesh
namespace Toml

/-- A reader of a piece of a text. -/
abbrev Reader (α : Type) := List Char → Option (α × List Char)

/-! ## Blanks, comments and line ends -/

/-- A character that may stand in a comment or a quoted string: a tab, or anything but a
control character of ASCII. -/
def isPlain (c : Char) : Bool :=
  c == '\t' || (0x20 ≤ c.toNat && c.toNat ≠ 0x7f)

/-- The text after spaces and tabs. -/
def skipBlanks (cs : List Char) : List Char := cs.dropWhile fun c => c == ' ' || c == '\t'

/-- The text after a comment, if one begins here. -/
def skipComment : List Char → List Char
  | '#' :: cs => cs.dropWhile isPlain
  | cs => cs

/-- The text after a line end, or the end of the text. -/
def lineEnd? : List Char → Option (List Char)
  | [] => some []
  | '\n' :: cs => some cs
  | '\r' :: '\n' :: cs => some cs
  | _ => none

/-- The text after the rest of a line that holds nothing more. -/
def restOfLine? (cs : List Char) : Option (List Char) :=
  lineEnd? (skipComment (skipBlanks cs))

/-- The text after blanks, line ends and comments, as they may stand between the items of
an array. -/
def skipSpace (inComment : Bool) : List Char → List Char
  | [] => []
  | '\n' :: cs => skipSpace false cs
  | '\r' :: '\n' :: cs => skipSpace false cs
  | c :: cs =>
    if inComment then
      if isPlain c then skipSpace true cs else c :: cs
    else if c == ' ' || c == '\t' then skipSpace false cs
    else if c == '#' then skipSpace true cs
    else c :: cs

/-! ## Strings -/

def isHexDigit (c : Char) : Bool :=
  c.isDigit || ('a' ≤ c && c ≤ 'f') || ('A' ≤ c && c ≤ 'F')

/-- The value of a digit in base sixteen. -/
def hexDigit (c : Char) : Nat :=
  if c.isDigit then c.toNat - '0'.toNat
  else if 'a' ≤ c then c.toNat - 'a'.toNat + 10
  else c.toNat - 'A'.toNat + 10

/-- The character with a number written in exactly `digits` hexadecimal digits. -/
def codePoint (digits : Nat) : Reader Char := fun cs =>
  let ds := cs.take digits
  if ds.length < digits || !ds.all isHexDigit then none
  else
    let n := ds.foldl (fun n c => 16 * n + hexDigit c) 0
    if n < 0xd800 ∨ (0xdfff < n ∧ n < 0x110000) then some (Char.ofNat n, cs.drop digits)
    else none

/-- What stands after a backslash. -/
def escaped : Reader Char
  | 'b' :: cs => some ('\x08', cs)
  | 't' :: cs => some ('\t', cs)
  | 'n' :: cs => some ('\n', cs)
  | 'f' :: cs => some ('\x0c', cs)
  | 'r' :: cs => some ('\r', cs)
  | '"' :: cs => some ('"', cs)
  | '\\' :: cs => some ('\\', cs)
  | 'u' :: cs => codePoint 4 cs
  | 'U' :: cs => codePoint 8 cs
  | _ => none

/-- A string on one line, up to the quote that closes it. -/
def lineString (quote : Char) : Nat → List Char → Reader String
  | 0, _, _ => none
  | _, _, [] => none
  | n + 1, read, c :: cs =>
    if c == quote then some (String.ofList read.reverse, cs)
    else if quote == '"' && c == '\\' then
      match escaped cs with
      | some (e, cs) => lineString quote n (e :: read) cs
      | none => none
    else if isPlain c then lineString quote n (c :: read) cs
    else none

/-- The text after a backslash at the end of a line: the line end and all blanks and line
ends that follow. -/
def continuation? (cs : List Char) : Option (List Char) :=
  match skipBlanks cs with
  | '\n' :: cs => some (skipLines cs)
  | '\r' :: '\n' :: cs => some (skipLines cs)
  | _ => none
where
  skipLines : List Char → List Char
    | [] => []
    | '\r' :: '\n' :: cs => skipLines cs
    | c :: cs => if c == ' ' || c == '\t' || c == '\n' then skipLines cs else c :: cs

/-- A string of several lines, up to three quotes.  One or two quotes more belong to the
string, and a line end is a line feed. -/
def blockString (quote : Char) : Nat → List Char → Reader String
  | 0, _, _ => none
  | _, _, [] => none
  | n + 1, read, '\r' :: '\n' :: cs => blockString quote n ('\n' :: read) cs
  | n + 1, read, c :: cs =>
    if c == quote then
      let run := 1 + (cs.takeWhile (· == quote)).length
      let inside := if run < 3 then run else min run 5 - 3
      let read := List.replicate inside quote ++ read
      if run < 3 then blockString quote n read ((c :: cs).drop run)
      else some (String.ofList read.reverse, (c :: cs).drop (min run 5))
    else if quote == '"' && c == '\\' then
      match continuation? cs with
      | some cs => blockString quote n read cs
      | none =>
        match escaped cs with
        | some (e, cs) => blockString quote n (e :: read) cs
        | none => none
    else if c == '\n' || isPlain c then blockString quote n (c :: read) cs
    else none

/-- The text after a line end right behind the opening quotes, which does not count. -/
def skipFirstLineEnd : List Char → List Char
  | '\n' :: cs => cs
  | '\r' :: '\n' :: cs => cs
  | cs => cs

/-- A quoted string of any of the four kinds. -/
def quotedString : Reader String
  | '"' :: '"' :: '"' :: cs => blockString '"' (cs.length + 1) [] (skipFirstLineEnd cs)
  | '\'' :: '\'' :: '\'' :: cs => blockString '\'' (cs.length + 1) [] (skipFirstLineEnd cs)
  | '"' :: cs => lineString '"' (cs.length + 1) [] cs
  | '\'' :: cs => lineString '\'' (cs.length + 1) [] cs
  | _ => none

/-! ## Keys -/

/-- A character of a key without quotes. -/
def isBareKey (c : Char) : Bool := c.isAlphanum || c == '-' || c == '_'

/-- One part of a key: a quoted string on one line, or a run of letters and digits. -/
def keyPart : Reader String
  | '"' :: cs => lineString '"' (cs.length + 1) [] cs
  | '\'' :: cs => lineString '\'' (cs.length + 1) [] cs
  | cs =>
    let word := cs.takeWhile isBareKey
    if word.isEmpty then none else some (String.ofList word, cs.dropWhile isBareKey)

/-- The parts of a key, with points between them and blanks around each. -/
def keyParts : Nat → Reader (List String)
  | 0, _ => none
  | n + 1, cs => do
    let (part, cs) ← keyPart (skipBlanks cs)
    match skipBlanks cs with
    | '.' :: cs => do
      let (parts, cs) ← keyParts n cs
      return (part :: parts, cs)
    | cs => return ([part], cs)

/-- How deep values may be nested and how many parts a key may have. -/
def depthLimit : Nat := 79

/-- A key, as the path to its table and the name of its entry. -/
def key : Reader (List String × String) := fun cs => do
  let (parts, cs) ← keyParts depthLimit cs
  return ((parts.dropLast, parts.getLastD ""), cs)

end Toml
end HexMesh
