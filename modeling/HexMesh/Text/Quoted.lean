import HexMesh.Text.Hidden

/-!
Texts in quotes, as they are shown in messages.
-/

namespace HexMesh
namespace Quoted

/-- The number of a character in hexadecimal digits, between braces. -/
def numbered (c : Char) : List Char :=
  ['\\', 'u', '\x7b'] ++ Nat.toDigits 16 c.toNat ++ ['\x7d']

/-- A character as it stands between quotes. -/
def escape (c : Char) : List Char :=
  if c == '"' then ['\\', '"']
  else if c == '\\' then ['\\', '\\']
  else if c == '\n' then ['\\', 'n']
  else if c == '\r' then ['\\', 'r']
  else if c == '\t' then ['\\', 't']
  else if c == '\x00' then ['\\', '0']
  else if isHidden c then numbered c
  else [c]

def encode (cs : List Char) : List Char := '"' :: cs.flatMap escape ++ ['"']

end Quoted

/-- A text in quotes, with everything visible that it holds. -/
def quotedText (s : String) : String := String.ofList (Quoted.encode s.toList)

end HexMesh
