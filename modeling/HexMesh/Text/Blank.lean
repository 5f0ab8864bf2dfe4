/-!
White space, and the fields of a line between it.
-/

namespace HexMesh

/-- The characters with the Unicode property `White_Space`. -/
def isBlank (c : Char) : Bool :=
  let n := c.toNat
  (0x9 ≤ n && n ≤ 0xd) || n == 0x20 || n == 0x85 || n == 0xa0 || n == 0x1680 ||
    (0x2000 ≤ n && n ≤ 0x200a) || n == 0x2028 || n == 0x2029 || n == 0x202f ||
    n == 0x205f || n == 0x3000

/-- A text without the blanks at its two ends. -/
def trim (cs : List Char) : List Char :=
  ((cs.dropWhile isBlank).reverse.dropWhile isBlank).reverse

/-- A text cut at every blank, with empty pieces where blanks meet. -/
def pieces (cs : List Char) : List (List Char) :=
  cs.foldr
    (fun c runs =>
      if isBlank c then [] :: runs
      else match runs with
        | run :: rest => (c :: run) :: rest
        | [] => [[c]])
    [[]]

/-- The longest stretches of a text without blanks. -/
def fields (cs : List Char) : List (List Char) := (pieces cs).filter (!·.isEmpty)

end HexMesh
