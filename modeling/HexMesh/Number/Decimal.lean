/-!
Decimal numerals, and their reading and writing.

A numeral is a signed decimal fraction, one of the two infinities, or no number
at all.  `Decimal.text` never writes an exponent; `Decimal.read?` also accepts
one, together with the usual spellings of the special values.
-/

namespace HexMesh

/-- What a numeral says.  `finite negative digits exponent` is the number
`± digits · 10 ^ exponent`, in which a negative zero is told from a positive one. -/
inductive Decimal where
  | undefined
  | infinite (negative : Bool)
  | finite (negative : Bool) (digits : Nat) (exponent : Int)
  deriving DecidableEq, Repr

namespace Decimal

/-! ## Writing -/

/-- The digits of `n` with a point before the last `places` of them, and with enough
leading zeros for one digit to stand before the point. -/
def pointed (n places : Nat) : List Char :=
  let digits := Nat.toDigits 10 n
  let padded := List.replicate (places + 1 - digits.length) '0' ++ digits
  padded.take (padded.length - places) ++ '.' :: padded.drop (padded.length - places)

/-- The number `n · 10 ^ e` without an exponent.  A whole number has no point. -/
def positional (n : Nat) : Int → List Char
  | .ofNat e => Nat.toDigits 10 (n * Nat.pow 10 e)
  | .negSucc e => pointed n (e + 1)

/-- The mark of a negative number; a positive one has none. -/
def signMark (negative : Bool) : List Char := if negative then ['-'] else []

def chars : Decimal → List Char
  | undefined => ['N', 'a', 'N']
  | infinite negative => signMark negative ++ ['i', 'n', 'f']
  | finite negative n e => signMark negative ++ positional n e

def text (d : Decimal) : String := String.ofList d.chars

/-! ## Reading -/

/-- The number written by a list of digits. -/
def ofDigits (ds : List Char) : Nat := Nat.ofDigitChars 10 ds 0

/-- A non-empty run of digits and nothing else. -/
def digits? (cs : List Char) : Option Nat :=
  if cs.isEmpty || !cs.all Char.isDigit then none else some (ofDigits cs)

/-- An optional sign before a run of digits. -/
def signed? : List Char → Option Int
  | '+' :: cs => (digits? cs).map Int.ofNat
  | '-' :: cs => (digits? cs).map fun n => -(n : Int)
  | cs => (digits? cs).map Int.ofNat

/-- Nothing, or a mark and a signed exponent. -/
def exponent? : List Char → Option Int
  | [] => some 0
  | c :: cs => if c == 'e' || c == 'E' then signed? cs else none

/-- The digits after the point, if there is one, and what follows them. -/
def fraction : List Char → List Char × List Char
  | '.' :: cs => (cs.takeWhile Char.isDigit, cs.dropWhile Char.isDigit)
  | cs => ([], cs)

/-- A number without sign: digits around an optional point, at least one of them in all,
and an optional exponent. -/
def magnitude? (cs : List Char) : Option (Nat × Int) :=
  let whole := cs.takeWhile Char.isDigit
  let (part, rest) := fraction (cs.dropWhile Char.isDigit)
  if whole.isEmpty && part.isEmpty then none
  else (exponent? rest).map fun e => (ofDigits (whole ++ part), e - part.length)

/-- One of the words for a special value, in upper or lower case, or a number. -/
def unsigned? (negative : Bool) (cs : List Char) : Option Decimal :=
  let word := cs.map Char.toLower
  if word = ['n', 'a', 'n'] then some undefined
  else if word = ['i', 'n', 'f'] || word = ['i', 'n', 'f', 'i', 'n', 'i', 't', 'y'] then
    some (infinite negative)
  else (magnitude? cs).map fun (n, e) => finite negative n e

/-- The value that a whole text spells, if it is a numeral. -/
def read? : List Char → Option Decimal
  | '-' :: cs => unsigned? true cs
  | '+' :: cs => unsigned? false cs
  | cs => unsigned? false cs

end Decimal

/-- The natural number below `bound` that a text spells: ASCII digits after an optional
plus sign. -/
def readNat? (bound : Nat) (cs : List Char) : Option Nat :=
  let digits := match cs with
    | '+' :: rest => rest
    | rest => rest
  (Decimal.digits? digits).filter (· < bound)

/-- Scalars that can be read from numerals and written as numerals. -/
class Numeral (K : Type) where
  /-- The scalar nearest to a numeral, or nothing for a special value that the scalars
  do not have. -/
  ofDecimal? : Decimal → Option K
  /-- The numeral with the fewest digits from which the scalar can be recovered. -/
  shortest : K → Decimal
  /-- The scalar rounded to a number of places after the point, ties to even. -/
  rounded : Nat → K → Decimal

namespace Numeral

variable {K : Type} [Numeral K]

/-- The scalar that a whole text spells. -/
def read? (cs : List Char) : Option K := (Decimal.read? cs).bind ofDecimal?

def text (a : K) : String := (shortest a).text

/-- The scalar with exactly `places` digits after the point. -/
def fixed (places : Nat) (a : K) : String := (rounded places a).text

end Numeral
end HexMesh
