import HexMesh.Number.Binary64
import HexMesh.Toml.Text
import HexMesh.Toml.Value

/-!
Numbers, dates and times of TOML documents.
-/

namespace HexMesh
namespace Toml

/-! ## Digits -/

/-- Digits that continue a number, and the text after them.  An underscore may stand
between two digits. -/
def moreDigits (isDigit : Char → Bool) : List Char → List Char × List Char
  | [] => ([], [])
  | [c] => if isDigit c then ([c], []) else ([], [c])
  | c :: e :: cs =>
    if isDigit c then
      let (ds, rest) := moreDigits isDigit (e :: cs)
      (c :: ds, rest)
    else if c == '_' && isDigit e then moreDigits isDigit (e :: cs)
    else ([], c :: e :: cs)

/-- At least one digit. -/
def digitRun (isDigit : Char → Bool) : Reader (List Char)
  | c :: cs => if isDigit c then some (moreDigits isDigit (c :: cs)) else none
  | [] => none

/-- A plus or a minus sign, or none; tells whether it is a minus. -/
def signOf : List Char → Bool × List Char
  | '-' :: cs => (true, cs)
  | '+' :: cs => (false, cs)
  | cs => (false, cs)

/-- Decimal digits without a leading zero. -/
def wholeDigits : Reader (List Char)
  | '0' :: cs => some (['0'], cs)
  | cs => digitRun Char.isDigit cs

/-! ## Numbers -/

/-- The integers of 64 bits. -/
def integer? (n : Int) : Option Value :=
  if -(Nat.pow 2 63 : Int) ≤ n ∧ n < (Nat.pow 2 63 : Int) then some (.integer n) else none

/-- A number in another base, after its mark. -/
def basedInteger (base : Nat) (isDigit : Char → Bool) : Reader Value := fun cs => do
  let (ds, rest) ← digitRun isDigit cs
  let v ← integer? (ds.foldl (fun n c => base * n + hexDigit c) 0 : Nat)
  return (v, rest)

/-- The digits after a point, if there is one. -/
def fractionPart : Reader (Option (List Char))
  | '.' :: cs => (digitRun Char.isDigit cs).map fun (ds, rest) => (some ds, rest)
  | cs => some (none, cs)

/-- The exponent after its mark, if there is one. -/
def exponentPart : Reader (Option Int)
  | c :: cs =>
    if c == 'e' || c == 'E' then
      let (negative, cs) := signOf cs
      (digitRun Char.isDigit cs).map fun (ds, rest) =>
        let n : Int := Decimal.ofDigits ds
        (some (if negative then -n else n), rest)
    else some (none, c :: cs)
  | [] => some (none, [])

/-- A number in base ten: an integer, or a float if it has a fraction or an exponent.  A
positive float beyond the largest finite number is refused. -/
def decimalNumber : Reader Value := fun cs => do
  let (negative, cs) := signOf cs
  let (whole, cs) ← wholeDigits cs
  let (fraction, cs) ← fractionPart cs
  let (exponent, cs) ← exponentPart cs
  match fraction, exponent with
  | none, none =>
    let n : Int := Decimal.ofDigits whole
    let v ← integer? (if negative then -n else n)
    return (v, cs)
  | _, _ =>
    let part := fraction.getD []
    let d := Decimal.finite negative (Decimal.ofDigits (whole ++ part))
      (exponent.getD 0 - part.length)
    if !negative && !(Binary64.ofDecimal d).isFinite then none else some (.float d, cs)

/-- A number, or one of the words for an infinity and for no number. -/
def number : Reader Value
  | '0' :: 'x' :: cs => basedInteger 16 isHexDigit cs
  | '0' :: 'o' :: cs => basedInteger 8 (fun c => '0' ≤ c && c ≤ '7') cs
  | '0' :: 'b' :: cs => basedInteger 2 (fun c => c == '0' || c == '1') cs
  | cs =>
    match signOf cs with
    | (negative, 'i' :: 'n' :: 'f' :: rest) => some (.float (.infinite negative), rest)
    | (_, 'n' :: 'a' :: 'n' :: rest) => some (.float .undefined, rest)
    | _ => decimalNumber cs

/-! ## Dates and times -/

/-- A number of exactly `digits` digits between two bounds. -/
def numberField (digits low high : Nat) : Reader Nat := fun cs =>
  let ds := cs.take digits
  let n := Decimal.ofDigits ds
  if ds.length = digits ∧ ds.all Char.isDigit ∧ low ≤ n ∧ n ≤ high then
    some (n, cs.drop digits)
  else none

/-- The text after a certain character. -/
def after (c : Char) : List Char → Option (List Char)
  | e :: cs => if e == c then some cs else none
  | [] => none

/-- How many days a month has. -/
def daysInMonth (year month : Nat) : Nat :=
  if month = 2 then
    if year % 4 = 0 ∧ (year % 100 ≠ 0 ∨ year % 400 = 0) then 29 else 28
  else if month = 4 ∨ month = 6 ∨ month = 9 ∨ month = 11 then 30
  else 31

/-- The text after a date. -/
def skipDate (cs : List Char) : Option (List Char) := do
  let (year, cs) ← numberField 4 0 9999 cs
  let (month, cs) ← numberField 2 1 12 (← after '-' cs)
  let (_, cs) ← numberField 2 1 (daysInMonth year month) (← after '-' cs)
  return cs

/-- The text after a time of day, which may hold a leap second and a fraction. -/
def skipTime (cs : List Char) : Option (List Char) := do
  let (_, cs) ← numberField 2 0 23 cs
  let (_, cs) ← numberField 2 0 59 (← after ':' cs)
  let (_, cs) ← numberField 2 0 60 (← after ':' cs)
  match cs with
  | '.' :: c :: rest => if c.isDigit then some (rest.dropWhile Char.isDigit) else some cs
  | _ => some cs

/-- The text after a distance from universal time, if there is one. -/
def skipOffset : List Char → Option (List Char)
  | 'Z' :: cs => some cs
  | 'z' :: cs => some cs
  | c :: cs =>
    if c == '+' || c == '-' then do
      let (_, cs) ← numberField 2 0 23 cs
      let (_, cs) ← numberField 2 0 59 (← after ':' cs)
      return cs
    else some (c :: cs)
  | [] => some []

/-- Whether a time of day begins here, as far as its first colon. -/
def beginsTime (cs : List Char) : Bool :=
  ((numberField 2 0 23 cs).bind fun (_, cs) => after ':' cs).isSome

/-- The text after a date with or without a time, or after a time. -/
def skipDatetime (cs : List Char) : Option (List Char) :=
  if beginsTime cs then skipTime cs
  else do
    let rest ← skipDate cs
    match rest with
    | c :: time =>
      if (c == 'T' || c == 't' || c == ' ') && beginsTime time then
        skipOffset (← skipTime time)
      else some rest
    | [] => some []

/-- A date, a time of day, or both. -/
def datetime : Reader Value := fun cs =>
  (skipDatetime cs).map fun rest =>
    (.datetime (String.ofList (cs.take (cs.length - rest.length))), rest)

/-- A value that holds no other values. -/
def scalarValue : Reader Value
  | 't' :: 'r' :: 'u' :: 'e' :: cs => some (.boolean true, cs)
  | 'f' :: 'a' :: 'l' :: 's' :: 'e' :: cs => some (.boolean false, cs)
  | '"' :: cs => (quotedString ('"' :: cs)).map fun (s, rest) => (.string s, rest)
  | '\'' :: cs => (quotedString ('\'' :: cs)).map fun (s, rest) => (.string s, rest)
  | cs => (datetime cs).or (number cs)

end Toml
end HexMesh
