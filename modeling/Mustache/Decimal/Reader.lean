import Mustache.Decimal.Nearest

/-!
# Reading decimal numbers

A number is digits with at most one point among them, at least one digit, and an optional
exponent; a sign may stand before it.

* `digits`: a run of digits and its value;
* `readUnsigned?`, `readNumber?`: mantissa and exponent of a number;
* `read?`: the double of a text, in which `inf`, `infinity` and `nan` stand for themselves.
-/

namespace Mustache.Decimal

/-- The value of a digit. -/
def digitValue (c : Char) : Nat := c.toNat - '0'.toNat

/-- The value of a run of digits that follows the digits of `m`. -/
def valueOf (m : Nat) (cs : List Char) : Nat := cs.foldl (fun m c => 10 * m + digitValue c) m

/-- A sign and the text after it; no sign counts as plus. -/
def sign : List Char → Bool × List Char
  | '+' :: cs => (false, cs)
  | '-' :: cs => (true, cs)
  | cs => (false, cs)

/-- An exponent part that ends the text: `e`, a sign and digits, or nothing. -/
def exponent? : List Char → Option Int
  | [] => some 0
  | c :: cs =>
    if c = 'e' ∨ c = 'E' then
      let (negative, digits) := sign cs
      if digits ≠ [] ∧ digits.all Char.isDigit then
        some (if negative then -(valueOf 0 digits : Int) else valueOf 0 digits)
      else none
    else none

/-- Mantissa and exponent of a number without a sign. -/
def readUnsigned? (cs : List Char) : Option (Nat × Int) :=
  let whole := cs.takeWhile Char.isDigit
  match cs.dropWhile Char.isDigit with
  | '.' :: rest =>
    let fraction := rest.takeWhile Char.isDigit
    if whole = [] ∧ fraction = [] then none
    else
      (exponent? (rest.dropWhile Char.isDigit)).map fun e =>
        (valueOf 0 (whole ++ fraction), e - fraction.length)
  | rest => if whole = [] then none else (exponent? rest).map fun e => (valueOf 0 whole, e)

/-- The double of a text, without the names of infinity and of what is not a number. -/
def readNumber? (cs : List Char) : Option Float :=
  let (negative, rest) := sign cs
  (readUnsigned? rest).map fun (m, e) => ofDecimal negative m e

/-- Positive infinity. -/
def infinity : Float := Float.ofBits 0x7FF0000000000000

/-- What is not a number. -/
def notANumber : Float := Float.ofBits 0x7FF8000000000000

/-- The double that a text stands for; the names of the special values may be in any case. -/
def read? (s : String) : Option Float :=
  let (negative, rest) := sign s.toList
  let name := String.ofList (rest.map Char.toLower)
  if name = "inf" ∨ name = "infinity" then some (if negative then -infinity else infinity)
  else if name = "nan" then some notANumber
  else readNumber? s.toList

end Mustache.Decimal
