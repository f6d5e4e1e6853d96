import Mustache.Decimal.Reader
import Mustache.Value.Basic

/-!
# JSON numbers

A number without point and exponent is an integer if it is in range. Any other number is a
significand times a power of ten. The significand holds as many digits as fit in 64 bits, and both
factors are rounded to a double before they are multiplied, so that the last digits of a long
number may be off.

* `Significand`, and `Significand.push` for one more digit;
* `Parts`: the runs of digits a number is written with, and `Parts.read?`;
* `scale?`: the product, unless it is too large for a double;
* `number?`: the value of a number.
-/

namespace Mustache.Json

/-- The greatest significand. -/
def maxSignificand : Nat := 0xFFFFFFFFFFFFFFFF

/-- The leading digits of a number as an integer, and how many digits follow them. -/
structure Significand where
  digits : Nat
  dropped : Nat

/-- The significand after one more digit. Once a digit has been dropped, so are the others of the
same run. -/
def Significand.push (s : Significand) (c : Char) : Significand :=
  let next := 10 * s.digits + Decimal.digitValue c
  if s.dropped = 0 ∧ next ≤ maxSignificand then ⟨next, 0⟩ else { s with dropped := s.dropped + 1 }

/-- The runs of digits that a number is written with. -/
structure Parts where
  negative : Bool
  whole : List Char
  fraction : Option (List Char)
  exponent : Option (Bool × List Char)

/-- The part of an exponent, which ends the text. -/
def exponentPart? : List Char → Option (Option (Bool × List Char))
  | [] => some none
  | c :: rest =>
    let (negative, digits) := Decimal.sign rest
    if (c = 'e' ∨ c = 'E') ∧ digits ≠ [] ∧ digits.all Char.isDigit then
      some (some (negative, digits))
    else none

/-- The parts of a number. It has no plus sign and no zero before another digit, and at least one
digit follows a point. -/
def Parts.read? (cs : List Char) : Option Parts :=
  let (negative, unsigned) := match cs with
    | '-' :: rest => (true, rest)
    | rest => (false, rest)
  let whole := unsigned.takeWhile Char.isDigit
  if whole = [] ∨ (whole.head? = some '0' ∧ whole ≠ ['0']) then none
  else
    match unsigned.dropWhile Char.isDigit with
    | '.' :: rest =>
      let fraction := rest.takeWhile Char.isDigit
      if fraction = [] then none
      else
        (exponentPart? (rest.dropWhile Char.isDigit)).map fun exponent =>
          ⟨negative, whole, some fraction, exponent⟩
    | rest => (exponentPart? rest).map fun exponent => ⟨negative, whole, none, exponent⟩

/-- The double `m · 10 ^ e` from both factors rounded. Below the least power of ten it is divided
by the greatest one until the rest is a power of ten too. -/
def scale? (m : Float) (e : Int) : Option Float :=
  if 0 ≤ e then
    if 308 < e then if m == 0.0 then some m else none
    else
      let x := m * Decimal.ofDecimal false 1 e
      if x == Decimal.infinity then none else some x
  else if -308 ≤ e then some (m / Decimal.ofDecimal false 1 (-e))
  else if m == 0.0 then some m
  else scale? (m / Decimal.ofDecimal false 1 308) (e + 308)
termination_by e.natAbs
decreasing_by omega

/-- The exponents beyond which a number is zero or too large, whatever its significand. -/
def maxExponent : Nat := 0x7FFFFFFF

/-- The size of a number with a point or exponent, or of one out of the range of integers. -/
def magnitude? (p : Parts) : Option Float :=
  let whole := p.whole.foldl .push (⟨0, 0⟩ : Significand)
  let fraction := p.fraction.getD []
  let all := fraction.foldl .push { whole with dropped := 0 }
  let places : Int := whole.dropped - (fraction.length - all.dropped : Nat)
  let m := Decimal.ofDecimal false all.digits 0
  match p.exponent with
  | none => scale? m places
  | some (negative, digits) =>
    let e := Decimal.valueOf 0 digits
    if maxExponent < e then if all.digits = 0 ∨ negative then some 0.0 else none
    else scale? m (if negative then places - e else places + e)

/-- The value of a number. A negative zero keeps its sign, and so is no integer. -/
def number? (cs : List Char) : Option Value :=
  (Parts.read? cs).bind fun p =>
    let n : Int := Decimal.valueOf 0 p.whole
    if p.fraction.isNone ∧ p.exponent.isNone ∧ (p.negative → n ≠ 0) ∧
        (if p.negative then Value.minInt ≤ -n else n ≤ Value.maxInt) then
      some (.int (if p.negative then -n else n))
    else (magnitude? p).map fun x => .float (if p.negative then -x else x)

end Mustache.Json
