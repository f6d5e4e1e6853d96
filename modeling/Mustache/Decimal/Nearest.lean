/-!
# The nearest double

A decimal text names a rational number; the double that it stands for is the one nearest to it,
and of two equally near the one with the even mantissa. All of it is arithmetic on natural numbers.

* `divideToEven`: a quotient rounded to the nearest integer, ties to even;
* `nearestBits`: the bits of the double nearest to a positive ratio;
* `ofDecimal`: the double nearest to `m · 10 ^ e`.
-/

namespace Mustache.Decimal

/-- One more than the greatest mantissa: a mantissa has 52 bits. -/
def mantissaBound : Nat := 0x10000000000000

/-- The bit of the sign. -/
def signBit : Nat := 0x8000000000000000

/-- The bits of positive infinity. -/
def infinityBits : Nat := 0x7FF0000000000000

/-- The quotient rounded to the nearest integer, a tie going to the even one. -/
def divideToEven (num den : Nat) : Nat :=
  let q := num / den
  let twice := 2 * (num % den)
  if den < twice ∨ (twice = den ∧ q % 2 = 1) then q + 1 else q

/-- The ratio divided by `2 ^ q`, as a ratio. -/
def scaled (num den : Nat) (q : Int) : Nat × Nat :=
  if 0 ≤ q then (num, den * Nat.pow 2 q.toNat) else (num * Nat.pow 2 (-q).toNat, den)

/-- The exponent of the last bit that a double keeps of a positive ratio. -/
def lastBit (num den : Nat) : Int :=
  let q : Int := (num.log2 : Int) - (den.log2 : Int) - 53
  let (n, d) := scaled num den q
  max (if n / d < 2 * mantissaBound then q else q + 1) (-1074)

/-- The bits of the double nearest to a positive ratio. Rounding up to the next power of two
carries into the exponent, and the bits of a number below the normal range are its mantissa. -/
def nearestBits (num den : Nat) : Nat :=
  let q := lastBit num den
  let (n, d) := scaled num den q
  min ((q + 1074).toNat * mantissaBound + divideToEven n d) infinityBits

/-- The exponents beyond which a number of any mantissa below `10 ^ digits` overflows or
vanishes. -/
def outOfRange (digits : Nat) (e : Int) : Option Nat :=
  if 310 < (digits : Int) + e then some infinityBits
  else if (digits : Int) + e < -330 then some 0
  else none

/-- The double nearest to `m · 10 ^ e`, with a sign. -/
def ofDecimal (negative : Bool) (m : Nat) (e : Int) : Float :=
  let bits :=
    if m = 0 then 0
    else
      match outOfRange (Nat.toDigits 10 m).length e with
      | some bits => bits
      | none =>
        if 0 ≤ e then nearestBits (m * Nat.pow 10 e.toNat) 1
        else nearestBits m (Nat.pow 10 (-e).toNat)
  Float.ofBits (UInt64.ofNat (if negative then bits + signBit else bits))

end Mustache.Decimal
