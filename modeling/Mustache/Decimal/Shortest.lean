import Mustache.Decimal.Nearest

/-!
# The shortest decimal that reads back

A double is written with the fewest digits that name it and no other double, and of those with
the digits nearest to it.

* `Finite`, `decode`: a positive double as `m · 2 ^ q`;
* `Interval`: the numbers that round to it, in quarters of its last bit;
* `shortest`: digits and exponent; `positional`: the text, never with an exponent;
* `render`: the text of any double.
-/

namespace Mustache.Decimal

/-- A positive number `m · 2 ^ q`, with the distance to the number below it halved when `m` is
the least mantissa of its exponent. -/
structure Finite where
  m : Nat
  q : Int
  leastMantissa : Bool

/-- The number of a positive, finite double. -/
def decode (bits : Nat) : Finite :=
  let e := bits / mantissaBound
  let m := bits % mantissaBound
  if e = 0 then ⟨m, -1074, false⟩ else ⟨m + mantissaBound, (e : Int) - 1075, m = 0 ∧ 1 < e⟩

/-- A number and the ends of the interval of numbers that round to it, over one denominator. -/
structure Interval where
  low : Nat
  value : Nat
  high : Nat
  den : Nat
  closed : Bool

/-- The numbers that round to `x`: half a unit of the last bit to either side, a quarter below
the least mantissa; the ends round to `x` if its mantissa is even. -/
def Finite.interval (x : Finite) : Interval :=
  let up := Nat.pow 2 x.q.toNat
  ⟨(4 * x.m - if x.leastMantissa then 1 else 2) * up, 4 * x.m * up, (4 * x.m + 2) * up,
    4 * Nat.pow 2 (-x.q).toNat, x.m % 2 = 0⟩

/-- Whether `d · 10 ^ u` is in the interval. -/
def Interval.holds (i : Interval) (d : Nat) (u : Int) : Bool :=
  let x := d * Nat.pow 10 u.toNat * i.den
  let down := Nat.pow 10 (-u).toNat
  if i.closed then i.low * down ≤ x && x ≤ i.high * down
  else i.low * down < x && x < i.high * down

/-- The multiple of `10 ^ u` next below the value, and whether the next above is as near. -/
def Interval.grid (i : Interval) (u : Int) : Nat × Bool :=
  let num := i.value * Nat.pow 10 (-u).toNat
  let den := i.den * Nat.pow 10 u.toNat
  (num / den, den ≤ 2 * (num % den))

/-- The multiple of `10 ^ u` that stands for the value: the neighbour in the interval, the nearer
of two, the upper one of two as near. -/
def Interval.pick? (i : Interval) (u : Int) : Option Nat :=
  let (d, upper) := i.grid u
  match i.holds d u && d != 0, i.holds (d + 1) u with
  | true, true => some (if upper then d + 1 else d)
  | true, false => some d
  | false, true => some (d + 1)
  | false, false => none

/-- The first grid from `10 ^ u` downwards with a number in the interval. -/
def Interval.search (i : Interval) : Nat → Int → Nat × Int
  | 0, u => ((i.grid u).1, u)
  | n + 1, u =>
    match i.pick? u with
    | some d => (d, u)
    | none => i.search n (u - 1)

/-- A power of ten above the value: the quotient has fewer bits than four thirds of the digits. -/
def Interval.topUnit (i : Interval) : Int :=
  ((i.value.log2 : Int) - (i.den.log2 : Int)) * 302 / 1000 + 2

/-- The digits of a positive number and the exponent of the last of them. -/
def shortest (x : Finite) : Nat × Int :=
  let i := x.interval
  i.search 22 i.topUnit

/-- The text of `d · 10 ^ u` with a point where it belongs and without an exponent. -/
def positional (d : Nat) (u : Int) : String :=
  let digits := Nat.toDigits 10 d
  if 0 ≤ u then String.ofList (digits ++ List.replicate u.toNat '0')
  else
    let places := (-u).toNat
    let padded := List.replicate (places + 1 - digits.length) '0' ++ digits
    let whole := padded.length - places
    String.ofList (padded.take whole ++ '.' :: padded.drop whole)

/-- The text of a double: shortest digits, a sign also before zero, no exponent, no point without
digits after it. -/
def render (x : Float) : String :=
  let bits := x.toBits.toNat
  let size := bits % signBit
  if infinityBits < size then "NaN"
  else
    let text :=
      if size = infinityBits then "inf"
      else if size = 0 then "0"
      else
        let (d, u) := shortest (decode size)
        positional d u
    if signBit ≤ bits then "-" ++ text else text

end Mustache.Decimal
