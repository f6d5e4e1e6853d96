/-!
# Sets of characters

A Unicode property is a set of code points made of runs. A `CharSet` keeps only the code points
at which membership changes, in increasing order, which is the shortest way to write such a table.

* `CharSet`, `CharSet.contains`.
-/

namespace Mustache

/-- A set of characters, given by the code points at which membership changes: those before the
first bound are outside, those from the first up to the second are inside, and so on. -/
structure CharSet where
  bounds : List Nat

namespace CharSet

/-- Membership of a code point, `inside` being the side held before the first of the bounds. -/
def flips (n : Nat) : List Nat → Bool → Bool
  | [], inside => inside
  | b :: bounds, inside => if n < b then inside else flips n bounds !inside

/-- Whether the character is in the set. -/
def contains (s : CharSet) (c : Char) : Bool := flips c.toNat s.bounds false

end CharSet

end Mustache
