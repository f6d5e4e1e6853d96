/-!
# Hexadecimal digits

* `hexDigit?`: the value of a digit; `hexadecimal?`: the value of a run of digits;
* `scalar?`: the character of a code point, unless it is half of a surrogate pair or too large.
-/

namespace Mustache.Text

/-- The value of a hexadecimal digit. -/
def hexDigit? (c : Char) : Option Nat :=
  if c.isDigit then some (c.toNat - '0'.toNat)
  else if 'a' ≤ c ∧ c ≤ 'f' then some (c.toNat - 'a'.toNat + 10)
  else if 'A' ≤ c ∧ c ≤ 'F' then some (c.toNat - 'A'.toNat + 10)
  else none

/-- The value of hexadecimal digits. -/
def hexadecimal? (cs : List Char) : Option Nat :=
  cs.foldlM (fun n c => (hexDigit? c).map (16 * n + ·)) 0

/-- The character of a code point. -/
def scalar? (n : Nat) : Option Char := if n.isValidChar then some (Char.ofNat n) else none

/-- The character whose code point the first `count` characters spell. -/
def escaped? (count : Nat) (cs : List Char) : Option Char :=
  if cs.length < count then none else (hexadecimal? (cs.take count)).bind scalar?

end Mustache.Text
