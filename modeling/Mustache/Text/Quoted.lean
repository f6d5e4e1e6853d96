import Mustache.Text.Printable

/-!
# Quoted text

A text in a message stands between double quotes. The quote and the backslash are escaped, the
common controls have a letter, and a character that would not show is written by its number.

* `escapeChar`, `quote`.
-/

namespace Mustache.Text

/-- The digits of a code point in base sixteen, in lower case. -/
def hexDigits (n : Nat) : String := String.ofList (Nat.toDigits 16 n)

/-- How a character is written between double quotes. -/
def escapeChar (c : Char) : String :=
  if c = '"' then "\\\""
  else if c = '\\' then "\\\\"
  else if c = '\n' then "\\n"
  else if c = '\r' then "\\r"
  else if c = '\t' then "\\t"
  else if c.toNat = 0 then "\\0"
  else if graphemeExtend.contains c || unprintable.contains c then
    "\\u\x7b" ++ hexDigits c.toNat ++ "\x7d"
  else String.singleton c

/-- The text between double quotes. -/
def quote (s : String) : String := "\"" ++ String.join (s.toList.map escapeChar) ++ "\""

end Mustache.Text
