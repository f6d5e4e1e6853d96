import Mustache.Text.Hexadecimal
import Mustache.Toml.Moment
import Mustache.Value.Basic

/-!
# Words of TOML

Truth values, numbers, dates and times are written without quotes. An underscore may stand between
two digits. Integers out of range are no values, and neither is a number too large for a double,
though a negative one reads as minus infinity.

* `digitRun?`: digits with the underscores taken out;
* `integer?`, `radixInteger?`, `number?`: numbers;
* `word?`: the value at the front, and what follows it.
-/

namespace Mustache.Toml

/-- The digits of a run, if every underscore in it stands between two digits. -/
def digitRun? (isDigit : Char → Bool) : List Char → Option (List Char)
  | [] => none
  | [c] => if isDigit c then some [c] else none
  | c :: '_' :: rest => if isDigit c then (digitRun? isDigit rest).map (c :: ·) else none
  | c :: rest => if isDigit c then (digitRun? isDigit rest).map (c :: ·) else none

/-- An integer, unless it is out of range. -/
def inRange? (n : Int) : Option Value :=
  if Value.minInt ≤ n ∧ n ≤ Value.maxInt then some (.int n) else none

/-- The digits of a whole number; only zero itself starts with a zero. -/
def whole? (cs : List Char) : Option (List Char) :=
  if cs.head? = some '0' ∧ cs ≠ ['0'] then none else digitRun? Char.isDigit cs

/-- A decimal integer. -/
def integer? (cs : List Char) : Option Value :=
  let (negative, rest) := Decimal.sign cs
  (whole? rest).bind fun digits =>
    let n : Int := Decimal.valueOf 0 digits
    inRange? (if negative then -n else n)

/-- An integer in another base, without a sign. -/
def radixInteger? (base : Nat) (cs : List Char) : Option Value := do
  let isDigit := fun c => (Text.hexDigit? c).any (· < base)
  let digits ← digitRun? isDigit cs
  inRange? (digits.foldl (fun (n : Nat) c => base * n + (Text.hexDigit? c).getD 0) 0 : Nat)

/-- The characters of whole numbers and fractions. -/
def inRun (c : Char) : Bool := c.isDigit || c == '_'

/-- An exponent with the underscores taken out. -/
def exponent? : List Char → Option (List Char)
  | [] => some []
  | c :: rest =>
    if c = 'e' ∨ c = 'E' then
      let (negative, digits) := Decimal.sign rest
      (digitRun? Char.isDigit digits).map fun digits =>
        'e' :: (if negative then '-' :: digits else digits)
    else none

/-- A number with a fraction or an exponent. -/
def number? (cs : List Char) : Option Value := do
  let (negative, rest) := Decimal.sign cs
  let whole ← whole? (rest.takeWhile inRun)
  let after := rest.dropWhile inRun
  let text ← match after with
    | '.' :: rest => do
      let fraction ← digitRun? Char.isDigit (rest.takeWhile inRun)
      let exponent ← exponent? (rest.dropWhile inRun)
      pure (whole ++ '.' :: fraction ++ exponent)
    | [] => none
    | rest => do pure (whole ++ (← exponent? rest))
  let x ← Decimal.readNumber? (if negative then '-' :: text else text)
  if x == Decimal.infinity then none else some (.float x)

/-- The numbers that have a name. -/
def special? (cs : List Char) : Option Value :=
  let (negative, name) := Decimal.sign cs
  if name = ['i', 'n', 'f'] then
    some (.float (if negative then -Decimal.infinity else Decimal.infinity))
  else if name = ['n', 'a', 'n'] then some (.float Decimal.notANumber)
  else none

/-- The name of the only entry of the map that stands for a moment. -/
def momentKey : String := "$__toml_private_datetime"

/-- The map that stands for a moment. -/
def Moment.value (m : Moment) : Value := .map [(momentKey, .text m.render)]

/-- The value of a word without blanks. -/
def plainWord? (cs : List Char) : Option Value :=
  match cs with
  | ['t', 'r', 'u', 'e'] => some (.bool true)
  | ['f', 'a', 'l', 's', 'e'] => some (.bool false)
  | '0' :: 'x' :: digits => radixInteger? 16 digits
  | '0' :: 'o' :: digits => radixInteger? 8 digits
  | '0' :: 'b' :: digits => radixInteger? 2 digits
  | cs => ((Moment.read? cs).map Moment.value).or ((number? cs).or ((integer? cs).or (special? cs)))

/-- The characters of words. -/
def inWord (c : Char) : Bool :=
  c.isAlphanum || c == '_' || c == '+' || c == '-' || c == '.' || c == ':'

/-- The word at the front, which goes on after a blank if it is a date before a time. -/
def wordEnd (cs : List Char) : List Char × List Char :=
  let word := cs.takeWhile inWord
  match cs.dropWhile inWord with
  | ' ' :: c :: rest =>
    if c.isDigit && (date? word).any (·.2.isEmpty) then
      (word ++ ' ' :: c :: rest.takeWhile inWord, rest.dropWhile inWord)
    else (word, ' ' :: c :: rest)
  | rest => (word, rest)

/-- The value at the front of a text, and what follows it. -/
def word? (cs : List Char) : Option (Value × List Char) :=
  let (word, rest) := wordEnd cs
  (plainWord? word).map fun value => (value, rest)

end Mustache.Toml
