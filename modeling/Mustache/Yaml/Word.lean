import Mustache.Decimal.Reader
import Mustache.Text.Hexadecimal
import Mustache.Value.Basic
import Mustache.Yaml.Tag

/-!
# The values of texts

A plain text without a tag is a null, a truth value, an integer or a number with a point if it
reads as one, and otherwise a text. Digits that start with a zero are a text, and an integer out of
64 bits but not out of 128 has no value. Quoted texts stay texts, and a tag decides for both.

* `bool?`, `integer?`, `float?`: how the words of each kind are written;
* `Scalar`, **`Scalar.value?`**.
-/

namespace Mustache.Yaml

/-- Whether a word stands for null. -/
def isNull (s : String) : Bool := ["null", "Null", "NULL", "~"].contains s

/-- The truth value of a word. -/
def bool? (s : String) : Option Bool :=
  if ["true", "True", "TRUE"].contains s then some true
  else if ["false", "False", "FALSE"].contains s then some false
  else none

/-! ## Numbers -/

/-- Whether a word is made of a zero and further digits. -/
def startsWithZero (cs : List Char) : Bool :=
  match (Decimal.sign cs).2 with
  | '0' :: c :: rest => (c :: rest).all Char.isDigit
  | _ => false

/-- A number in a base. -/
def digits? (base : Nat) (cs : List Char) : Option Nat :=
  if cs.isEmpty then none
  else cs.foldlM (fun n c => ((Text.hexDigit? c).filter (· < base)).map (base * n + ·)) 0

/-- An integer, however large. -/
def integer? (cs : List Char) : Option Int :=
  let (negative, rest) := Decimal.sign cs
  let size := match rest with
    | '0' :: 'x' :: rest => digits? 16 rest
    | '0' :: 'o' :: rest => digits? 8 rest
    | '0' :: 'b' :: rest => digits? 2 rest
    | rest => if startsWithZero rest then none else digits? 10 rest
  size.map fun n => if negative then -n else n

/-- The greatest integer of 64 bits without a sign. -/
def maxUnsigned : Int := 0xFFFFFFFFFFFFFFFF

/-- The value of an integer. A positive one may use the bit of the sign. -/
def integerValue? (n : Int) : Option Value :=
  if Value.minInt ≤ n ∧ n ≤ maxUnsigned then some (.ofInt n) else none

/-- The least integer of 128 bits with a sign. -/
def minLong : Int := -0x80000000000000000000000000000000

/-- The greatest integer of 128 bits without a sign. -/
def maxLong : Int := 0xFFFFFFFFFFFFFFFFFFFFFFFFFFFFFFFF

/-- Whether an integer is so large that it is read as a number with a point. -/
def isHuge (n : Int) : Bool := n < minLong || maxLong < n

/-- The names of infinity. -/
def infinities : List String := [".inf", ".Inf", ".INF"]

/-- The names of what is not a number. -/
def notANumbers : List String := [".nan", ".NaN", ".NAN"]

/-- A number with a point, unless it is too large for a double. -/
def float? (cs : List Char) : Option Float :=
  let (negative, rest) := Decimal.sign cs
  if infinities.contains (String.ofList rest) then
    some (if negative then -Decimal.infinity else Decimal.infinity)
  else if notANumbers.contains (String.ofList cs) then some Decimal.notANumber
  else (Decimal.readNumber? cs).filter Float.isFinite

/-! ## Scalars -/

/-- A text in a document. -/
structure Scalar where
  text : String
  isPlain : Bool
  tag : Option Tag

namespace Scalar

/-- What stands where a value is missing. -/
def missing : Scalar := ⟨"", true, none⟩

/-- The value of a plain text without a tag. -/
def plainValue? (s : String) : Option Value :=
  if s.isEmpty || isNull s then some .null
  else
    match bool? s with
    | some b => some (.bool b)
    | none =>
      match (integer? s.toList).filter fun n => !isHuge n with
      | some n => integerValue? n
      | none =>
        if startsWithZero s.toList then some (.text s)
        else some (((float? s.toList).map Value.float).getD (.text s))

/-- The value of a text in a document. -/
def value? (s : Scalar) : Option Value :=
  match s.tag with
  | some .null => if isNull s.text then some .null else none
  | some .bool => (bool? s.text).map .bool
  | some .int => (integer? s.text.toList).bind integerValue?
  | some .float => (float? s.text.toList).map .float
  | some .other => some (.text s.text)
  | some .unknown => none
  | none => if s.isPlain then plainValue? s.text else some (.text s.text)

end Scalar

end Mustache.Yaml
