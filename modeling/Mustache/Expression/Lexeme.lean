import Mustache.Text.Basic

/-!
# Lexemes of a tag expression

A call is written with names and parentheses; spaces, tabs and line ends between them do not
count. Every other character belongs to a name.

* `Lexeme`, and `Located`, a lexeme with the bytes it covers;
* `lex`: the lexemes of a text. A name is as long as it can be, so two names in a row have a gap
  between them.
-/

namespace Mustache

/-- A parenthesis or a name. -/
inductive Lexeme where
  | opening
  | closing
  | name (text : String)
  deriving DecidableEq, Repr

/-- A lexeme and the bytes from `start` up to `stop` that it covers. -/
structure Located where
  lexeme : Lexeme
  start : Nat
  stop : Nat
  deriving DecidableEq, Repr

namespace Lexeme

/-- The blanks that separate lexemes. -/
def isGap (c : Char) : Bool := c == ' ' || c == '\t' || c == '\r' || c == '\n'

/-- The characters of names. -/
def inName (c : Char) : Bool := !isGap c && c != '(' && c != ')'

/-- The lexemes of a text whose first byte has the given offset. -/
def lexFrom (offset : Nat) (text : List Char) : List Located :=
  match text with
  | [] => []
  | c :: rest =>
    let next := offset + c.utf8Size
    if isGap c then lexFrom next rest
    else if c = '(' then ⟨.opening, offset, next⟩ :: lexFrom next rest
    else if c = ')' then ⟨.closing, offset, next⟩ :: lexFrom next rest
    else
      let name := c :: rest.takeWhile inName
      let stop := offset + Text.utf8Length name
      ⟨.name (String.ofList name), offset, stop⟩ :: lexFrom stop (rest.dropWhile inName)
termination_by text.length
decreasing_by
  · simp
  · simp
  · simp
  · exact Nat.lt_succ_of_le (List.dropWhile_suffix _).length_le

/-- The lexemes of a text, in order. -/
def lex (text : List Char) : List Located := lexFrom 0 text

end Lexeme

end Mustache
