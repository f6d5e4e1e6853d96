import Mustache.Text.Basic

/-!
# Blanks and comments of TOML

* `newline?`: a line feed, or one after a carriage return;
* `comment`: a comment up to the end of its line, which holds no control characters but tabs;
* `lineEnd?`: what may stand between a statement and the next line;
* `gap`: blanks, line ends and comments, as they may stand within an array.
-/

namespace Mustache.Toml

/-- The text without the spaces and tabs before it. -/
def skipBlanks (cs : List Char) : List Char := cs.dropWhile Text.isInlineBlank

/-- What follows the line end at the front of a text. -/
def newline? : List Char → Option (List Char)
  | '\n' :: rest => some rest
  | '\r' :: '\n' :: rest => some rest
  | _ => none

/-- The characters that stand for themselves in comments and texts. -/
def isPlain (c : Char) : Bool := c == '\t' || (0x20 ≤ c.toNat && c != '\x7f')

/-- What follows a comment, which starts with a number sign. -/
def comment : List Char → List Char
  | '#' :: rest => rest.dropWhile isPlain
  | cs => cs

/-- What follows the rest of a line that holds nothing but blanks and a comment. -/
def lineEnd? (cs : List Char) : Option (List Char) :=
  match comment (skipBlanks cs) with
  | [] => some []
  | rest => newline? rest

/-- What follows blanks, line ends and comments, of which at most `count` lines are passed. -/
def gap : (count : Nat) → List Char → List Char
  | 0, cs => cs
  | count + 1, cs =>
    match newline? (comment (skipBlanks cs)) with
    | some rest => gap count rest
    | none => skipBlanks cs

end Mustache.Toml
