import Mustache.Text.Basic

/-!
# A cursor in a text

Reading keeps what is left of the text and the offset of its first byte. Every move takes
characters off the front and adds their bytes to the offset.

* `Cursor`, `Cursor.ofString`;
* `tail` (one character), `take` (a run of a class), `after?` (a literal), `through?` (up to and
  over a literal), `upTo?` (up to a class that has to come), `line` (up to a line feed or a
  literal);
* `lineEnd?`: the rest of the line, if it is blank.
-/

namespace Mustache

/-- What is left of a text, and the offset of its first byte. -/
structure Cursor where
  offset : Nat
  rest : List Char

namespace Cursor

/-- The start of a text. -/
def ofString (s : String) : Cursor := ⟨0, s.toList⟩

/-- The cursor after a front part of what is left, with the rest that remains. -/
def past (c : Cursor) (front rest : List Char) : Cursor := ⟨c.offset + Text.utf8Length front, rest⟩

/-- The cursor after one character. -/
def tail (c : Cursor) : Cursor :=
  match c.rest with
  | [] => c
  | ch :: rest => c.past [ch] rest

/-- The longest run of characters of a class, and the cursor after it. -/
def take (p : Char → Bool) (c : Cursor) : List Char × Cursor :=
  (c.rest.takeWhile p, c.past (c.rest.takeWhile p) (c.rest.dropWhile p))

/-- The cursor after the longest run of characters of a class. -/
def skip (p : Char → Bool) (c : Cursor) : Cursor := (c.take p).2

/-- The cursor after a literal, if it comes next. -/
def after? (mark : List Char) (c : Cursor) : Option Cursor :=
  (Text.after? mark c.rest).map (c.past mark)

/-- The text before the next occurrence of a literal, and the cursor after the literal. -/
def through? (mark : List Char) (c : Cursor) : Option (List Char × Cursor) :=
  (Text.cut? mark c.rest).map fun (front, rest) => (front, c.past (front ++ mark) rest)

/-- The text before the next character of a class, and the cursor at that character. -/
def upTo? (p : Char → Bool) (c : Cursor) : Option (List Char × Cursor) :=
  let (text, next) := c.take fun ch => !p ch
  if next.rest.isEmpty then none else some (text, next)

/-- The text before the next line feed or the next occurrence of a literal, and what is left. -/
def splitLine (mark : List Char) : List Char → List Char × List Char
  | [] => ([], [])
  | ch :: rest =>
    if ch == '\n' || (Text.after? mark (ch :: rest)).isSome then ([], ch :: rest)
    else
      let (text, left) := splitLine mark rest
      (ch :: text, left)

/-- The text before the next line feed or the next occurrence of a literal, and the cursor at
that place. -/
def line (mark : List Char) (c : Cursor) : List Char × Cursor :=
  let (text, rest) := splitLine mark c.rest
  (text, c.past text rest)

/-- The cursor after the end of the line, if only spaces and tabs come before it. The end of the
text ends a line too. -/
def lineEnd? (c : Cursor) : Option Cursor :=
  let c := c.skip Text.isInlineBlank
  match c.rest with
  | [] => some c
  | '\n' :: rest => some (c.past ['\n'] rest)
  | '\r' :: '\n' :: rest => some (c.past ['\r', '\n'] rest)
  | _ => none

end Cursor

end Mustache
