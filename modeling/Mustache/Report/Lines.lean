import Mustache.Text.Basic

/-!
# Lines of a report

A report shows lines of a text by the number of characters before them. A line ends with any of
the line terminators of Unicode; a carriage return and a line feed after it end one line.

* `Line`, `Line.ofText`: the lines of a text, of which an empty text has one;
* `Line.indexAt`: the line where an offset lies; the end of the text belongs to the last line;
* `Line.shown`: the line as it is shown, without the blanks at its end.
-/

namespace Mustache.Report

/-- A line with its terminator, and the number of characters before it. -/
structure Line where
  start : Nat
  chars : List Char

/-- The characters that end a line. -/
def isTerminator (c : Char) : Bool :=
  (0x0A ≤ c.toNat && c.toNat ≤ 0x0D) || c == '\x85' || c == '\u2028' || c == '\u2029'

namespace Line

/-- The lines of a text, after the characters of a line that is not finished, in reverse. -/
def split (start : Nat) (read : List Char) : List Char → List Line
  | [] => if read.isEmpty then [] else [⟨start, read.reverse⟩]
  | '\r' :: '\n' :: rest =>
    let chars := ('\n' :: '\r' :: read).reverse
    ⟨start, chars⟩ :: split (start + chars.length) [] rest
  | c :: rest =>
    if isTerminator c then
      let chars := (c :: read).reverse
      ⟨start, chars⟩ :: split (start + chars.length) [] rest
    else split start (c :: read) rest

/-- The lines of a text. -/
def ofText (text : String) : List Line :=
  match split 0 [] text.toList with
  | [] => [⟨0, []⟩]
  | lines => lines

/-- Where the line ends, with its terminator. -/
def stop (l : Line) : Nat := l.start + l.chars.length

/-- Whether an offset lies in the line. -/
def has (l : Line) (offset : Nat) : Bool := l.start ≤ offset && offset < l.stop

/-- The characters that are shown. -/
def shown (l : Line) : List Char := Text.trimEnd l.chars

/-- The index of the line where an offset lies: the last line that does not start after it. -/
def indexAt (lines : List Line) (offset : Nat) : Nat :=
  (lines.takeWhile fun l => decide (l.start ≤ offset)).length - 1

/-- The number of characters of a text with these lines. -/
def size (lines : List Line) : Nat := lines.foldl (fun n l => n + l.chars.length) 0

end Line

end Mustache.Report
