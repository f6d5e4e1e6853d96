import Mustache.Fault
import Mustache.Report.Lines
import Mustache.Text.Width

/-!
# Reports

A report shows a fault within its source: the line, a mark below the place, and the message. Its
label starts at the character whose number is the offset of the fault and covers as many
characters as the faulty one has bytes, so in a text that is not ASCII it lies further on; beyond
the end of the text nothing is shown.

* `Label`: what is marked, and the message beside it;
* `Label.marked`: a line with the mark below it; `Label.spanning`: a line of a label that crosses
  lines, which has an arrow at its first and its last line;
* **`Report.ofError`**: the whole report.
-/

namespace Mustache.Report

/-- The characters from `start` up to `stop`, and what is said about them. -/
structure Label where
  start : Nat
  stop : Nat
  message : String

/-! ## Cells -/

/-- The number of columns that a character takes; tabs reach to the next multiple of four. -/
def cellWidth (column : Nat) (c : Char) : Nat :=
  if c = '\t' then 4 - column % 4 else if Text.isBlank c then 1 else Text.width c

/-- The columns of a character as they are shown. -/
def cell (column : Nat) (c : Char) : List Char :=
  if Text.isBlank c then List.replicate (cellWidth column c) ' ' else [c]

/-- The text of a line as it is shown. -/
def shownText (l : Line) : List Char := (l.shown.mapIdx cell).flatten

/-- The widths of the first characters of a line; beyond its end they are one. -/
def widths (l : Line) (count : Nat) : List Nat :=
  (List.range count).map fun column => (l.shown[column]?.map (cellWidth column)).getD 1

/-- A row of marks below a line, of which each takes the width of the character above it: the mark
itself and then `tail`. -/
def row (l : Line) (count : Nat) (mark : Nat → Char × Char) : List Char :=
  ((widths l count).mapIdx fun column width =>
    let (first, tail) := mark column
    (first :: List.replicate (width - 1) tail).take width).flatten

/-! ## Lines with a label -/

/-- The margin without a line number; `bar` is `┆` where lines are left out. -/
def margin (digits : Nat) (bar : Char) : List Char :=
  List.replicate (digits + 2) ' ' ++ [bar, ' ']

/-- The margin with a line number. -/
def numbered (digits index : Nat) : List Char :=
  let number := (toString (index + 1)).toList
  ' ' :: List.replicate (digits - number.length) ' ' ++ number ++ " │ ".toList

namespace Label

/-- The last character that is covered, or the one at the start if none is. -/
def last (b : Label) : Nat := max (b.stop - 1) b.start

/-- Whether a character is covered. -/
def covers (b : Label) (offset : Nat) : Bool := b.start ≤ offset && offset < b.stop

/-- A line and the mark below it, if the label ends with the line at the latest. -/
def marked (b : Label) (digits index : Nat) (l : Line) : List (List Char) :=
  if l.stop < b.stop then [margin digits '│']
  else
    let column := max b.start ((b.start + b.stop) / 2) - l.start
    let count := b.stop - l.start + 2
    let above := fun i =>
      if i = column then if b.covers (l.start + i) then ('┬', '─') else ('│', ' ')
      else if b.covers (l.start + i) then ('─', '─')
      else (' ', ' ')
    let below := fun i =>
      if i = column then ('╰', '─') else if column < i then ('─', '─') else (' ', ' ')
    [numbered digits index ++ shownText l, margin digits '│' ++ row l count above,
      margin digits '│' ++ row l count below ++ ' ' :: b.message.toList]

/-- A line of a label that crosses lines. Lines between its ends are left out, with one row for all
of them; `isGap` says that this row has been shown. -/
def spanning (b : Label) (digits index : Nat) (l : Line) (isGap : Bool) : List (List Char) :=
  if l.has b.start then [numbered digits index ++ "╭─▶ ".toList ++ shownText l]
  else if l.has b.last then
    let count := l.chars.length + 2
    [numbered digits index ++ "├─▶ ".toList ++ shownText l,
      margin digits '│' ++ "│   ".toList ++ row l count fun _ => (' ', ' '),
      margin digits '│' ++ "╰───".toList ++ (row l count fun _ => ('─', '─')) ++
        ' ' :: b.message.toList]
  else if isGap then []
  else [margin digits '┆' ++ "┆   ".toList]

/-- The lines of a label from one index on, with a row for lines that are left out at the first of
them. -/
def spanningFrom (b : Label) (digits : Nat) : (index : Nat) → (isGap : Bool) → List Line →
    List (List Char)
  | _, _, [] => []
  | index, isGap, l :: rest =>
    b.spanning digits index l isGap ++
      b.spanningFrom digits (index + 1) (!(l.has b.start || l.has b.last)) rest

end Label

/-! ## The report -/

/-- A text with a frame: where the label starts, the lines of the label, and a line below. -/
def framed (name : String) (lines : List Line) (b : Label) : List (List Char) :=
  let first := Line.indexAt lines b.start
  let final := Line.indexAt lines b.last
  let digits := (toString (final + 1)).length
  let covered := (lines.drop first).take (final + 1 - first)
  let column := b.start - ((lines[first]?).map Line.start).getD 0
  let place := name ++ ":" ++ toString (first + 1) ++ ":" ++ toString (column + 1)
  let body :=
    if first = final then covered.flatMap (b.marked digits first)
    else b.spanningFrom digits first false covered
  [List.replicate (digits + 2) ' ' ++ "╭─[".toList ++ place.toList ++ [']'],
    List.replicate (digits + 2) ' ' ++ ['│']] ++
    body ++ [List.replicate (digits + 2) '─' ++ ['╯']]

/-- **The report of an error**, with the name of the file that holds the source. -/
def ofError (e : ParseError) (source name : String) : String :=
  let after := (Text.splitBytes e.offset source.toList).2
  let b : Label :=
    { start := e.offset
      stop := e.offset + ((after.head?.map Char.utf8Size).getD 0)
      message :=
        e.cause.message ++ " (line " ++ toString e.line ++ ", column " ++ toString e.column ++ ")" }
  let lines := Line.ofText source
  let header := ("Error: " ++ e.cause.message).toList
  let body := if b.last ≤ Line.size lines then framed name lines b else []
  String.ofList ((header :: body).flatMap (· ++ ['\n']))

end Mustache.Report
