import Mustache.Text.Basic

/-!
# Faults of a template

Compiling stops at the first fault. A fault is a cause and the byte where it lies; for its reader
the byte becomes a line and a column of the template.

* `Cause`, `Cause.message`;
* `Fault`, and `ParseError`, a fault with its place in the source;
* `ParseError.locate`: an offset beyond the source or inside a character counts as the last
  boundary before it;
* `ParseError.message`.
-/

namespace Mustache

/-- What is wrong with a template. -/
inductive Cause where
  /-- The text ends where more is needed. -/
  | unexpectedEnd
  /-- A close tag does not repeat the tag it closes. -/
  | mismatchedClose
  /-- A tag does not end, or its name is malformed. -/
  | unfinishedName
  /-- The text ends inside a section. -/
  | unclosedSection
  /-- A tag that should change the delimiters is malformed. -/
  | invalidDelimiters
  /-- The name of a block has transforms. -/
  | transformedBlock
  /-- A parent tag holds something else than blocks. -/
  | strayInParent
  /-- A pragma is malformed. -/
  | malformedPragma
  /-- A pragma sets something unknown, or to an unknown value. -/
  | unknownPragma
  deriving DecidableEq, Repr

/-- The wording of a cause. -/
def Cause.message : Cause → String
  | unexpectedEnd => "unexpected end of template"
  | mismatchedClose => "close tag does not match the open section"
  | unfinishedName => "unfinished tag name"
  | unclosedSection => "expected a section close tag"
  | invalidDelimiters => "invalid set delimiter tag"
  | transformedBlock => "transforms cannot be applied to an inheritance block"
  | strayInParent => "only block definitions are allowed inside a parent tag"
  | malformedPragma => "invalid configuration tag syntax"
  | unknownPragma => "unrecognised configuration variable"

/-- A cause and the offset of the byte where it lies. -/
structure Fault where
  cause : Cause
  offset : Nat
  deriving DecidableEq, Repr

/-- A fault with its place for a reader: lines and columns count from 1, columns in characters,
and the line is given without its end. -/
structure ParseError where
  cause : Cause
  offset : Nat
  line : Nat
  column : Nat
  lineText : String
  deriving DecidableEq, Repr

namespace ParseError

/-- The place of a fault in its source. -/
def locate (source : String) (fault : Fault) : ParseError :=
  let (before, after) := Text.splitBytes fault.offset source.toList
  let start := Text.lastLine before
  { cause := fault.cause
    offset := Text.utf8Length before
    line := before.count '\n' + 1
    column := start.length + 1
    lineText := String.ofList
      (Text.trimEndWhile (· == '\r') (start ++ after.takeWhile (· != '\n'))) }

/-- The wording of the fault, with its place. -/
def message (e : ParseError) : String :=
  e.cause.message ++ " at line " ++ toString e.line ++ ", column " ++ toString e.column ++ ": " ++
    e.lineText

end ParseError

end Mustache
