import Mustache.Text.Slice

/-!
# Scanner

A scanner stands in a text at an offset that counts UTF-8 bytes. It moves by the bytes of what it
passes, in both directions, and what it reads is the slice of the text between two offsets. A slice
exists only between characters, so an operation that takes one has no result at any other offset.
An operation that fails answers with an overflow; the scanner is handed back either way.

* `Scanner`, `Overflow`;
* slices: `slice?`, `remaining?`, `current?`, `textSince?`, `startsWith?`, and `atEnd`;
* moves: `moveTo`, `skip`, `advance?`, `retreat?`;
* reads: `readLiteral?`, `readWhile?`, `readUntilChar?`, `readUntil?`, `readExact?`.
-/

namespace Mustache

/-- A position in a text, as the number of bytes before it. -/
structure Scanner where
  source : List Char
  offset : Nat
  deriving DecidableEq, Repr

/-- A move or read beyond the text, and the offset where the text did not go on. -/
structure Overflow where
  offset : Nat
  deriving DecidableEq, Repr

/-- The wording of an overflow. -/
def Overflow.message (o : Overflow) : String := "scanner overflow at offset " ++ toString o.offset

namespace Scanner

/-- A scanner at the start of a text. -/
def ofString (source : String) : Scanner := ⟨source.toList, 0⟩

/-- The offset of the end of the text. -/
def stop (s : Scanner) : Nat := Text.utf8Length s.source

/-- Whether nothing remains. -/
def atEnd (s : Scanner) : Bool := s.stop ≤ s.offset

/-- The scanner at another offset of its text. -/
def moveTo (s : Scanner) (offset : Nat) : Scanner := { s with offset := offset }

/-- The scanner so many bytes further on. -/
def skip (s : Scanner) (bytes : Nat) : Scanner := s.moveTo (s.offset + bytes)

/-! ## Slices -/

/-- The text between two offsets. -/
def slice? (s : Scanner) (start stop : Nat) : Option (List Char) := Text.slice? start stop s.source

/-- The text from the offset on. -/
def remaining? (s : Scanner) : Option (List Char) := s.slice? s.offset s.stop

/-- The next character, if one remains. -/
def current? (s : Scanner) : Option (Option Char) := s.remaining?.map List.head?

/-- The text since an earlier offset. -/
def textSince? (s : Scanner) (start : Nat) : Option (List Char) := s.slice? start s.offset

/-- Whether the text goes on with a literal. -/
def startsWith? (s : Scanner) (literal : List Char) : Option Bool :=
  s.remaining?.map literal.isPrefixOf

/-- Where a character comes next, bytes remain. -/
theorem offset_lt_stop {s : Scanner} {c : Char} (h : s.current? = some (some c)) :
    s.offset < s.stop := by
  obtain ⟨rest, hrest, hhead⟩ := Option.map_eq_some_iff.mp h
  have hlength := Text.utf8Length_slice? hrest
  cases rest with
  | nil => nomatch hhead
  | cons d rest =>
    have hsize := d.utf8Size_pos
    rw [Text.utf8Length] at hlength
    omega

/-! ## Moves -/

/-- Moves over the next character. -/
def advance? (s : Scanner) : Option (Except Overflow Unit × Scanner) :=
  s.current?.map fun
    | some c => (.ok (), s.skip c.utf8Size)
    | none => (.error ⟨s.offset⟩, s)

/-- Moves back over the last character. -/
def retreat? (s : Scanner) : Option (Except Overflow Unit × Scanner) :=
  (s.slice? 0 s.offset).map fun passed =>
    match passed.getLast? with
    | some c => (.ok (), s.moveTo (s.offset - c.utf8Size))
    | none => (.error ⟨s.offset⟩, s)

/-- Moves over the characters of a class that come next. -/
def passWhile? (p : Char → Bool) (s : Scanner) : Option Scanner :=
  match _h : s.current? with
  | none => none
  | some none => some s
  | some (some c) => if p c then passWhile? p (s.skip c.utf8Size) else some s
termination_by s.stop - s.offset
decreasing_by
  have hlt := offset_lt_stop _h
  have hsize := c.utf8Size_pos
  show s.stop - (s.offset + c.utf8Size) < s.stop - s.offset
  omega

/-- Moves over a number of characters, as far as there are any. -/
def advanceBy? : Nat → Scanner → Option (Except Overflow Unit × Scanner)
  | 0, s => some (.ok (), s)
  | count + 1, s => do
    match ← s.advance? with
    | (.ok (), next) => advanceBy? count next
    | (.error o, next) => return (.error o, next)

/-! ## Reads -/

/-- Moves over a literal if the text goes on with it, and tells whether it did. -/
def readLiteral? (s : Scanner) (literal : List Char) : Option (Bool × Scanner) := do
  if ← s.startsWith? literal then return (true, s.skip (Text.utf8Length literal))
  else return (false, s)

/-- Reads the characters of a class that come next. -/
def readWhile? (s : Scanner) (p : Char → Bool) : Option (List Char × Scanner) := do
  let next ← s.passWhile? p
  return (← next.textSince? s.offset, next)

/-- Reads up to the first character of a class. If there is none the read goes to the end, unless
the character is required. -/
def readUntilChar? (s : Scanner) (p : Char → Bool) (required : Bool) :
    Option (Except Overflow (List Char) × Scanner) := do
  let (text, next) ← s.readWhile? fun c => !p c
  if required && next.atEnd then return (.error ⟨s.offset⟩, next.moveTo s.offset)
  else return (.ok text, next)

/-- Reads up to the first occurrence of a mark, and over it if it is to be consumed. If there is
none the read goes to the end, unless the mark is required. -/
def readUntil? (s : Scanner) (mark : List Char) (required consume : Bool) :
    Option (Except Overflow (List Char) × Scanner) := do
  match Text.cut? mark (← s.remaining?) with
  | some (front, _) =>
    let next := s.skip (Text.utf8Length front)
    let text ← next.textSince? s.offset
    return (.ok text, if consume then next.skip (Text.utf8Length mark) else next)
  | none =>
    if required then return (.error ⟨s.stop⟩, s)
    else
      let next := s.moveTo s.stop
      return (.ok (← next.textSince? s.offset), next)

/-- Reads a number of characters. -/
def readExact? (s : Scanner) (count : Nat) : Option (Except Overflow (List Char) × Scanner) := do
  match ← s.advanceBy? count with
  | (.ok (), next) => return (.ok (← next.textSince? s.offset), next)
  | (.error o, next) => return (.error o, next.moveTo s.offset)

end Scanner

end Mustache
