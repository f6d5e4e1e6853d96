import Mustache.Scanner.Basic
import Mustache.Text.Alphanumeric

/-!
# Sessions of a scanner

A session is a scanner together with the offsets that were saved. It takes one step after another;
each step has an outcome and may move the scanner.

* `CharClass`: some classes of characters that steps can ask for;
* `Step`, `Outcome`, `Session`;
* `Session.step?`, `Session.run?`: one step, and a list of them.
-/

namespace Mustache.Scanner

/-- A class of characters. -/
inductive CharClass where
  | blank
  | alphanumeric
  | among (chars : List Char)
  deriving DecidableEq, Repr

/-- Whether a character belongs to the class. -/
def CharClass.has : CharClass → Char → Bool
  | .blank, c => Text.isBlank c
  | .alphanumeric, c => Text.isAlphanumeric c
  | .among chars, c => chars.contains c

instance : Coe CharClass (Char → Bool) := ⟨CharClass.has⟩

/-- What can be asked of a session. A saved offset is named by its number, the latest first. -/
inductive Step where
  | advance
  | retreat
  | save
  | restore (n : Nat := 0)
  | current
  | atEnd
  | startsWith (literal : String)
  | readLiteral (literal : String)
  | remaining
  | textSince (n : Nat := 0)
  | readWhile (p : Char → Bool)
  | readUntilChar (p : Char → Bool) (required : Bool)
  | readUntil (mark : String) (required consume : Bool)
  | readExact (count : Nat)

/-- What a step answers. -/
inductive Outcome where
  | done
  | char (c : Option Char)
  | truth (b : Bool)
  | text (s : String)
  | overflow (o : Overflow)
  deriving DecidableEq, Repr

/-- What a move answers. -/
def Outcome.ofMove : Except Overflow Unit → Outcome
  | .ok () => .done
  | .error o => .overflow o

/-- What a read answers. -/
def Outcome.ofRead : Except Overflow (List Char) → Outcome
  | .ok chars => .text (String.ofList chars)
  | .error o => .overflow o

/-- A scanner and the saved offsets, the latest first. -/
structure Session where
  scanner : Scanner
  saved : List Nat
  deriving DecidableEq, Repr

namespace Session

/-- A session at the start of a text. -/
def ofString (source : String) : Session := ⟨.ofString source, []⟩

/-- A saved offset. As long as so many have not been saved it is that of the start. -/
def position (s : Session) (n : Nat) : Nat := s.saved[n]?.getD 0

/-- The session with the scanner that an operation hands back. -/
def after {α : Type} (s : Session) (outcome : α → Outcome) (r : α × Scanner) : Outcome × Session :=
  (outcome r.1, { s with scanner := r.2 })

/-- One step: its outcome and the session after it. -/
def step? (s : Session) : Step → Option (Outcome × Session)
  | .advance => s.scanner.advance?.map (s.after .ofMove)
  | .retreat => s.scanner.retreat?.map (s.after .ofMove)
  | .save => some (.done, { s with saved := s.scanner.offset :: s.saved })
  | .restore n => some (.done, { s with scanner := s.scanner.moveTo (s.position n) })
  | .current => s.scanner.current?.map fun c => (.char c, s)
  | .atEnd => some (.truth s.scanner.atEnd, s)
  | .startsWith literal => (s.scanner.startsWith? literal.toList).map fun b => (.truth b, s)
  | .readLiteral literal => (s.scanner.readLiteral? literal.toList).map (s.after .truth)
  | .remaining => s.scanner.remaining?.map fun text => (.text (String.ofList text), s)
  | .textSince n =>
    (s.scanner.textSince? (s.position n)).map fun text => (.text (String.ofList text), s)
  | .readWhile p => (s.scanner.readWhile? p).map (s.after fun text => .text (String.ofList text))
  | .readUntilChar p required => (s.scanner.readUntilChar? p required).map (s.after .ofRead)
  | .readUntil mark required consume =>
    (s.scanner.readUntil? mark.toList required consume).map (s.after .ofRead)
  | .readExact count => (s.scanner.readExact? count).map (s.after .ofRead)

/-- Steps one after another: their outcomes and the session after them. -/
def run? (s : Session) : List Step → Option (List Outcome × Session)
  | [] => some ([], s)
  | step :: steps => do
    let (outcome, next) ← s.step? step
    let (outcomes, last) ← next.run? steps
    return (outcome :: outcomes, last)

end Session

end Mustache.Scanner
