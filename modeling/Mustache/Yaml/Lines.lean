import Mustache.Decimal.Reader
import Mustache.Yaml.Gap

/-!
# Texts of several lines

A bar starts a text whose lines stay as they are, and a greater-than sign one whose lines are
folded, unless a blank stands at the start of a line. The first line that is not empty gives the
indentation of all, unless a digit does, and a sign says what becomes of the breaks at the end.

* `Chomping`, `Header`, `header?`: what stands on the line of the bar;
* `emptyLines?`: the breaks of empty lines, and the furthest column on them;
* `body?`, `lines?`: the text.
-/

namespace Mustache.Yaml

/-! ## The first line -/

/-- What becomes of the line breaks at the end: all are dropped, all but the first, or none. -/
inductive Chomping where
  | strip
  | clip
  | keep
  deriving DecidableEq

/-- The breaks that are left at the end, of the break after the last line and those of the empty
lines that follow it. -/
def Chomping.tail (last : Option Char) (empty : List Char) : Chomping → List Char
  | .strip => []
  | .clip => last.toList
  | .keep => last.toList ++ empty

/-- What is said about a text of several lines before it starts. -/
structure Header where
  chomping : Chomping
  indentation : Option Nat

/-- A digit of at least one, if there is a digit. -/
def digit? (p : Place) : Option (Option Nat × Place) :=
  match p.rest with
  | '0' :: _ => none
  | c :: _ => some (if c.isDigit then (some (Decimal.digitValue c), p.past 1) else (none, p))
  | [] => some (none, p)

/-- A sign, if there is one. -/
def chomping (p : Place) : Chomping × Place :=
  match p.rest with
  | '-' :: _ => (.strip, p.past 1)
  | '+' :: _ => (.keep, p.past 1)
  | _ => (.clip, p)

/-- A sign and a digit in either order, and the rest of the line. -/
def header? (p : Place) : Option (Header × Place) := do
  let (before, p) ← digit? p
  let (chomping, p) := chomping p
  let (indentation, p) ← if before.isSome then some (before, p) else digit? p
  let p ← p.lineEnd?
  some (⟨chomping, indentation⟩, p)

/-! ## The other lines -/

/-- The breaks of at most `count` empty lines, the furthest column that is reached on these lines
and on the one after them, and the place reached. As long as the indentation is open every space
belongs to it. -/
def emptyLines? (indentation : Option Nat) :
    (count : Nat) → Place → Option (List Char × Nat × Place)
  | 0, p => some ([], p.column, p)
  | count + 1, p =>
    let spaces := (p.rest.takeWhile (· == ' ')).length
    let next := p.past (indentation.elim spaces fun n => min spaces (n - p.column))
    if indentation.all (next.column < ·) && next.rest.head? == some '\t' then none
    else
      match next.lineBreak? with
      | some (c, after) =>
        (emptyLines? indentation count after).map fun (cs, furthest, last) =>
          (c :: cs, max next.column furthest, last)
      | none => some ([], next.column, next)

/-- The lines of a text, of which there are at most `count`, after the break `last` of a line that
started with a blank or not and the breaks of empty lines. -/
def body? (folded : Bool) (indentation : Nat) (chomping : Chomping) :
    (count : Nat) → (last : Option Char) → (blank : Bool) → (empty : List Char) → Place →
      Option (List Char × Place)
  | 0, _, _, _, _ => none
  | count + 1, last, blank, empty, p =>
    if p.column ≠ indentation ∨ p.rest = [] then some (chomping.tail last empty, p)
    else
      let startsBlank := p.rest.head?.any Text.isInlineBlank
      let joint :=
        if folded && last == some '\n' && !blank && !startsBlank then
          if empty.isEmpty then [' '] else []
        else last.toList
      let (line, next) := p.take fun c => !isBreak c
      let (after, next) := (next.lineBreak?.map fun (c, p) => (some c, p)).getD (none, next)
      (emptyLines? (some indentation) next.left next).bind fun (breaks, _, next) =>
        (body? folded indentation chomping count after startsBlank breaks next).map
          fun (text, next) => (joint ++ empty ++ line ++ text, next)

/-- A text of several lines from the place after its bar, in a collection whose items are indented
by `least` at least. -/
def lines? (folded : Bool) (least : Nat) (p : Place) : Option (List Char × Place) := do
  let (header, p) ← header? p
  let given := header.indentation.map (least - 1 + ·)
  let (empty, furthest, p) ← emptyLines? given p.left p
  let indentation := given.getD (max furthest (max least 1))
  body? folded indentation header.chomping (p.left + 1) none false empty p

end Mustache.Yaml
