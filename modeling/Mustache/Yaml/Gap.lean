import Mustache.Yaml.Place

/-!
# Gaps in a text

A text that goes on after blanks keeps them, unless they end its line. Then the line is folded:
blanks on both sides of the break are dropped, one break reads as a space, and of several line
feeds the first is dropped.

* `Gap`, and **`Gap.text`**: how a gap reads;
* `Place.breaks?`: the breaks of empty lines, from the start of a line on;
* `Place.gap?`: the gap at a place.
-/

namespace Mustache.Yaml

/-- The blanks before the first line break between two words, and the breaks. -/
structure Gap where
  blanks : List Char
  breaks : List Char

namespace Gap

/-- No gap. -/
def empty : Gap := ⟨[], []⟩

/-- Whether a line ends in the gap. -/
def endsLine (g : Gap) : Bool := !g.breaks.isEmpty

/-- How a gap reads. -/
def text (g : Gap) : List Char :=
  match g.breaks with
  | [] => g.blanks
  | ['\n'] => [' ']
  | '\n' :: more => more
  | breaks => breaks

end Gap

namespace Place

/-- The breaks of at most `count` empty lines, from the start of a line on. There must be no tab
in the first `indentation` columns. -/
def breaks? (indentation : Nat) : (count : Nat) → Place → Option (List Char × Place)
  | 0, p => some ([], p)
  | count + 1, p =>
    let (blanks, next) := p.take Text.isInlineBlank
    if (blanks.take indentation).contains '\t' then none
    else
      match next.lineBreak? with
      | some (c, next) => (breaks? indentation count next).map fun (cs, last) => (c :: cs, last)
      | none => some ([], next)

/-- The gap at a place, and the place after it. -/
def gap? (indentation : Nat) (p : Place) : Option (Gap × Place) :=
  let (blanks, next) := p.take Text.isInlineBlank
  match next.lineBreak? with
  | some (c, next) =>
    (next.breaks? indentation next.left).map fun (cs, last) => (⟨blanks, c :: cs⟩, last)
  | none => some (⟨blanks, []⟩, next)

end Place

end Mustache.Yaml
