import Mustache.Text.Basic

/-!
# Places in a document

A place is what is left of a document, with its length, its line and its column. Columns decide
what belongs together, and lines and lengths decide how far a key may reach.

* `isBreak`, `isGap`, `atGap`: the characters that end lines and words;
* `Place`; `Place.past`, `Place.take`, `Place.skip` within a line, and `Place.lineBreak?` over its
  end;
* `Place.isMark`: whether a document starts or ends here;
* `Place.lineEnd?`: over the rest of a line that holds nothing but blanks and a comment.
-/

namespace Mustache.Yaml

/-- The characters that end a line. -/
def isBreak (c : Char) : Bool :=
  c == '\n' || c == '\r' || c == '\x85' || c == '\u2028' || c == '\u2029'

/-- The characters that end a word. -/
def isGap (c : Char) : Bool := Text.isInlineBlank c || isBreak c

/-- Whether a word ends before these characters. -/
def atGap (cs : List Char) : Bool := cs.head?.all isGap

/-- A place in a document: the characters that are left, how many they are, and where they
start. -/
structure Place where
  rest : List Char
  left : Nat
  line : Nat
  column : Nat

namespace Place

/-- The start of a document. -/
def ofList (cs : List Char) : Place := ⟨cs, cs.length, 0, 0⟩

/-- The place after `n` characters of the same line. -/
def past (p : Place) (n : Nat) : Place :=
  { p with rest := p.rest.drop n, left := p.left - n, column := p.column + n }

/-- The longest run of characters of a class, which has no line breaks, and the place after it. -/
def take (q : Char → Bool) (p : Place) : List Char × Place :=
  let run := p.rest.takeWhile q
  (run, p.past run.length)

/-- The place after the longest run of characters of a class, which has no line breaks. -/
def skip (q : Char → Bool) (p : Place) : Place := (p.take q).2

/-- The start of the next line, with `n` characters between. -/
def newLine (p : Place) (n : Nat) : Place := ⟨p.rest.drop n, p.left - n, p.line + 1, 0⟩

/-- The line break at a place, as it reads, and the place after it. Line and paragraph separators
stay, and any other break is a line feed. -/
def lineBreak? (p : Place) : Option (Char × Place) :=
  match p.rest with
  | '\r' :: '\n' :: _ => some ('\n', p.newLine 2)
  | '\u2028' :: _ => some ('\u2028', p.newLine 1)
  | '\u2029' :: _ => some ('\u2029', p.newLine 1)
  | c :: _ => if isBreak c then some ('\n', p.newLine 1) else none
  | [] => none

/-- Whether a document starts or ends here: three hyphens or points stand alone at the start of
a line. -/
def isMark (p : Place) : Bool :=
  p.column == 0 &&
    match p.rest with
    | '-' :: '-' :: '-' :: rest => atGap rest
    | '.' :: '.' :: '.' :: rest => atGap rest
    | _ => false

/-- The place after a comment, if there is one. -/
def pastComment (p : Place) : Place :=
  if p.rest.head? = some '#' then p.skip fun c => !isBreak c else p

/-- The place after the rest of a line that holds nothing but blanks and a comment. -/
def lineEnd? (p : Place) : Option Place :=
  let last := (p.skip Text.isInlineBlank).pastComment
  if last.rest.isEmpty then some last else last.lineBreak?.map Prod.snd

end Place

end Mustache.Yaml
