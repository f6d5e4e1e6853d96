import Mustache.Text.Hexadecimal
import Mustache.Yaml.Gap

/-!
# Quoted texts

Between apostrophes only a doubled apostrophe has a meaning of its own. Between quotes a backslash
has one, and at the end of a line it joins the next line without a space.

* `escapes`, `escape?`: what follows a backslash;
* `quoted?`: a text up to its closing mark.
-/

namespace Mustache.Yaml

/-- The characters that a backslash and another character stand for. -/
def escapes : List (Char × Char) :=
  [('0', '\x00'), ('a', '\x07'), ('b', '\x08'), ('t', '\t'), ('\t', '\t'), ('n', '\n'),
    ('v', '\x0b'), ('f', '\x0c'), ('r', '\r'), ('e', '\x1b'), (' ', ' '), ('"', '"'), ('/', '/'),
    ('\\', '\\'), ('N', '\x85'), ('_', '\xa0'), ('L', '\u2028'), ('P', '\u2029')]

/-- The character that an escape without its backslash stands for, and the number of characters
that it takes. -/
def escape? : List Char → Option (Char × Nat)
  | 'x' :: rest => (Text.escaped? 2 rest).map fun c => (c, 3)
  | 'u' :: rest => (Text.escaped? 4 rest).map fun c => (c, 5)
  | 'U' :: rest => (Text.escaped? 8 rest).map fun c => (c, 9)
  | c :: _ => (escapes.lookup c).map fun escaped => (escaped, 1)
  | [] => none

/-- A text of at most `count` pieces up to its closing mark, and the place after the mark. No
document starts or ends within it. -/
def quoted? (mark : Char) : (count : Nat) → Place → Option (List Char × Place)
  | 0, _ => none
  | count + 1, p =>
    let more := fun (piece : List Char) (next : Place) =>
      (quoted? mark count next).map fun (text, last) => (piece ++ text, last)
    match p.rest with
    | [] => none
    | c :: rest =>
      if p.isMark then none
      else if c == mark then
        if mark == '\'' && rest.head? == some '\'' then more ['\''] (p.past 2)
        else some ([], p.past 1)
      else if mark == '"' && c == '\\' then
        match (p.past 1).lineBreak? with
        | some (_, next) =>
          (next.breaks? 0 next.left).bind fun (breaks, next) => more breaks next
        | none => (escape? rest).bind fun (escaped, taken) => more [escaped] (p.past (taken + 1))
      else if isGap c then (p.gap? 0).bind fun (gap, next) => more gap.text next
      else more [c] (p.past 1)

end Mustache.Yaml
