import Mustache.Yaml.Gap

/-!
# Plain texts

A plain text has no quotes. It ends before a colon and a gap, before a comment, before the mark of
a document, in a flow collection before its punctuation, and elsewhere before a line that is not
indented enough.

* `plainRun?`: the characters up to a gap or the end;
* `plain?`: the text, whether a line ends after it, and the place where it ended.
-/

namespace Mustache.Yaml

/-- The punctuation of flow collections. -/
def isFlowSign (c : Char) : Bool :=
  c == ',' || c == '[' || c == ']' || c == '\x7b' || c == '\x7d'

/-- Whether a run of plain text ends before these characters. -/
def endsPlain (inFlow : Bool) : List Char → Bool
  | [] => true
  | ':' :: rest => atGap rest
  | c :: _ => isGap c || (inFlow && isFlowSign c)

/-- Whether these characters start with a colon before punctuation, which is an error in a flow
collection. -/
def badColon : List Char → Bool
  | ':' :: c :: _ => isFlowSign c || c == '?'
  | _ => false

/-- The characters of plain text up to a gap or the end. -/
def plainRun? (inFlow : Bool) : List Char → Option (List Char)
  | [] => some []
  | c :: rest =>
    if endsPlain inFlow (c :: rest) then some []
    else if inFlow && badColon (c :: rest) then none
    else (plainRun? inFlow rest).map (c :: ·)

/-- A plain text after a gap, in at most `count` runs, with the characters of the gap. Lines go on
from the column `indentation`. -/
def plain? (inFlow : Bool) (indentation : Nat) :
    (count : Nat) → Gap → Place → Option (List Char × Bool × Place)
  | 0, _, _ => none
  | count + 1, gap, p =>
    if p.isMark || p.rest.head? == some '#' then some ([], gap.endsLine, p)
    else
      (plainRun? inFlow p.rest).bind fun run =>
        if run.isEmpty then some ([], gap.endsLine, p)
        else
          ((p.past run.length).gap? indentation).bind fun (after, next) =>
            let text := gap.text ++ run
            if !inFlow && next.column < indentation then some (text, after.endsLine, next)
            else
              (plain? inFlow indentation count after next).map fun (more, last) =>
                (text ++ more, last)

end Mustache.Yaml
