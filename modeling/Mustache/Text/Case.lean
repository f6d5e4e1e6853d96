import Mustache.Text.Basic
import Mustache.Text.Case.Context
import Mustache.Text.Case.Lower
import Mustache.Text.Case.Upper

/-!
# Changing the case of a text

Every letter is replaced by its other case, which may be several letters. The one rule that looks
beyond a letter is that of the capital sigma: it becomes `ς` where it ends a word.

* `toUpper`, `toLower` of one character, `uppercase`, `lowercase` of a text;
* `endsWord`: a cased letter before it and none after it, marks not counted;
* `capitalize`: the first letter of every word in upper case, the others in lower case.
-/

namespace Mustache.Text

/-- The other case of a character by a table, the character itself if it has none. -/
def otherCase (runs : List CaseRun) (expansions : List (Nat × List Nat)) (c : Char) : List Char :=
  match expansions.lookup c.toNat with
  | some letters => letters.map Char.ofNat
  | none =>
    match runs.findSome? (CaseRun.shift? · c.toNat) with
    | some n => [Char.ofNat n]
    | none => [c]

/-- The upper case of a character. -/
def toUpper (c : Char) : List Char := otherCase upperRuns upperExpansions c

/-- The lower case of a character, whatever stands around it. -/
def toLower (c : Char) : List Char := otherCase lowerRuns lowerExpansions c

/-- Whether the next character that is not a mark is a cased letter. -/
def casedNext (cs : List Char) : Bool :=
  match cs.dropWhile caseIgnorable.contains with
  | [] => false
  | c :: _ => cased.contains c

/-- Whether a letter ends its word, given what stands before it, in reverse order, and after it. -/
def endsWord (before after : List Char) : Bool := casedNext before && !casedNext after

/-- The lower case of the second text, which follows the reverse of the first. -/
def lowercaseAfter (before : List Char) : List Char → List Char
  | [] => []
  | c :: after =>
    (if c = 'Σ' then [if endsWord before after then 'ς' else 'σ'] else toLower c) ++
      lowercaseAfter (c :: before) after

/-- The text in lower case. -/
def lowercase (s : String) : String := String.ofList (lowercaseAfter [] s.toList)

/-- The text in upper case. -/
def uppercase (s : String) : String := String.ofList (s.toList.flatMap toUpper)

/-- The text with capital words; `start` tells whether a word starts here. -/
def capitalizeFrom (start : Bool) : List Char → List Char
  | [] => []
  | c :: cs =>
    if isBlank c then c :: capitalizeFrom true cs
    else (if start then toUpper c else toLower c) ++ capitalizeFrom false cs

/-- The text with the first letter of every word in upper case and the others in lower case. -/
def capitalize (s : String) : String := String.ofList (capitalizeFrom true s.toList)

end Mustache.Text
