import Mustache.Yaml.Directive
import Mustache.Yaml.Lines
import Mustache.Yaml.Plain
import Mustache.Yaml.Quoted

/-!
# The layout of a document

Outside of brackets the columns decide where collections start and end: a deeper column opens one
and a lower column closes those that are deeper. A key shows only at the colon after it, so that a
layout remembers where a key may have started; then the mark of the key goes before the tokens
read since.

* `Candidate`: where a key may have started;
* `Layout`: the tokens read so far and what decides about the next one;
* `indent`, `outdent`, `outdentAll`: columns; `remember?`, `forget?`, `expire?`: keys;
* `token?`: the next token; **`Token.scan?`**: the tokens of a document.
-/

namespace Mustache.Yaml

/-- A place where a key may have started. -/
structure Candidate where
  /-- Whether there has to be a key, since nothing else may stand in this column. -/
  required : Bool
  /-- The number of tokens before the key. -/
  position : Nat
  left : Nat
  line : Nat
  column : Nat

/-- How many characters a key has at most. -/
def maxKeyLength : Nat := 1024

/-- Whether a key that started there would have ended before a place: it takes one line at
most. -/
def Candidate.isOver (k : Candidate) (p : Place) : Bool :=
  k.line < p.line || p.left + maxKeyLength < k.left

/-- A document that is read up to a place. -/
structure Layout where
  place : Place
  tokens : Array Token
  /-- The columns of the open block collections, from the innermost. -/
  columns : List Nat
  /-- Whether a key may start here. -/
  keyAllowed : Bool
  /-- Where the key may have started that a colon here would end. -/
  candidate : Option Candidate
  /-- The same around each open bracket, from the innermost. -/
  around : List (Option Candidate)

namespace Layout

/-- The start of a document. -/
def ofPlace (p : Place) : Layout := ⟨p, #[], [], true, none, []⟩

/-- Whether the place is within brackets. -/
def inFlow (l : Layout) : Bool := !l.around.isEmpty

/-- The layout with one more token that ends at a place. -/
def push (l : Layout) (token : Token) (next : Place) : Layout :=
  { l with tokens := l.tokens.push token, place := next }

/-- The layout with a mark of `n` characters added. -/
def pushMark (l : Layout) (m : Mark) (n : Nat) : Layout := l.push (.mark m) (l.place.past n)

/-! ## Columns -/

/-- A collection opens before the token of a position, if its column is deeper. -/
def indent (l : Layout) (m : Mark) (position column : Nat) : Layout :=
  if l.inFlow || !l.columns.head?.all (· < column) then l
  else
    { l with
      tokens := l.tokens.insertIdxIfInBounds position (.mark m)
      columns := column :: l.columns }

/-- A collection opens here, if this column is deeper. -/
def indentHere (l : Layout) (m : Mark) : Layout := l.indent m l.tokens.size l.place.column

/-- The open collections of a class are closed, from the innermost. -/
def close (l : Layout) (isClosed : Nat → Bool) : Layout :=
  if l.inFlow then l
  else
    let closed := l.columns.takeWhile isClosed
    { l with
      tokens := l.tokens ++ closed.map fun _ => Token.mark .blockEnd
      columns := l.columns.dropWhile isClosed }

/-- The deeper collections are closed. -/
def outdent (l : Layout) : Layout := l.close (l.place.column < ·)

/-- All collections are closed. -/
def outdentAll (l : Layout) : Layout := l.close fun _ => true

/-! ## Keys -/

/-- No key ends here. -/
def forget? (l : Layout) : Option Layout :=
  if l.candidate.any (·.required) then none else some { l with candidate := none }

/-- A key may start here, if any may. -/
def remember? (l : Layout) : Option Layout :=
  if l.keyAllowed then
    l.forget?.map fun l =>
      let p := l.place
      let required := !l.inFlow && l.columns.head? == some p.column
      { l with candidate := some ⟨required, l.tokens.size, p.left, p.line, p.column⟩ }
  else some l

/-- The keys that would have ended before this place are given up. -/
def expire? (l : Layout) : Option Layout :=
  let isOver := fun (k : Candidate) => k.isOver l.place
  if (l.candidate :: l.around).any (·.any fun k => k.required && isOver k) then none
  else
    let live := Option.filter fun k => !isOver k
    some { l with candidate := live l.candidate, around := l.around.map live }

/-! ## Between tokens -/

/-- The layout after blanks, comments and line breaks, of which at most `count` are passed. Tabs
count as blanks only where no key may start. -/
def skipGap : (count : Nat) → Layout → Layout
  | 0, l => l
  | count + 1, l =>
    let isBlank := fun c => c == ' ' || (c == '\t' && (l.inFlow || !l.keyAllowed))
    let next := (l.place.skip isBlank).pastComment
    match next.lineBreak? with
    | some (_, next) =>
      skipGap count { l with place := next, keyAllowed := l.keyAllowed || !l.inFlow }
    | none => { l with place := next }

/-- The layout at the next token, which may give up keys and close collections. -/
def settle? (l : Layout) : Option Layout :=
  ((l.skipGap (l.place.left + 1)).expire?).map outdent

/-! ## Marks -/

/-- A directive. -/
def directive? (l : Layout) : Option Layout :=
  l.outdentAll.forget?.bind fun l =>
    (Yaml.directive? l.place).map fun (token, next) =>
      { l.push token next with keyAllowed := false }

/-- The mark at the start or the end of a document. -/
def documentMark? (l : Layout) (m : Mark) : Option Layout :=
  l.outdentAll.forget?.map fun l => { l.pushMark m 3 with keyAllowed := false }

/-- An opening bracket. -/
def openFlow? (l : Layout) (m : Mark) : Option Layout :=
  l.remember?.map fun l =>
    { l.pushMark m 1 with keyAllowed := true, candidate := none, around := l.candidate :: l.around }

/-- A closing bracket. -/
def closeFlow? (l : Layout) (m : Mark) : Option Layout :=
  l.forget?.map fun l =>
    match l.around with
    | [] => { l.pushMark m 1 with keyAllowed := false }
    | k :: around => { l.pushMark m 1 with keyAllowed := false, candidate := k, around := around }

/-- A comma between brackets. -/
def comma? (l : Layout) : Option Layout :=
  l.forget?.map fun l => { l.pushMark .comma 1 with keyAllowed := true }

/-- A mark that opens a block collection unless one is open in this column. -/
def blockMark? (l : Layout) (opening m : Mark) (keyAllowed : Bool) : Option Layout :=
  if l.inFlow || l.keyAllowed then
    (l.indentHere opening).forget?.map fun l => { l.pushMark m 1 with keyAllowed := keyAllowed }
  else none

/-- A hyphen before an item. -/
def item? (l : Layout) : Option Layout :=
  if l.inFlow then none else l.blockMark? .blockSequence .item true

/-- A question mark before a key. -/
def key? (l : Layout) : Option Layout := l.blockMark? .blockMap .key !l.inFlow

/-- A colon before a value. If a key ends here, its mark goes before it. -/
def value? (l : Layout) : Option Layout :=
  match l.candidate with
  | some k =>
    let l := { l with tokens := l.tokens.insertIdxIfInBounds k.position (.mark .key) }
    let l := l.indent .blockMap k.position k.column
    some { l.pushMark .value 1 with candidate := none, keyAllowed := false }
  | none => l.blockMark? .blockMap .value !l.inFlow

/-! ## Names and texts -/

/-- A token that may start a key. -/
def keyStart? (l : Layout) (read? : Place → Option (Token × Place)) : Option Layout :=
  l.remember?.bind fun l =>
    (read? l.place).map fun (token, next) => { l.push token next with keyAllowed := false }

/-- What may follow the name of an anchor besides a gap. -/
def endsName (c : Char) : Bool := isGap c || "?:,]\x7d%@\x60".toList.contains c

/-- A name after the sign for an anchor or an alias. -/
def name? (token : String → Token) (p : Place) : Option (Token × Place) :=
  let (name, next) := (p.past 1).take inName
  if name.isEmpty ∨ !next.rest.head?.all endsName then none
  else some (token (String.ofList name), next)

/-- A quoted text. -/
def quoted? (mark : Char) (p : Place) : Option (Token × Place) :=
  (Yaml.quoted? mark p.left (p.past 1)).map fun (text, next) =>
    (.text (String.ofList text) false, next)

/-- The least column of what belongs to an item of the innermost block collection. -/
def leastColumn (l : Layout) : Nat := l.columns.head?.elim 0 (· + 1)

/-- A text of several lines. -/
def lines? (l : Layout) (folded : Bool) : Option Layout :=
  if l.inFlow then none
  else
    l.forget?.bind fun l =>
      (Yaml.lines? folded l.leastColumn (l.place.past 1)).map fun (text, next) =>
        { l.push (.text (String.ofList text) false) next with keyAllowed := true }

/-- A plain text. If a line ends after it, a key may start there. -/
def plain? (l : Layout) : Option Layout :=
  l.remember?.bind fun l =>
    (Yaml.plain? l.inFlow l.leastColumn (l.place.left + 1) .empty l.place).map
      fun (text, endsLine, next) =>
        { l.push (.text (String.ofList text) true) next with keyAllowed := endsLine }

/-! ## All tokens -/

/-- The next token. -/
def token? (l : Layout) : Option Layout :=
  let p := l.place
  match p.rest with
  | [] => none
  | c :: rest =>
    if p.column = 0 ∧ c = '%' then l.directive?
    else if p.isMark then l.documentMark? (if c = '-' then .documentStart else .documentEnd)
    else
      match c with
      | '[' => l.openFlow? .flowSequence
      | '\x7b' => l.openFlow? .flowMap
      | ']' => l.closeFlow? .flowSequenceEnd
      | '\x7d' => l.closeFlow? .flowMapEnd
      | ',' => l.comma?
      | '-' => if atGap rest then l.item? else l.plain?
      | '?' => if l.inFlow || atGap rest then l.key? else l.plain?
      | ':' => if l.inFlow || atGap rest then l.value? else l.plain?
      | '*' => l.keyStart? (name? .alias)
      | '&' => l.keyStart? (name? .anchor)
      | '!' => l.keyStart? fun p => (tagName? l.inFlow p).map fun (name, next) => (.tag name, next)
      | '|' => l.lines? false
      | '>' => l.lines? true
      | '\'' => l.keyStart? (quoted? c)
      | '"' => l.keyStart? (quoted? c)
      | c => if isGap c || "#%@\x60".toList.contains c then none else l.plain?

/-- All tokens, of which at most `count` are still to come. -/
def run? : (count : Nat) → Layout → Option (Array Token)
  | 0, _ => none
  | count + 1, l =>
    l.settle?.bind fun l =>
      if l.place.rest.isEmpty then l.outdentAll.forget?.map tokens
      else l.token?.bind (run? count)

end Layout

/-- The text after a byte order mark, if there is one. -/
def afterMark (p : Place) : Place := if p.rest.head? = some '\uFEFF' then p.past 1 else p

/-- **The tokens of a document.** Each of them takes a character at least. -/
def Token.scan? (cs : List Char) : Option (List Token) :=
  ((Layout.ofPlace (afterMark (Place.ofList cs))).run? (cs.length + 1)).map Array.toList

end Mustache.Yaml
