import Mustache.Tag

/-!
# Reading a template

A template is read from front to back. What has been read so far is a draft: the tokens of the
innermost body that is still open, and a frame for every tag that waits for its close tag. Each
step takes one line of text or one tag off the front.

A tag stands alone if nothing but spaces and tabs share its line. Unless it is an interpolation,
it then takes the whole line with it; blanks before a partial, a block or a parent are kept as its
indentation.

* `Frame`, `Draft`;
* `Draft.ahead`, `Draft.step`: the text up to a line feed or a tag, and that tag;
* `Draft.place`, `Draft.close`: what a tag adds;
* **`Draft.run`**: steps to the end of the text; every step has to make the text shorter.
-/

namespace Mustache

/-- A tag that waits for its close tag. -/
structure Frame where
  /-- What was opened. -/
  opening : Opening
  /-- The offset of the tag. -/
  start : Nat
  /-- The blanks before the tag on its line. -/
  blanks : List Char
  /-- Whether the tag stands alone. -/
  alone : Bool
  /-- The text from the start of the body. -/
  body : List Char
  /-- The tokens before the tag, the last one first. -/
  outer : List Token
  /-- The delimiters at the tag, which are those after its close tag. -/
  delimiters : Delimiters

/-- What has been read of a template. -/
structure Draft where
  /-- What is left. -/
  cursor : Cursor
  /-- Whether a line starts here, perhaps after blanks that are not yet read. -/
  lineStart : Bool
  delimiters : Delimiters
  /-- The tokens of the innermost open body, the last one first. -/
  tokens : List Token
  /-- The tags that are open, the innermost first. -/
  frames : List Frame

/-- The blocks that the body of a parent fills in, the last one of a name; nothing but blanks may
stand between them. -/
def Overrides.collect? (body : List Token) : Option Overrides :=
  body.foldlM
    (fun overrides token =>
      match token with
      | .definitionTag name body => some (Entries.put name body overrides)
      | token => if token.isBlank then some overrides else none)
    []

/-- Blanks as an indentation, which is never empty. -/
def indentation? (blanks : List Char) : Option String :=
  if blanks.isEmpty then none else some (String.ofList blanks)

namespace Draft

/-- The start of a template. -/
def start (d : Delimiters) (source : String) : Draft := ⟨.ofString source, true, d, [], []⟩

/-- Adds a token. -/
def push (s : Draft) (token : Token) : Draft := { s with tokens := token :: s.tokens }

/-- Adds a text unless it is empty. -/
def pushText (s : Draft) (text : List Char) : Draft :=
  if text.isEmpty then s else s.push (.text (String.ofList text))

/-- Goes on after a tag and what it takes of its line: if it stands alone, the blanks before it
and the end of its line; otherwise the blanks stay as text. -/
def leave (s : Draft) (blanks : List Char) (c : Cursor) : Draft :=
  match if s.lineStart then c.lineEnd? else none with
  | some c => { s with cursor := c, lineStart := true }
  | none => { s.pushText blanks with cursor := c, lineStart := false }

/-- Opens a tag. The blanks before a parent stay with it, since it may still turn out to stand
alone when it is closed. -/
def enter (s : Draft) (blanks : List Char) (start : Nat) (opening : Opening) (c : Cursor) : Draft :=
  let next := s.leave blanks c
  let isParent := match opening with
    | .parent _ => true
    | _ => false
  { next with
    lineStart := if isParent then s.lineStart else next.lineStart
    tokens := []
    frames :=
      { opening, start, blanks
        alone := next.lineStart
        body := next.cursor.rest
        outer := if isParent then s.tokens else next.tokens
        delimiters := s.delimiters } :: s.frames }

/-- Whether the innermost open tag is a parent. -/
def insideParent : List Frame → Bool
  | { opening := .parent _, .. } :: _ => true
  | _ => false

/-- The tokens that stand for a closed tag: the tag itself, and before it the blanks that a
parent held back if it does not stand alone. -/
def Frame.tokens? (f : Frame) (outer : List Frame) (raw : String) (body : List Token)
    (closedAlone : Bool) : Option (List Token) :=
  match f.opening with
  | .present expr => some [.sectionTag expr ⟨raw, f.delimiters⟩ body]
  | .absent expr => some [.invertedTag expr ⟨raw, f.delimiters⟩ body]
  | .block name =>
    if insideParent outer then some [.definitionTag name body]
    else some [.blockTag name body (if f.alone then indentation? f.blanks else none)]
  | .parent target =>
    (Overrides.collect? body).map fun overrides =>
      if f.alone || closedAlone then [.parentTag target (indentation? f.blanks) overrides]
      else
        .parentTag target none overrides ::
          (if f.blanks.isEmpty then [] else [.text (String.ofList f.blanks)])

/-- Closes the innermost open tag with a close tag at `tag`. -/
def close (s : Draft) (blanks : List Char) (tag : Cursor) (expr : Expression) (c : Cursor) :
    Except Fault Draft :=
  match s.frames with
  | [] => .error ⟨.mismatchedClose, tag.offset⟩
  | f :: outer =>
    if f.opening.closing ≠ expr then .error ⟨.mismatchedClose, tag.offset⟩
    else
      let next := s.leave blanks c
      let raw := String.ofList (f.body.take (f.body.length - tag.rest.length))
      match Frame.tokens? f outer raw next.tokens.reverse next.lineStart with
      | none => .error ⟨.strayInParent, f.start⟩
      | some tokens =>
        .ok { next with
          tokens := tokens ++ f.outer
          frames := outer
          delimiters := f.delimiters }

/-- Adds what the tag at `tag` stands for and goes on after it, at `c`. -/
def place (s : Draft) (blanks : List Char) (tag : Cursor) (t : Tag) (c : Cursor) :
    Except Fault Draft :=
  let next := s.leave blanks c
  match t with
  | .interpolation verbatim expr =>
    .ok { (s.pushText blanks).push (if verbatim then .verbatimTag expr else .variableTag expr) with
      cursor := c
      lineStart := false }
  | .opening opening => .ok (s.enter blanks tag.offset opening c)
  | .closing expr => s.close blanks tag expr c
  | .comment => .ok next
  | .inclusion target =>
    .ok (next.push (.partialTag target (if next.lineStart then indentation? blanks else none)))
  | .delimiters d => .ok { next with delimiters := d }
  | .pragma id => .ok (next.push (.pragmaTag id))

/-- The blanks that start a line, if one starts here, the text after them up to a line feed or a
tag, and the cursor at that place. -/
def ahead (s : Draft) : List Char × List Char × Cursor :=
  let (blanks, c) := if s.lineStart then s.cursor.take Text.isInlineBlank else ([], s.cursor)
  let (text, tag) := c.line s.delimiters.start.toList
  (blanks, text, tag)

/-- One step: the text up to a line feed with it, or the text up to a tag and the tag. -/
def step (types : ContentTypes) (s : Draft) : Except Fault Draft :=
  let (blanks, text, tag) := s.ahead
  match tag.rest with
  | [] => .ok { s.pushText (blanks ++ text) with cursor := tag }
  | '\n' :: _ =>
    .ok { s.pushText (blanks ++ text ++ ['\n']) with cursor := tag.tail, lineStart := true }
  | _ =>
    let c := (tag.after? s.delimiters.start.toList).getD tag
    match Tag.read types s.delimiters tag.offset c with
    | .error fault => .error fault
    | .ok (t, c) =>
      if text.isEmpty then s.place blanks tag t c
      else { s.pushText (blanks ++ text) with lineStart := false }.place [] tag t c

/-- **Reads to the end of the text**, where every tag has to be closed. -/
def run (types : ContentTypes) (s : Draft) : Except Fault Draft :=
  if s.cursor.rest.isEmpty then
    if s.frames.isEmpty then .ok s else .error ⟨.unclosedSection, s.cursor.offset⟩
  else
    match s.step types with
    | .error fault => .error fault
    | .ok next =>
      if next.cursor.rest.length < s.cursor.rest.length then next.run types
      else .error ⟨.unexpectedEnd, s.cursor.offset⟩
termination_by s.cursor.rest.length

end Draft

/-- The tokens of a template that starts with the given delimiters. -/
def Token.parseWith (d : Delimiters) (types : ContentTypes) (source : String) :
    Except ParseError (List Token) :=
  match (Draft.start d source).run types with
  | .ok s => .ok s.tokens.reverse
  | .error fault => .error (.locate source fault)

/-- The tokens of a template. -/
def Token.parse (types : ContentTypes) (source : String) : Except ParseError (List Token) :=
  Token.parseWith .standard types source

end Mustache
