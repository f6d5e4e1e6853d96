import Mustache.ContentType
import Mustache.Cursor
import Mustache.Fault
import Mustache.Text.Alphanumeric
import Mustache.Token

/-!
# Reading a tag

Between the delimiters a tag starts with a character that tells its kind, or with its name. This
module reads one tag on its own, without regard to what surrounds it.

* `Opening`: what is open until its close tag, and `Opening.closing`, what that has to repeat;
* `Tag`: the kinds of tags;
* the texts that tags accept: `expression?`, `closing?`, `target?`, `delimiters?`, `setting?`;
* **`Tag.read`**: the tag after a start delimiter. A fault lies at the start delimiter, or, for a
  malformed name, where the name starts.
-/

namespace Mustache

/-- What is open until its close tag. -/
inductive Opening where
  | present (expr : Expression)
  | absent (expr : Expression)
  | block (name : String)
  | parent (target : Target)
  deriving DecidableEq, Repr

/-- The expression that the close tag has to repeat. -/
def Opening.closing : Opening → Expression
  | present expr => expr
  | absent expr => expr
  | block name => .plain name
  | parent target => .plain target.closing

/-- A tag by itself. -/
inductive Tag where
  | interpolation (verbatim : Bool) (expr : Expression)
  | opening (opening : Opening)
  | closing (expr : Expression)
  | comment
  | inclusion (target : Target)
  | delimiters (delimiters : Delimiters)
  | pragma (contentType : String)
  deriving DecidableEq, Repr

namespace Tag

/-! ## The texts that tags accept -/

/-- The expression that a text names. A star is reserved for dynamic names. -/
def expression? (text : List Char) : Option Expression :=
  if text.contains '*' then none else Expression.parse? text

/-- The expression that the text of a close tag repeats, with the star of a dynamic parent in
front of the name. -/
def closing? : List Char → Option Expression
  | '*' :: text => (expression? (Text.trimStart text)).map fun e => ⟨"*" ++ e.name, e.transforms⟩
  | text => expression? text

/-- The name of a template: anything without blanks. -/
def target? (dynamic : Bool) (text : List Char) : Option Target :=
  if text.isEmpty || text.any Text.isBlank then none else some ⟨String.ofList text, dynamic⟩

/-- Two delimiters between equal signs, and the end of the tag. -/
def delimiters? (stop : List Char) (c : Cursor) : Option (Delimiters × Cursor) := do
  let (start, c) ← (c.skip Text.isBlank).upTo? Text.isBlank
  let (close, c) ← (c.skip Text.isBlank).upTo? fun ch => ch == '=' || Text.isBlank ch
  let c ← (c.skip Text.isBlank).after? ['=']
  let c ← c.after? stop
  if start.isEmpty || close.isEmpty || start.contains '=' then none
  else some (⟨String.ofList start, String.ofList close⟩, c)

/-- The name of a setting, a colon and its value, and the end of the tag. -/
def setting? (stop : List Char) (c : Cursor) : Option (List Char × List Char × Cursor) := do
  let (name, c) := (c.skip Text.isBlank).take fun ch => Text.isAlphanumeric ch || ch == '_'
  if name.isEmpty then none
  else
    let c ← (c.skip Text.isBlank).after? [':']
    let (value, c) :=
      (c.skip Text.isBlank).take fun ch => Text.isAlphanumeric ch || ch == '_' || ch == '-'
    if value.isEmpty then none
    else
      let c ← (c.skip Text.isBlank).after? stop
      some (name, value, c)

/-! ## Kinds of tags -/

/-- A tag of one text that ends at `stop`, read from the trimmed text; `place` is where it is at
fault if it does not end or its text is not accepted. -/
def readText {α : Type} (place : Nat) (accept : List Char → Option α) (stop : List Char)
    (c : Cursor) : Except Fault (α × Cursor) :=
  match c.through? stop with
  | none => .error ⟨.unfinishedName, place⟩
  | some (text, next) =>
    match accept (Text.trim text) with
    | none => .error ⟨.unfinishedName, place⟩
    | some a => .ok (a, next)

/-- The setting of a pragma, which has to be a content type that is registered. -/
def readPragma (types : ContentTypes) (stop : List Char) (start : Nat) (c : Cursor) :
    Except Fault (Tag × Cursor) :=
  match setting? stop c with
  | none => .error ⟨.malformedPragma, start⟩
  | some (name, value, next) =>
    if String.ofList name = "CONTENT_TYPE" && types.contains (String.ofList value) then
      .ok (.pragma (String.ofList value), next)
    else .error ⟨.unknownPragma, start⟩

/-- The opening of a block, whose name has no transforms. -/
def readBlock (stop : List Char) (start : Nat) (c : Cursor) : Except Fault (Tag × Cursor) :=
  match readText c.offset expression? stop c with
  | .error fault => .error fault
  | .ok (expr, next) =>
    if expr.transforms.isEmpty then .ok (.opening (.block expr.name), next)
    else .error ⟨.transformedBlock, start⟩

/-- The name of a template, dynamic if a star comes first. -/
def readTarget (stop : List Char) (start : Nat) (c : Cursor) : Except Fault (Target × Cursor) :=
  match c.after? ['*'] with
  | some c => readText start (target? true) stop c
  | none => readText start (target? false) stop c

/-- **The tag after the start delimiter**, which has the offset `start`, and the cursor after its
end delimiter. -/
def read (types : ContentTypes) (d : Delimiters) (start : Nat) (c : Cursor) :
    Except Fault (Tag × Cursor) :=
  let stop := d.stop.toList
  let name (c : Cursor) := readText c.offset expression? stop c
  match c.rest.head? with
  | some '#' => (name c.tail).map fun (e, c) => (.opening (.present e), c)
  | some '^' => (name c.tail).map fun (e, c) => (.opening (.absent e), c)
  | some '$' => readBlock stop start c.tail
  | some '/' => (readText c.tail.offset closing? stop c.tail).map fun (e, c) => (.closing e, c)
  | some '{' =>
    (readText c.tail.offset expression? d.verbatimEnd c.tail).map fun (e, c) =>
      (.interpolation true e, c)
  | some '&' => (name c.tail).map fun (e, c) => (.interpolation true e, c)
  | some '!' => (readText start (fun _ => some ()) stop c.tail).map fun (_, c) => (.comment, c)
  | some '>' => (readTarget stop start c.tail).map fun (t, c) => (.inclusion t, c)
  | some '<' => (readTarget stop start c.tail).map fun (t, c) => (.opening (.parent t), c)
  | some '=' =>
    match delimiters? stop c.tail with
    | none => .error ⟨.invalidDelimiters, start⟩
    | some (d, c) => .ok (.delimiters d, c)
  | some '%' => readPragma types stop start c.tail
  | _ => (name c).map fun (e, c) => (.interpolation false e, c)

end Tag

end Mustache
