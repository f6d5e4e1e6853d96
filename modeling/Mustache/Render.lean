import Mustache.Context
import Mustache.Transform
import Mustache.Value.Text

/-!
# Rendering

Rendering never fails for want of data: a name that is not found, a transform without a result and
an unknown template all have no text. But it need not end, since a template may include itself, so
it is given a depth. What has an output at one depth has it at every greater one. It may also come
upon values to sort whose comparison turns out to be no order.

* `resolve`: the value of an expression. The first part of a dotted name is looked up in the
  objects from the innermost outwards, the others within what was found;
* `append`: text joins the output, with the indentation in front if it starts a line;
* `renderToken`, `renderAll`: one token, and several in order, given how bodies are rendered;
* **`renderTokens`**: the tokens of a body or template, to a depth;
* `Template.render`, `Template.renderWith`, `Library.render?`.
-/

namespace Mustache

/-- Why a rendering has no output. -/
inductive Stop where
  /-- It went deeper than it may. -/
  | depth
  /-- It met the definition of a block outside of a parent. -/
  | strayDefinition
  /-- It was to sort values whose comparison is no order. -/
  | disorder
  deriving DecidableEq, Repr

/-- An output, with the calls of lambdas so far. -/
abbrev Rendered := Except Stop (String × Calls)

/-- How bodies and templates are rendered. -/
abbrev Renderer := List Token → Context → Calls → Rendered

/-! ## Looking up names -/

/-- The child of a name in the first of several objects that has one. -/
def climb (name : String) : List Value → Calls → Option Value × Calls
  | [], calls => (none, calls)
  | object :: objects, calls =>
    match object.child? name calls with
    | (some value, calls) => (some value, calls)
    | (none, calls) => climb name objects calls

/-- The child of a child and so on, strictly within a value. -/
def descend : List String → Value → Calls → Option Value × Calls
  | [], value, calls => (some value, calls)
  | name :: names, value, calls =>
    match value.child? name calls with
    | (some value, calls) => descend names value calls
    | (none, calls) => (none, calls)

/-- The parts of a dotted name. -/
def segments (name : List Char) : List String := (Text.pieces '.' name).map String.ofList

/-- The value of the name of an expression: `.` is the current object, no name at all the position
in the sequence, and a name after a dot is looked up in the current object only. -/
def resolveName (c : Context) (e : Expression) (calls : Calls) : Option Value × Calls :=
  if e.name = "." then (some c.top, calls)
  else if e.name = "" ∧ e.transforms ≠ [] then (c.position.map Position.object, calls)
  else
    match e.name.toList with
    | '.' :: inner => descend (segments inner) c.top calls
    | name =>
      match segments name with
      | [] => (none, calls)
      | first :: names =>
        match climb first (c.top :: c.below) calls with
        | (some value, calls) => descend names value calls
        | (none, calls) => (none, calls)

/-- **The value of an expression**, after its transforms. -/
def resolve (c : Context) (e : Expression) (calls : Calls) : Found Value × Calls :=
  match resolveName c e calls with
  | (some value, calls) => (Transform.chain? value e.transforms, calls)
  | (none, calls) => (.miss, calls)

/-! ## Joining text -/

/-- The output with text added. Text that starts a line is indented; no text adds nothing. -/
def append (output text : String) (indentation : Option String) : String :=
  if text.isEmpty then output
  else
    match indentation with
    | some blanks => if Text.endsLine output then output ++ blanks ++ text else output ++ text
    | none => output ++ text

/-- The text with an indentation before its first line, if there is one. -/
def indentFirst (indentation : Option String) (text : String) : String :=
  match indentation with
  | some blanks => if text.isEmpty then text else blanks ++ text
  | none => text

/-! ## Tokens, given how bodies are rendered -/

section

variable (go : Renderer)

/-- The text of an expression as `write` shows its value; a lambda is called with the empty
text. -/
def renderVariable (write : String → String) (e : Expression) (c : Context) (calls : Calls) :
    Rendered :=
  match resolve c e calls with
  | (.disorder, _) => .error .disorder
  | (.miss, calls) => .ok ("", calls)
  | (.value value, calls) =>
    match value.settle "" calls with
    | (value, calls) => .ok (if value.isNull then "" else write value.render, calls)

/-- A body for every element of a sequence, from the element at `index` on. -/
def renderElements (body : List Token) (c : Context) (length : Nat) :
    Nat → List Value → String → Calls → Rendered
  | _, [], output, calls => .ok (output, calls)
  | index, item :: items, output, calls =>
    match go body (c.withElement item ⟨index, length⟩) calls with
    | .error stop => .error stop
    | .ok (text, calls) =>
      renderElements body c length (index + 1) items (append output text c.indentation) calls

/-- The body of a section for a value that is not a lambda: once for every element of a sequence,
once within the same objects for `true`, not at all for what is falsy, and once around anything
else. -/
def renderPresent (value : Value) (body : List Token) (c : Context) (calls : Calls) : Rendered :=
  match value with
  | .sequence items => renderElements go body c items.length 0 items "" calls
  | .bool true => go body c calls
  | value => if value.isFalsy then .ok ("", calls) else go body (c.withObject value) calls

/-- The body of an inverted section for a value that is not a lambda: for an empty sequence, which
is entered, and for what is falsy. -/
def renderAbsent (value : Value) (body : List Token) (c : Context) (calls : Calls) : Rendered :=
  match value with
  | .sequence [] => go body (c.withObject value) calls
  | value => if value.isFalsy then go body c calls else .ok ("", calls)

/-- A section. A lambda is called with the text of the body; if it answers with a text, that is
compiled and rendered in place of the body, or nothing if it is no template. -/
def renderSection (e : Expression) (source : Source) (body : List Token) (c : Context)
    (calls : Calls) : Rendered :=
  match resolve c e calls with
  | (.disorder, _) => .error .disorder
  | (.miss, calls) => .ok ("", calls)
  | (.value (.lambda number answer), calls) =>
    match (Value.lambda number answer).settle source.raw calls with
    | (.text text, calls) =>
      match Token.parseWith source.delimiters c.contentTypes text with
      | .ok tokens => go tokens c calls
      | .error _ => .ok ("", calls)
    | (value, calls) => renderPresent go value body c calls
  | (.value value, calls) => renderPresent go value body c calls

/-- An inverted section. A lambda that answers with a text counts as present. -/
def renderInverted (e : Expression) (source : Source) (body : List Token) (c : Context)
    (calls : Calls) : Rendered :=
  match resolve c e calls with
  | (.disorder, _) => .error .disorder
  | (.miss, calls) => go body c calls
  | (.value (.lambda number answer), calls) =>
    match (Value.lambda number answer).settle source.raw calls with
    | (.text _, calls) => .ok ("", calls)
    | (value, calls) => renderAbsent go value body c calls
  | (.value value, calls) => renderAbsent go value body c calls

/-- A block: the body that fills it in, indented, or its own content. -/
def renderBlock (name : String) (default : List Token) (indentation : Option String) (c : Context)
    (calls : Calls) : Rendered :=
  match c.override? name with
  | some body =>
    (go body (c.withBlock indentation) calls).map fun (text, calls) =>
      (indentFirst indentation text, calls)
  | none => go default c calls

/-- The template of a name, indented. -/
def renderNamed (name : String) (indentation : Option String) (overrides : Overrides) (c : Context)
    (calls : Calls) : Rendered :=
  match c.library.bind (·.find? name) with
  | some t =>
    (go t.tokens (c.withPartial indentation overrides) calls).map fun (text, calls) =>
      (indentFirst indentation text, calls)
  | none => .ok ("", calls)

/-- The template that a tag names. A dynamic name has to resolve to a text. -/
def renderTarget (target : Target) (indentation : Option String) (overrides : Overrides)
    (c : Context) (calls : Calls) : Rendered :=
  if target.dynamic then
    match resolve c (.plain target.name) calls with
    | (.disorder, _) => .error .disorder
    | (.value (.text name), calls) => renderNamed go name indentation overrides c calls
    | (_, calls) => .ok ("", calls)
  else renderNamed go target.name indentation overrides c calls

/-- One token. -/
def renderToken (c : Context) : Token → Calls → Rendered
  | .text content, calls => .ok (content, calls)
  | .variableTag e, calls => renderVariable c.contentType.escape e c calls
  | .verbatimTag e, calls => renderVariable id e c calls
  | .sectionTag e source body, calls => renderSection go e source body c calls
  | .invertedTag e source body, calls => renderInverted go e source body c calls
  | .definitionTag _ _, _ => .error .strayDefinition
  | .blockTag name default indentation, calls => renderBlock go name default indentation c calls
  | .partialTag target indentation, calls => renderTarget go target indentation [] c calls
  | .parentTag target indentation overrides, calls =>
    renderTarget go target indentation overrides c calls
  | .pragmaTag _, calls => .ok ("", calls)

/-- Several tokens in order, after an output. A pragma counts for the tokens after it. -/
def renderAll (c : Context) (output : String) : List Token → Calls → Rendered
  | [], calls => .ok (output, calls)
  | .pragmaTag id :: tokens, calls => renderAll (c.withContentType id) output tokens calls
  | token :: tokens, calls =>
    match renderToken go c token calls with
    | .error stop => .error stop
    | .ok (text, calls) => renderAll c (append output text c.indentation) tokens calls

end

/-! ## Rendering to a depth -/

/-- **The output of tokens**, with bodies and templates nested to the depth at most. -/
def renderTokens : Nat → Renderer
  | 0, _, _, _ => .error .depth
  | depth + 1, tokens, c, calls => renderAll (renderTokens depth) c "" tokens calls

/-- The depth that is allowed where none is given. -/
def depthLimit : Nat := 100000

/-- A template on its own, where no other template can be named. -/
def Template.render (t : Template) (data : Value) (calls : Calls) : Rendered :=
  renderTokens depthLimit t.tokens (.root data t.contentTypes none) calls

/-- A template among those of a library, with the content types of the library. -/
def Template.renderWith (t : Template) (library : Library) (data : Value) (calls : Calls) :
    Rendered :=
  renderTokens depthLimit t.tokens (.root data library.contentTypes (some library)) calls

/-- The template of a name in a library. -/
def Library.render? (library : Library) (name : String) (data : Value) (calls : Calls) :
    Option Rendered :=
  (library.find? name).map fun t => t.renderWith library data calls

end Mustache
