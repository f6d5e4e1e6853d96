import Mustache.Template.Basic
import Mustache.Value.Basic

/-!
# Contexts

What a token is rendered in: the objects that names are looked up in, the position in a sequence,
the indentation of lines, the blocks that are filled in and the content type. A context is never
changed; entering a section, a template or a block makes a new one from it.

* `Position`: where an element stands in its sequence, and `Position.object`, which answers for it;
* `Context`, `Context.root`, `Context.stack`;
* `withObject`, `withElement`, `withPartial`, `withBlock`, `withContentType`.
-/

namespace Mustache

/-- Where an element stands in a sequence. -/
structure Position where
  index : Nat
  length : Nat
  deriving DecidableEq, Repr

namespace Position

/-- Whether the element is the first. -/
def isFirst (p : Position) : Bool := p.index == 0

/-- Whether the element is the last. -/
def isLast (p : Position) : Bool := p.index + 1 == p.length

/-- What a position answers to a transform. -/
def transform (p : Position) : String → Option Value
  | "first" => some (.bool p.isFirst)
  | "last" => some (.bool p.isLast)
  | "index" => some (.int p.index)
  | "even" => some (.bool (p.index % 2 == 0))
  | "odd" => some (.bool (p.index % 2 == 1))
  | _ => none

/-- The position as a value, which answers to transforms only. -/
def object (p : Position) : Value :=
  .object 0 ⟨none, false⟩ (fun _ => none) (fun _ => none) p.transform

end Position

/-- What a token is rendered in. -/
structure Context where
  /-- The object that was entered last. -/
  top : Value
  /-- The objects around it, the innermost first. -/
  below : List Value
  /-- The position of `top`, if it is an element of a sequence. -/
  position : Option Position
  /-- What every further line of a template or block starts with. -/
  indentation : Option String
  overrides : Overrides
  contentType : ContentType
  contentTypes : ContentTypes
  library : Option Library

namespace Context

/-- The context of a template as a whole. -/
def root (data : Value) (types : ContentTypes) (library : Option Library) : Context where
  top := data
  below := []
  position := none
  indentation := none
  overrides := []
  contentType := types.defaultType
  contentTypes := types
  library := library

/-- The objects, the outermost first. -/
def stack (c : Context) : List Value := (c.top :: c.below).reverse

/-- The body that fills in a block. -/
def override? (c : Context) (name : String) : Option (List Token) := c.overrides.lookup name

/-- An object around the context; any sequence is left. -/
def withObject (c : Context) (value : Value) : Context :=
  { c with top := value, below := c.top :: c.below, position := none }

/-- The element of a sequence. -/
def withElement (c : Context) (value : Value) (position : Position) : Context :=
  { c with top := value, below := c.top :: c.below, position := some position }

/-- Two indentations, one inside the other. -/
def joinIndentation : Option String → Option String → Option String
  | some outer, some inner => some (outer ++ inner)
  | some outer, none => some outer
  | none, inner => inner

/-- Another template: its indentation adds up, blocks that are filled in stay so, and the content
type starts again with the default. -/
def withPartial (c : Context) (indentation : Option String) (overrides : Overrides) : Context :=
  { c with
    position := none
    indentation := joinIndentation c.indentation indentation
    overrides := Entries.fill c.overrides overrides
    contentType := c.contentTypes.defaultType }

/-- A block that is filled in. -/
def withBlock (c : Context) (indentation : Option String) : Context :=
  { c with indentation := joinIndentation c.indentation indentation }

/-- Another content type; an unknown one changes nothing. -/
def withContentType (c : Context) (id : String) : Context :=
  match c.contentTypes.find? id with
  | some type => { c with contentType := type }
  | none => c

end Context

end Mustache
