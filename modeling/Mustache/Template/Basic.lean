import Mustache.Template.Draft

/-!
# Templates and libraries

A template is compiled once, against the content types that its pragmas may name. A library holds
templates by name and the content types they are rendered with.

* `Template`, `Template.compile`;
* `Library`: `register`, `registerSource`, `find?`, `contains`, `names`.
-/

namespace Mustache

/-- A compiled template and the content types it was compiled against. -/
structure Template where
  tokens : List Token
  contentTypes : ContentTypes

/-- The template of a source. -/
def Template.compile (types : ContentTypes) (source : String) : Except ParseError Template :=
  (Token.parse types source).map fun tokens => ⟨tokens, types⟩

/-- Templates by name, and the content types they are rendered with. -/
structure Library where
  templates : List (String × Template)
  contentTypes : ContentTypes

namespace Library

/-- A library without templates. -/
def empty (types : ContentTypes) : Library := ⟨[], types⟩

/-- The template of a name. -/
def find? (l : Library) (name : String) : Option Template := l.templates.lookup name

/-- Whether there is a template of the name. -/
def contains (l : Library) (name : String) : Bool := Entries.has name l.templates

/-- The names of the templates. -/
def names (l : Library) : List String := Entries.keys l.templates

/-- The library with a template added, in place of the one of its name. -/
def register (l : Library) (name : String) (t : Template) : Library :=
  { l with templates := Entries.put name t l.templates }

/-- A template is compiled from its source and added: what comes of it, and the library then. -/
def registerSource (l : Library) (name source : String) : Except ParseError Unit × Library :=
  match Template.compile l.contentTypes source with
  | .error fault => (.error fault, l)
  | .ok t => (.ok (), l.register name t)

end Library

end Mustache
