import Mustache.Delimiters
import Mustache.Expression.Basic

/-!
# Tokens

A compiled template is a list of tokens, in which sections and blocks hold the tokens of their
bodies.

* `Token`, with `Source` for what the lambda of a section is given, `Target` for the template a
  partial or parent names, and `Override` for a block that a parent tag fills in;
* `Token.isBlank`: a text of blanks only.
-/

namespace Mustache

/-- The text a section body was compiled from, and the delimiters to compile such text with. -/
structure Source where
  raw : String
  delimiters : Delimiters
  deriving DecidableEq, Repr

/-- The template that a tag names, or, if the name is dynamic, the value that names it. -/
structure Target where
  name : String
  dynamic : Bool
  deriving DecidableEq, Repr

/-- The name that the close tag of a parent has to repeat. -/
def Target.closing (t : Target) : String := if t.dynamic then "*" ++ t.name else t.name

/-- A node of a compiled template. The indentation of a tag is there if it stands alone on an
indented line. -/
inductive Token where
  /-- Text that is copied, of one line at most. -/
  | text (content : String)
  /-- A value, escaped. -/
  | variableTag (expr : Expression)
  /-- A value as it is. -/
  | verbatimTag (expr : Expression)
  /-- A body for every element of a value, or for a value that is present. -/
  | sectionTag (expr : Expression) (source : Source) (body : List Token)
  /-- A body for a value that is absent. -/
  | invertedTag (expr : Expression) (source : Source) (body : List Token)
  /-- A block inside a parent tag: what fills the block of its name. -/
  | definitionTag (name : String) (body : List Token)
  /-- A block elsewhere, with the content it has unless it is filled in. -/
  | blockTag (name : String) (default : List Token) (indentation : Option String)
  /-- Another template. -/
  | partialTag (target : Target) (indentation : Option String)
  /-- Another template with some of its blocks filled in. -/
  | parentTag (target : Target) (indentation : Option String)
      (overrides : List (String × List Token))
  /-- A change of content type. -/
  | pragmaTag (contentType : String)

/-- The bodies that fill in blocks, by the name of the block. -/
abbrev Overrides := List (String × List Token)

namespace Token

/-- Whether the token is a text of blanks only. -/
def isBlank : Token → Bool
  | .text content => content.toList.all Text.isBlank
  | _ => false

end Token

end Mustache
