import Mustache.Expression.Lexeme

/-!
# Tag expressions

What a tag names: a name with the transforms applied to it, written as a name or as calls such as
`reversed(sorted(items))`. A call without an argument names the position in the sequence that is
being rendered.

* `Expression`;
* `Expression.ofLexemes?`: an expression at the front of the lexemes;
* `Expression.parse?`: the expression of a text. A text without parentheses is a name if it has no
  blank of any kind; in calls only the blanks of `Lexeme.isGap` separate names.
-/

namespace Mustache

/-- A name and the transforms applied to it, innermost first. -/
structure Expression where
  name : String
  transforms : List String
  deriving DecidableEq, Repr

namespace Expression

/-- A name without transforms. -/
def plain (name : String) : Expression := ⟨name, []⟩

/-- The expression with one more transform around it. -/
def call (transform : String) (e : Expression) : Expression :=
  ⟨e.name, e.transforms ++ [transform]⟩

/-- The expression at the front of the lexemes, and the lexemes after it: a name, optionally with
parentheses that hold an expression or nothing. -/
def ofLexemes? : List Lexeme → Option (Expression × List Lexeme)
  | .name f :: .opening :: .closing :: rest => some (⟨"", [f]⟩, rest)
  | .name f :: .opening :: rest =>
    match ofLexemes? rest with
    | some (e, .closing :: after) => some (e.call f, after)
    | _ => none
  | .name x :: rest => some (plain x, rest)
  | _ => none

/-- The expression that a text is. -/
def parse? (text : List Char) : Option Expression :=
  if text.any fun c => c == '(' || c == ')' then
    match ofLexemes? ((Lexeme.lex text).map Located.lexeme) with
    | some (e, []) => some e
    | _ => none
  else if text.any Text.isBlank then none
  else some (plain (String.ofList text))

end Expression

end Mustache
