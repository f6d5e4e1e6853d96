import Mustache.Json.Lexeme

/-!
# JSON documents

* `items?`, `members?`: what stands between brackets and between braces, given how one value is
  read;
* `value?`: a value at the front of the lexemes, with values nested to a depth;
* `decode?`: the value of a document.
-/

namespace Mustache.Json

section

variable (value? : List Lexeme → Option (Value × List Lexeme))

/-- The items of a sequence and its closing bracket, with at most `count` of them. -/
def items? : (count : Nat) → List Lexeme → Option (List Value × List Lexeme)
  | 0, _ => none
  | count + 1, lexemes =>
    match value? lexemes with
    | some (v, .comma :: rest) => (items? count rest).map fun (vs, rest) => (v :: vs, rest)
    | some (v, .closeBracket :: rest) => some ([v], rest)
    | _ => none

/-- The members of a map and its closing brace, with at most `count` of them. -/
def members? : (count : Nat) → List Lexeme → Option (List (String × Value) × List Lexeme)
  | 0, _ => none
  | count + 1, .text name :: .colon :: lexemes =>
    match value? lexemes with
    | some (v, .comma :: rest) =>
      (members? count rest).map fun (vs, rest) => ((name, v) :: vs, rest)
    | some (v, .closeBrace :: rest) => some ([(name, v)], rest)
    | _ => none
  | _ + 1, _ => none

end

/-- A value in which sequences and maps are nested to a depth at most. The last member of a name
counts. -/
def value? : (depth : Nat) → List Lexeme → Option (Value × List Lexeme)
  | _, .text s :: rest => some (.text s, rest)
  | _, .word v :: rest => some (v, rest)
  | _ + 1, .openBracket :: .closeBracket :: rest => some (.sequence [], rest)
  | depth + 1, .openBracket :: rest =>
    (items? (value? depth) rest.length rest).map fun (vs, rest) => (.sequence vs, rest)
  | _ + 1, .openBrace :: .closeBrace :: rest => some (.map [], rest)
  | depth + 1, .openBrace :: rest =>
    (members? (value? depth) rest.length rest).map fun (vs, rest) =>
      (.map (Entries.putAll vs []), rest)
  | _, _ => none

/-- How deep values may be nested. -/
def maxDepth : Nat := 127

/-- **The value of a document**: one value and nothing after it. -/
def decode? (text : String) : Option Value :=
  match (Lexeme.lex? text.toList).bind (value? maxDepth) with
  | some (v, []) => some v
  | _ => none

end Mustache.Json
