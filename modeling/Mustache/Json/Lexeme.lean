import Mustache.Json.Number
import Mustache.Text.Hexadecimal

/-!
# Lexemes of JSON

* `Lexeme`: punctuation, quoted text, and the values that are single words;
* `quoted?`: a text up to its closing quote, with its escapes replaced;
* `Lexeme.lex?`: the lexemes of a text.
-/

namespace Mustache.Json

/-- A piece of JSON. -/
inductive Lexeme where
  | openBrace
  | closeBrace
  | openBracket
  | closeBracket
  | comma
  | colon
  | text (s : String)
  | word (value : Value)

/-- The characters that a backslash and a letter stand for. -/
def escapes : List (Char × Char) :=
  [('"', '"'), ('\\', '\\'), ('/', '/'), ('b', '\x08'), ('f', '\x0c'), ('n', '\n'), ('r', '\r'),
    ('t', '\t')]

/-- Whether a code unit is the first of a pair. -/
def isHighSurrogate (n : Nat) : Bool := 0xD800 ≤ n && n < 0xDC00

/-- Whether a code unit is the second of a pair. -/
def isLowSurrogate (n : Nat) : Bool := 0xDC00 ≤ n && n < 0xE000

/-- The character of a pair of code units. -/
def ofSurrogates (high low : Nat) : Char :=
  Char.ofNat (0x10000 + (high - 0xD800) * 0x400 + (low - 0xDC00))

/-- The text up to the closing quote, after text that is given in reverse. Control characters have
to be escaped, and code units above the basic plane come in pairs. -/
def quoted? (read : List Char) : List Char → Option (String × List Char)
  | [] => none
  | '"' :: rest => some (String.ofList read.reverse, rest)
  | '\\' :: 'u' :: a :: b :: c :: d :: rest =>
    match Text.hexadecimal? [a, b, c, d] with
    | none => none
    | some n =>
      if isLowSurrogate n then none
      else if isHighSurrogate n then
        match rest with
        | '\\' :: 'u' :: a :: b :: c :: d :: rest =>
          match Text.hexadecimal? [a, b, c, d] with
          | none => none
          | some low =>
            if isLowSurrogate low then quoted? (ofSurrogates n low :: read) rest else none
        | _ => none
      else quoted? (Char.ofNat n :: read) rest
  | '\\' :: c :: rest =>
    match escapes.lookup c with
    | some escaped => quoted? (escaped :: read) rest
    | none => none
  | c :: rest => if c.toNat < 0x20 then none else quoted? (c :: read) rest

/-- The blanks of JSON. -/
def isSpace (c : Char) : Bool := c == ' ' || c == '\n' || c == '\t' || c == '\r'

/-- The characters of numbers and of the words `true`, `false` and `null`. -/
def inWord (c : Char) : Bool := c.isAlphanum || c == '-' || c == '+' || c == '.'

/-- The value of a word. -/
def word? (cs : List Char) : Option Value :=
  match String.ofList cs with
  | "null" => some .null
  | "true" => some (.bool true)
  | "false" => some (.bool false)
  | _ => number? cs

namespace Lexeme

/-- A single character that is a lexeme. -/
def ofChar? : Char → Option Lexeme
  | '\x7b' => some .openBrace
  | '\x7d' => some .closeBrace
  | '[' => some .openBracket
  | ']' => some .closeBracket
  | ',' => some .comma
  | ':' => some .colon
  | _ => none

/-- The lexeme at the front of a text that starts with `c`, and the text after it. -/
def first? (c : Char) (rest : List Char) : Option (Lexeme × List Char) :=
  match ofChar? c with
  | some lexeme => some (lexeme, rest)
  | none =>
    if c = '"' then (quoted? [] rest).map fun (s, rest) => (Lexeme.text s, rest)
    else
      (word? (c :: rest.takeWhile inWord)).map fun value => (.word value, rest.dropWhile inWord)

/-- The lexemes of a text, of which at most `count` are read. -/
def upTo? : (count : Nat) → List Char → Option (List Lexeme)
  | 0, _ => some []
  | count + 1, cs =>
    match cs.dropWhile isSpace with
    | [] => some []
    | c :: rest => (first? c rest).bind fun (lexeme, rest) => (upTo? count rest).map (lexeme :: ·)

/-- The lexemes of a text; each of them takes a character at least. -/
def lex? (cs : List Char) : Option (List Lexeme) := upTo? cs.length cs

end Lexeme

end Mustache.Json
