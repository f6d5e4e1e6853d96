import Mustache.Text.Hexadecimal
import Mustache.Toml.Blank

/-!
# Quoted texts of TOML

A text stands between quotes, in which a backslash has a meaning, or between apostrophes, in which
it has none. Tripled, they hold a text of several lines; its first line end does not count, and
every other one reads as a line feed.

* `escape?`: what follows a backslash;
* `basic?`, `literal?`: texts of one line; `basicLines?`, `literalLines?`: of several lines;
* `text?`: the text at the front, and what follows it.
-/

namespace Mustache.Toml

/-- The character that an escape without its backslash stands for, and the number of characters
that it takes. -/
def escape? : List Char → Option (Char × Nat)
  | 'b' :: _ => some ('\x08', 1)
  | 't' :: _ => some ('\t', 1)
  | 'n' :: _ => some ('\n', 1)
  | 'f' :: _ => some ('\x0c', 1)
  | 'r' :: _ => some ('\r', 1)
  | '"' :: _ => some ('"', 1)
  | '\\' :: _ => some ('\\', 1)
  | 'u' :: rest => (Text.escaped? 4 rest).map fun c => (c, 5)
  | 'U' :: rest => (Text.escaped? 8 rest).map fun c => (c, 9)
  | _ => none

/-- A text up to its closing quote, after text that is given in reverse. -/
def basic? (read : List Char) : List Char → Option (String × List Char)
  | [] => none
  | '"' :: rest => some (String.ofList read.reverse, rest)
  | '\\' :: rest =>
    match escape? rest with
    | some (c, taken) => basic? (c :: read) (rest.drop taken)
    | none => none
  | c :: rest => if isPlain c then basic? (c :: read) rest else none
termination_by cs => cs.length
decreasing_by
  · simp only [List.length_drop, List.length_cons]
    omega
  · simp only [List.length_cons]
    omega

/-- A text up to its closing apostrophe. -/
def literal? (cs : List Char) : Option (String × List Char) :=
  let inside := fun c => isPlain c && c != '\''
  match cs.dropWhile inside with
  | '\'' :: rest => some (String.ofList (cs.takeWhile inside), rest)
  | _ => none

/-- The quotes at the end of a text of several lines: three that close it, after at most two that
belong to it. -/
def closing? (mark : Char) (cs : List Char) : Option (Nat × List Char) :=
  let marks := (cs.takeWhile (· == mark)).length
  if marks < 3 then none else some (min (marks - 3) 2, cs.drop (min marks 5))

/-- The text without the blanks and line ends before it. -/
def skipLines : List Char → List Char
  | ' ' :: rest => skipLines rest
  | '\t' :: rest => skipLines rest
  | '\n' :: rest => skipLines rest
  | '\r' :: '\n' :: rest => skipLines rest
  | cs => cs

/-- What follows a backslash at the end of a line: the blanks and line ends after it do not
count. -/
def continuation? (cs : List Char) : Option (List Char) :=
  (newline? (skipBlanks cs)).map skipLines

/-- A text of several lines up to its closing quotes, after text that is given in reverse. -/
def basicLines? : (count : Nat) → (read : List Char) → List Char → Option (String × List Char)
  | 0, _, _ => none
  | count + 1, read, cs =>
    match closing? '"' cs with
    | some (more, rest) => some (String.ofList (List.replicate more '"' ++ read).reverse, rest)
    | none =>
      match newline? cs with
      | some rest => basicLines? count ('\n' :: read) rest
      | none =>
        match cs with
        | [] => none
        | '\\' :: rest =>
          match continuation? rest with
          | some rest => basicLines? count read rest
          | none =>
            (escape? rest).bind fun (c, taken) => basicLines? count (c :: read) (rest.drop taken)
        | c :: rest => if isPlain c then basicLines? count (c :: read) rest else none

/-- A text of several lines up to its closing apostrophes, after text that is given in reverse. -/
def literalLines? : (count : Nat) → (read : List Char) → List Char → Option (String × List Char)
  | 0, _, _ => none
  | count + 1, read, cs =>
    match closing? '\'' cs with
    | some (more, rest) => some (String.ofList (List.replicate more '\'' ++ read).reverse, rest)
    | none =>
      match newline? cs with
      | some rest => literalLines? count ('\n' :: read) rest
      | none =>
        match cs with
        | [] => none
        | c :: rest => if isPlain c then literalLines? count (c :: read) rest else none

/-- The text without a line end at its front. -/
def dropNewline (cs : List Char) : List Char := (newline? cs).getD cs

/-- The quoted text at the front, of one line or of several. -/
def text? : List Char → Option (String × List Char)
  | '"' :: '"' :: '"' :: rest => basicLines? (rest.length + 1) [] (dropNewline rest)
  | '"' :: rest => basic? [] rest
  | '\'' :: '\'' :: '\'' :: rest => literalLines? (rest.length + 1) [] (dropNewline rest)
  | '\'' :: rest => literal? rest
  | _ => none

end Mustache.Toml
