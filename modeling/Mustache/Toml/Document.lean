import Mustache.Toml.Quoted
import Mustache.Toml.Table
import Mustache.Toml.Word

/-!
# TOML documents

* `key?`: a key, simple or dotted;
* `value?`: a value at the front of a text, with arrays and inline tables nested to a depth;
* `Statement`, and `statement?`: a header, or a key with its value;
* `Document`, `Document.run?`: one statement after another;
* `decode?`: the value of a document.
-/

namespace Mustache.Toml

/-! ## Keys -/

/-- How deep values may be nested, and how many parts a key may have. -/
def maxDepth : Nat := 79

/-- The characters of a key without quotes. -/
def inKey (c : Char) : Bool := c.isAlphanum || c == '-' || c == '_'

/-- One part of a key. -/
def part? : List Char → Option (String × List Char)
  | '"' :: rest => basic? [] rest
  | '\'' :: rest => literal? rest
  | cs =>
    let name := cs.takeWhile inKey
    if name.isEmpty then none else some (String.ofList name, cs.dropWhile inKey)

/-- The parts of a key, of which there are at most `count`, with points between them. -/
def parts? : (count : Nat) → List Char → Option (List String × List Char)
  | 0, _ => none
  | count + 1, cs =>
    (part? (skipBlanks cs)).bind fun (name, rest) =>
      match skipBlanks rest with
      | '.' :: rest => (parts? count rest).map fun (names, rest) => (name :: names, rest)
      | rest => some ([name], rest)

/-- A key: the names of the tables on its path, its last name, and what follows. -/
def key? (cs : List Char) : Option (List String × String × List Char) :=
  (parts? maxDepth cs).bind fun (names, rest) =>
    names.getLast?.map fun name => (names.dropLast, name, rest)

/-! ## Values -/

section

variable (value? : List Char → Option (Value × List Char))

/-- The items of an array and its closing bracket, with at most `count` of them. A comma may
follow the last one. -/
def items? : (count : Nat) → List Char → Option (List Value × List Char)
  | 0, _ => none
  | count + 1, cs =>
    match gap cs.length cs with
    | ']' :: rest => some ([], rest)
    | cs =>
      (value? cs).bind fun (v, rest) =>
        match gap rest.length rest with
        | ',' :: rest => (items? count rest).map fun (vs, rest) => (v :: vs, rest)
        | ']' :: rest => some ([v], rest)
        | _ => none

/-- A key, an equals sign and a value. -/
def assignment? (cs : List Char) : Option (List String × String × Value × List Char) :=
  (key? cs).bind fun (path, name, rest) =>
    match rest with
    | '=' :: rest => (value? (skipBlanks rest)).map fun (v, rest) => (path, name, v, rest)
    | _ => none

/-- The entries of an inline table and its closing brace, with at most `count` of them. -/
def entries? : (count : Nat) → Table → List Char → Option (Table × List Char)
  | 0, _, _ => none
  | count + 1, t, cs =>
    (assignment? value? cs).bind fun (path, name, v, rest) =>
      (t.assign? [] path name v).bind fun t =>
        match skipBlanks rest with
        | ',' :: rest => entries? count t rest
        | '\x7d' :: rest => some (t, rest)
        | _ => none

end

/-- A value at the front of a text, with arrays and inline tables nested to a depth at most. -/
def value? : (depth : Nat) → List Char → Option (Value × List Char)
  | _, '"' :: rest => (text? ('"' :: rest)).map fun (s, rest) => (.text s, rest)
  | _, '\'' :: rest => (text? ('\'' :: rest)).map fun (s, rest) => (.text s, rest)
  | depth + 1, '[' :: rest =>
    (items? (value? depth) (rest.length + 1) rest).map fun (vs, rest) => (.sequence vs, rest)
  | depth + 1, '\x7b' :: rest =>
    match skipBlanks rest with
    | '\x7d' :: rest => some (.map [], rest)
    | rest =>
      (entries? (value? depth) (rest.length + 1) [] rest).map fun (t, rest) => (t.value, rest)
  | _, cs => word? cs

/-! ## Statements -/

/-- A line of a document that says something. -/
inductive Statement where
  | table (path : List String) (name : String)
  | tables (path : List String) (name : String)
  | assignment (path : List String) (name : String) (v : Value)

/-- The statement at the front of a text, and what follows it on its line. -/
def statement? : List Char → Option (Statement × List Char)
  | '[' :: '[' :: rest =>
    (key? rest).bind fun (path, name, rest) =>
      match rest with
      | ']' :: ']' :: rest => some (.tables path name, rest)
      | _ => none
  | '[' :: rest =>
    (key? rest).bind fun (path, name, rest) =>
      match rest with
      | ']' :: rest => some (.table path name, rest)
      | _ => none
  | cs =>
    (assignment? (value? maxDepth) cs).map fun (path, name, v, rest) =>
      (.assignment path name v, rest)

/-- The tables of a document, and the path of the last header. -/
structure Document where
  root : Table
  header : List String

namespace Document

/-- The document after one more statement. -/
def add? (d : Document) : Statement → Option Document
  | .table path name => (d.root.define? path name).map fun root => ⟨root, path ++ [name]⟩
  | .tables path name => (d.root.append? path name).map fun root => ⟨root, path ++ [name]⟩
  | .assignment path name v =>
    (d.root.assign? d.header path name v).map fun root => { d with root := root }

/-- The document after the statements of a text, of which at most `count` lines are read. -/
def run? : (count : Nat) → Document → List Char → Option Document
  | 0, d, cs => if cs.isEmpty then some d else none
  | count + 1, d, cs =>
    if (skipBlanks cs).isEmpty then some d
    else
      match lineEnd? cs with
      | some rest => run? count d rest
      | none =>
        (statement? (skipBlanks cs)).bind fun (s, rest) =>
          (d.add? s).bind fun d => (lineEnd? rest).bind fun rest => run? count d rest

end Document

/-- The text without a byte order mark before it. -/
def dropMark : List Char → List Char
  | '\uFEFF' :: rest => rest
  | cs => cs

/-- **The value of a document.** -/
def decode? (text : String) : Option Value :=
  let cs := dropMark text.toList
  (Document.run? cs.length ⟨[], []⟩ cs).map fun d => d.root.value

end Mustache.Toml
