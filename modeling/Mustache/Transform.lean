import Mustache.Text.Case
import Mustache.Value.Order

/-!
# Transforms

A tag can apply transforms to the value it names. A transform is chosen by its name and the kind
of the value; a kind that does not know the name, or a transform without a result, is a miss.

* one function for each kind: `ofText?`, `ofInt?`, `ofFloat?`, `ofSequence?`, `ofMap?`;
* `result?`, `chain?`: one transform, and a chain from the innermost to the outermost.
-/

namespace Mustache.Transform

/-- The transforms of texts. -/
def ofText? (s : String) : String → Option Value
  | "empty" => some (.bool s.isEmpty)
  | "count" => some (.int s.length)
  | "capitalized" => some (.text (Text.capitalize s))
  | "lowercased" => some (.text (Text.lowercase s))
  | "uppercased" => some (.text (Text.uppercase s))
  | "reversed" => some (.text (String.ofList s.toList.reverse))
  | _ => none

/-- An integer, unless it is out of range. -/
def inRange? (n : Int) : Option Value :=
  if Value.minInt ≤ n ∧ n ≤ Value.maxInt then some (.int n) else none

/-- The transforms of integers. -/
def ofInt? (n : Int) : String → Option Value
  | "equalzero" => some (.bool (n == 0))
  | "plusone" => inRange? (n + 1)
  | "minusone" => inRange? (n - 1)
  | "even" => some (.bool (n % 2 == 0))
  | "odd" => some (.bool (n % 2 != 0))
  | _ => none

/-- The transforms of numbers with a point. -/
def ofFloat? (x : Float) : String → Option Value
  | "equalzero" => some (.bool (x == 0.0))
  | "plusone" => some (.float (x + 1.0))
  | "minusone" => some (.float (x - 1.0))
  | _ => none

/-- The transforms of sequences. -/
def ofSequence? (items : List Value) : String → Found Value
  | "first" => .ofOption items.head?
  | "last" => .ofOption items.getLast?
  | "count" => .value (.int items.length)
  | "empty" => .value (.bool items.isEmpty)
  | "reversed" => .value (.sequence items.reverse)
  | "sorted" => (Value.sort? items).map .sequence
  | _ => .miss

/-- An entry of a map as a map of its key and its value. -/
def entry (e : String × Value) : Value := .map [("key", .text e.1), ("value", e.2)]

/-- The transforms of maps. Entries are enumerated in the order of their keys. -/
def ofMap? (entries : List (String × Value)) : String → Option Value
  | "count" => some (.int entries.length)
  | "empty" => some (.bool entries.isEmpty)
  | "enumerated" =>
    some (.sequence ((entries.mergeSort fun a b => decide (a.1 ≤ b.1)).map entry))
  | _ => none

/-- What a transform of a value comes to. -/
def result? (value : Value) (name : String) : Found Value :=
  match value with
  | .text s => .ofOption (ofText? s name)
  | .int n => .ofOption (ofInt? n name)
  | .float x => .ofOption (ofFloat? x name)
  | .sequence items => ofSequence? items name
  | .map entries => .ofOption (ofMap? entries name)
  | .object _ _ _ _ transform => .ofOption (transform name)
  | .null | .bool _ | .lambda _ _ => .miss

/-- What transforms of a value come to, the first name innermost; a miss ends the chain. -/
def chain? (value : Value) : List String → Found Value
  | [] => .value value
  | name :: names => (result? value name).bind fun value => chain? value names

end Mustache.Transform
