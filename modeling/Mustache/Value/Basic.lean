import Mustache.Entries

/-!
# Values

The data that a template is rendered against. Beside plain data a value can be a lambda, which
answers a text with a value, or a host object, of which only its answers are known.

* `Value`, with `Face` for what a host object shows of itself;
* `Calls`: how often each lambda has been called so far. A lambda may answer each call in another
  way, so its answer depends on the number of earlier calls; copies of a lambda share its number
  and thereby its calls.
* `Value.child?`: the child of a name, `Value.settle`: a lambda followed to a value that is none.
-/

namespace Mustache

/-- What a host object shows of itself: its text, and whether it counts as null. -/
structure Face where
  text : Option String
  isNull : Bool
  deriving DecidableEq, Repr

/-- A value that templates are rendered against.

A lambda answers its `n`-th call (from 0) on a text; two lambdas are the same if their numbers
are. The same holds of host objects, which answer by name with a child, a property or the result
of a transform.

Two things are assumed of the host. An object is pure: it answers a name in the same way each time,
and so it is with its text. And values are well-founded: nobody gets on forever from a value to a
child, an answer or the result of a transform, as an object could that answers with itself. -/
inductive Value where
  | null
  | bool (b : Bool)
  | int (n : Int)
  | float (x : Float)
  | text (s : String)
  | sequence (items : List Value)
  | map (entries : List (String × Value))
  | lambda (number : Nat) (answer : Nat → String → Value)
  | object (number : Nat) (face : Face) (child property transform : String → Option Value)

/-- How often each lambda has been called, by its number. -/
abbrev Calls := List (Nat × Nat)

namespace Calls

/-- The calls of a lambda so far. -/
def count (calls : Calls) (number : Nat) : Nat := (calls.lookup number).getD 0

/-- The calls after one more of a lambda. -/
def bump (calls : Calls) (number : Nat) : Calls :=
  Entries.put number (calls.count number + 1) calls

end Calls

namespace Value

/-- The least and the greatest integer that a value holds. -/
def minInt : Int := -0x8000000000000000

/-- See `minInt`. -/
def maxInt : Int := 0x7FFFFFFFFFFFFFFF

/-- The value of an integer: one that is out of range becomes the nearest number with a point. -/
def ofInt (n : Int) : Value :=
  if minInt ≤ n ∧ n ≤ maxInt then .int n else .float (Float.ofInt n)

/-- The child of a name, and the calls after looking for it. A map answers from its entries, a
host object with a child or else a property, and a lambda with the child of its answer to the
empty text. -/
def child? (name : String) : Value → Calls → Option Value × Calls
  | .map entries, calls => (entries.lookup name, calls)
  | .object _ _ child property _, calls => ((child name).or (property name), calls)
  | .lambda number answer, calls =>
    child? name (answer (calls.count number) "") (calls.bump number)
  | _, calls => (none, calls)

/-- A lambda is called with the text, and its answer too if it is a lambda, down to a value that
is none. -/
def settle (input : String) : Value → Calls → Value × Calls
  | .lambda number answer, calls =>
    settle input (answer (calls.count number) input) (calls.bump number)
  | value, calls => (value, calls)

/-- Whether the value is null or a host object that counts as null. -/
def isNull : Value → Bool
  | .null => true
  | .object _ face _ _ _ => face.isNull
  | _ => false

/-- The text of a text value. -/
def text? : Value → Option String
  | .text s => some s
  | _ => none

/-- The values that a section takes for absent: null, false and zero. -/
def isFalsy : Value → Bool
  | .bool b => !b
  | .int n => n == 0
  | .float x => x == 0.0
  | value => value.isNull

end Value

end Mustache
