import Mustache.Found
import Mustache.Sorting.Stable
import Mustache.Value.Basic

/-!
# Comparing and sorting values

Texts, truth values and numbers can be compared, each with their like. An integer is compared with
a number with a point as the double nearest to it; what is not a number compares with nothing.

* `Value.compare?`;
* `Value.sortBy?`: values sorted by a procedure; **`Value.sort?`**. While two values that have no
  order count as equal, the comparison need not be a total order; this may be noticed.
-/

namespace Mustache.Value

open Sorting

/-- The order of two doubles, unless one is not a number. -/
def compareFloat? (a b : Float) : Option Ordering :=
  if a < b then some .lt else if a == b then some .eq else if b < a then some .gt else none

/-- The order of two values of one kind. Texts are in order of their code points, which is that of
their UTF-8 bytes. -/
def compare? : Value → Value → Option Ordering
  | .text a, .text b => some (compare a b)
  | .bool a, .bool b => some (compare a b)
  | .int a, .int b => some (compare a b)
  | .int a, .float b => compareFloat? (Float.ofInt a) b
  | .float a, .int b => compareFloat? a (Float.ofInt b)
  | .float a, .float b => compareFloat? a b
  | _, _ => none

/-- The order of the values at two places. -/
def place? (values : Array Value) (i j : Fin values.size) : Option Ordering :=
  compare? values[i] values[j]

/-- The values as a procedure puts their places in order. They are missing if two of them that were
compared have no order. -/
def sortBy? (values : Array Value) (p : Procedure (Fin values.size) (List (Fin values.size))) :
    Found (List Value) :=
  match p.run (place? values) true with
  | some (places, true) => .value (places.map fun i => values[i])
  | some (_, false) => .miss
  | none => .disorder

/-- The values from the least to the greatest, equal ones as they were. -/
def sort? (items : List Value) : Found (List Value) :=
  sortBy? items.toArray (sort (List.finRange items.toArray.size))

end Mustache.Value
