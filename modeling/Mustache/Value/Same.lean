import Mustache.Value.Basic

/-!
# Equality of values

Values of one kind are compared by content, lambdas and host objects by identity. Numbers with a
point are equal as numbers: what is not a number differs from itself, and both zeros are equal.

* `Value.same`, `Value.sameAll`, `Value.sameEntries`.
-/

namespace Mustache.Value

mutual

/-- Whether two values are equal. -/
def same : Value → Value → Bool
  | .null, .null => true
  | .bool a, .bool b => a == b
  | .int a, .int b => a == b
  | .float a, .float b => a == b
  | .text a, .text b => a == b
  | .sequence a, .sequence b => sameAll a b
  | .map a, .map b => a.length == b.length && sameEntries a b
  | .lambda a _, .lambda b _ => a == b
  | .object a _ _ _ _, .object b _ _ _ _ => a == b
  | _, _ => false

/-- Whether two lists hold equal values in the same order. -/
def sameAll : List Value → List Value → Bool
  | [], [] => true
  | a :: as, b :: bs => same a b && sameAll as bs
  | _, _ => false

/-- Whether each entry of the first list has an equal one in the second. -/
def sameEntries : List (String × Value) → List (String × Value) → Bool
  | [], _ => true
  | (name, a) :: as, bs =>
    (match bs.lookup name with
      | some b => same a b
      | none => false) && sameEntries as bs

end

end Mustache.Value
