/-!
# Runs of letters with one shift

Most letters differ from their other case by a shift that neighbouring letters share, so a case
table is a list of runs.

* `CaseRun`, `CaseRun.shift?`.
-/

namespace Mustache.Text

/-- The code points `first`, `first + step`, … up to `last`, whose other case is `offset` away. -/
structure CaseRun where
  first : Nat
  last : Nat
  step : Nat
  offset : Int

/-- The other case of a code point of the run. -/
def CaseRun.shift? (r : CaseRun) (n : Nat) : Option Nat :=
  if r.first ≤ n ∧ n ≤ r.last ∧ (n - r.first) % r.step = 0 then some (n + r.offset).toNat else none

end Mustache.Text
