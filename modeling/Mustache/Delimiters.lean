import Mustache.Text.Basic

/-!
# Delimiters

The two texts between which a tag stands. A template starts with `{{` and `}}` and can change them.

* `Delimiters`, with the standard pair as the default;
* `Delimiters.verbatimEnd`: what ends a tag in triple braces.
-/

namespace Mustache

/-- The texts that start and end a tag. -/
structure Delimiters where
  start : String
  stop : String
  deriving DecidableEq, Repr

namespace Delimiters

/-- The delimiters of a template that has not changed them. -/
def standard : Delimiters := ⟨"\x7b\x7b", "\x7d\x7d"⟩

instance : Inhabited Delimiters := ⟨standard⟩

/-- What ends a tag that starts with an opening brace: a closing brace and the end delimiter. -/
def verbatimEnd (d : Delimiters) : List Char := '}' :: d.stop.toList

end Delimiters

end Mustache
