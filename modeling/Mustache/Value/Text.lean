import Mustache.Decimal.Shortest
import Mustache.Value.Basic

/-!
# The text of a value

What a value contributes where it is interpolated. Sequences put a comma between their elements;
null, maps and lambdas have no text.

* `Value.render`, `Value.renderAll`.
-/

namespace Mustache.Value

mutual

/-- The text of a value. -/
def render : Value → String
  | .null => ""
  | .bool b => if b then "true" else "false"
  | .int n => toString n
  | .float x => Decimal.render x
  | .text s => s
  | .sequence items => ",".intercalate (renderAll items)
  | .map _ => ""
  | .lambda _ _ => ""
  | .object _ face _ _ _ => face.text.getD ""

/-- The texts of values. -/
def renderAll : List Value → List String
  | [] => []
  | item :: items => render item :: renderAll items

end

end Mustache.Value
