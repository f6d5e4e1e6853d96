import Mustache.Proofs.Text.Unbroken
import Mustache.Proofs.Value.Occurs

/-!
# Data without a line feed

* `Value.Unbroken`: no lambda, no host object, and no line feed in a text or a key;
* `Value.stable_unbroken`: transforms keep it so;
* **`Value.unbroken_render`**: the text of such a value has no line feed.
-/

namespace Mustache.Value

/-- A value that is neither a lambda nor a host object, with no line feed in its text or keys. -/
def Unbroken : Value → Prop
  | .text s => Text.Unbroken s.toList
  | .map entries => ∀ e ∈ entries, Text.Unbroken e.1.toList
  | .lambda _ _ => False
  | .object _ _ _ _ _ => False
  | _ => True

theorem stable_unbroken : Stable Unbroken where
  bool _ := trivial
  int _ := trivial
  float _ := trivial
  reversed _ := trivial
  sorted _ _ := trivial
  enumerated _ := trivial
  text {s name t} h ht := by
    unfold Transform.ofText? at ht
    split at ht
    · cases ht
    · cases ht
    · cases ht; exact Text.unbroken_capitalize h
    · cases ht; exact Text.unbroken_lowercase h
    · cases ht; exact Text.unbroken_uppercase h
    · cases ht
      show Text.Unbroken (String.ofList s.toList.reverse).toList
      rw [String.toList_ofList]
      exact Text.Unbroken.subset h fun _ => List.mem_reverse.mp
    · nomatch ht
  key h he := h _ he
  entry {entries e} _ _ := by
    intro e he
    simp only [List.mem_cons, List.not_mem_nil, or_false] at he
    obtain rfl | rfl := he
    · exact (by decide : Text.Unbroken "key".toList)
    · exact (by decide : Text.Unbroken "value".toList)

mutual

/-- **The text of a value without line feeds has none.** -/
theorem unbroken_render : (v : Value) → Everywhere Unbroken v → Text.Unbroken v.render.toList
  | .null, _ => by rw [render]; decide
  | .bool b, _ => by
    rw [render]
    cases b <;> decide
  | .int n, _ => by
    rw [render]
    exact Text.unbroken_int n
  | .float x, _ => by
    rw [render]
    exact Text.unbroken_decimal x
  | .text s, h => by
    rw [render]
    exact h.here
  | .sequence items, h => by
    rw [render]
    exact Text.unbroken_intercalate (by decide) (unbroken_renderAll items h.items)
  | .map entries, _ => by rw [render]; decide
  | .lambda number answer, _ => by rw [render]; decide
  | .object number face child property transform, h => h.here.elim

theorem unbroken_renderAll : (items : List Value) → (∀ v ∈ items, Everywhere Unbroken v) →
    ∀ s ∈ renderAll items, Text.Unbroken s.toList
  | [], _ => by
    rw [renderAll]
    exact nofun
  | item :: items, h => by
    obtain ⟨hi, his⟩ := List.forall_mem_cons.mp h
    rw [renderAll]
    exact List.forall_mem_cons.mpr ⟨unbroken_render item hi, unbroken_renderAll items his⟩

end

end Mustache.Value
