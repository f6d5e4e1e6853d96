import Mustache.Proofs.Render.Visits

/-!
# Rendering to greater depths

A rendering that does not stop at its depth has the same result at every greater one, since all it
does with bodies and templates is to use their results.

* `Rendered.Deepens`: the same result, unless the first stopped at the depth; `Deepens.bind`;
* `Renderer.Deepens`, **`renderTokens_deepens`**, **`renderTokens_of_le`**.
-/

namespace Mustache

/-- The second result is the same as the first, unless the first stopped at the depth. -/
def Rendered.Deepens (r r' : Rendered) : Prop := r ≠ .error .depth → r' = r

/-- A way to render bodies that may go deeper than another. -/
def Renderer.Deepens (go go' : Renderer) : Prop :=
  ∀ tokens c calls, Rendered.Deepens (go tokens c calls) (go' tokens c calls)

namespace Rendered

theorem Deepens.refl (r : Rendered) : Deepens r r := fun _ => rfl

theorem Deepens.trans {r r' r'' : Rendered} (h : Deepens r r') (h' : Deepens r' r'') :
    Deepens r r'' := by
  intro hne
  have he := h hne
  rw [← he] at hne
  rw [h' hne, he]

/-- **What goes on after a result** deepens if the result does. -/
theorem Deepens.bind {r r' : Rendered} {f f' : String × Calls → Rendered} (h : Deepens r r')
    (hf : ∀ x, Deepens (f x) (f' x)) : Deepens (r.bind f) (r'.bind f') := by
  intro hne
  cases r with
  | error stop =>
    have hstop : Except.error stop ≠ (Except.error Stop.depth : Rendered) := hne
    rw [h hstop]
    rfl
  | ok x =>
    rw [h nofun]
    exact hf x hne

theorem Deepens.compositional : Compositional Deepens where
  same _ := .refl _
  bind := .bind

end Rendered

/-- **One more level of depth** changes no result but that of stopping at the depth. -/
theorem renderTokens_deepens (depth : Nat) :
    (renderTokens depth).Deepens (renderTokens (depth + 1)) := by
  induction depth with
  | zero => exact fun _ _ _ hne => absurd rfl hne
  | succ depth ih =>
    exact fun tokens c calls =>
      renderAll_lift Rendered.Deepens.compositional (fun _ _ _ body c' _ => ih body c') "" calls

/-- **A rendering that does not stop at its depth** has its result at every greater one. -/
theorem renderTokens_of_le {depth depth' : Nat} (h : depth ≤ depth') :
    (renderTokens depth).Deepens (renderTokens depth') := by
  induction h with
  | refl => exact fun _ _ _ => Rendered.Deepens.refl _
  | step _ ih =>
    exact fun tokens c calls => (ih tokens c calls).trans (renderTokens_deepens _ _ _ _)

end Mustache
