import Mustache.Proofs.Render.Depth

/-!
# Rendering with lambdas that do not count their calls

How often steady lambdas have been called before does not show in an output. So a piece of a
template can be rendered by itself, whatever the pieces in front of it have called.

* `Rendered.text`: an output without the calls; `Rendered.Same`: the same output after related
  calls, `Rendered.Follows`: the same, unless the first stopped at the depth;
* `Context.Steady`: no lambda of some numbers in its objects counts its calls;
* **`renderTokens_steady`**, **`renderTokens_follows`**.
-/

namespace Mustache

open Calls

/-! ## Outputs -/

namespace Rendered

/-- The output, whatever has been called. -/
def text (r : Rendered) : Except Stop String := r.map Prod.fst

/-- The same output after related calls, or the same end. -/
inductive Same (K : Calls → Calls → Prop) : Rendered → Rendered → Prop
  | ok {text : String} {calls calls' : Calls} (h : K calls calls') :
    Same K (.ok (text, calls)) (.ok (text, calls'))
  | error (stop : Stop) : Same K (.error stop) (.error stop)

/-- The same output after related calls, unless the first stopped at the depth. -/
def Follows (K : Calls → Calls → Prop) (r r' : Rendered) : Prop := r ≠ .error .depth → Same K r r'

variable {K : Calls → Calls → Prop} {r r' : Rendered} {f f' : String × Calls → Rendered}

theorem Same.text_eq (h : Same K r r') : r'.text = r.text := by
  cases h <;> rfl

theorem Same.composes (K : Calls → Calls → Prop) : Composes K (Same K) where
  ok := .ok
  stop _ := .error _
  bind h hf := by
    cases h with
    | ok hk => exact hf _ hk
    | error stop => exact .error stop

theorem Follows.composes (K : Calls → Calls → Prop) : Composes K (Follows K) where
  ok hk _ := .ok hk
  stop _ _ := .error _
  bind h hf := by
    intro hne
    cases h (by rintro rfl; exact hne rfl) with
    | ok hk => exact hf _ hk hne
    | error stop => exact .error stop

/-- What comes to an end has the same output as what follows it. -/
theorem Follows.text_eq (h : Follows K r r') (hne : r.text ≠ .error .depth) : r'.text = r.text :=
  (h (by rintro rfl; exact hne rfl)).text_eq

end Rendered

open Rendered

/-! ## Contexts -/

variable {p : Nat → Prop} {c : Context} {calls calls' : Calls}

/-- No lambda of the numbers counts its calls, wherever it occurs in the objects. -/
def Context.Steady (p : Nat → Prop) (c : Context) : Prop :=
  ∀ v ∈ c.top :: c.below, v.Everywhere (Value.Steady p)

theorem Context.Steady.regular (hc : c.Steady p) : c.Regular (EqualBut p) where
  resolve e _ _ hk := Value.Steady.resolve hc hk e
  settle h input _ _ hk := by
    have hv := (Value.stable_steady p).resolve hc (congrArg Prod.fst h)
    exact Value.Steady.settle hv hk input

theorem Token.Visits.steady {t : Token} {tokens : List Token} {c' : Context}
    (h : t.Visits c tokens c') (hc : c.Steady p) : c'.Steady p :=
  h.values (Value.stable_steady p) hc

/-- **What is rendered does not show how often steady lambdas have been called**, to every depth. -/
theorem renderTokens_steady (hc : c.Steady p) (depth : Nat) (tokens : List Token)
    (hk : EqualBut p calls calls') :
    Same (EqualBut p) (renderTokens depth tokens c calls) (renderTokens depth tokens c calls') := by
  induction depth generalizing tokens c calls calls' with
  | zero => exact .error .depth
  | succ depth ih =>
    refine renderAll_relate (Same.composes _) hc.regular
      (fun t ht type body c' hv calls calls' hk => ?_) "" hk
    have hc' : c'.Steady p := hv.steady hc
    exact ih hc' body hk

/-- **A greater depth**, after other calls of steady lambdas. -/
theorem renderTokens_follows (hc : c.Steady p) {depth depth' : Nat} (h : depth ≤ depth')
    (tokens : List Token) (hk : EqualBut p calls calls') :
    Follows (EqualBut p) (renderTokens depth tokens c calls)
      (renderTokens depth' tokens c calls') := by
  intro hne
  rw [← renderTokens_of_le h tokens c calls hne]
  exact renderTokens_steady hc depth' tokens hk

end Mustache
