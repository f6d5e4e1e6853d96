import Mathlib
import Mustache.Config.Basic
import Mustache.Proofs.Render.Parts
import Mustache.Proofs.Render.Steady

/-!
# A section that is true can be left out

A section for `true` renders its body within the same objects. Then the output is the same if the
body stands there in place of the section, although a section is rendered by itself and joined as a
whole, and tokens are joined one by one.

* `follows_replaced`: other tokens in the middle; `renderTokens_section_true`;
* `Context.Renders`: how rendering comes to an end; **`renders_section_true`**.
-/

namespace Mustache

open Calls Rendered

/-! ## Other tokens in the middle -/

section

variable {p : Nat → Prop} {c : Context} {calls calls' : Calls} {depth depth' : Nat}
  {middle middle' : List Token}

/-- **Other tokens in the middle** of tokens that have the same output: then everything has. -/
theorem follows_replaced (hc : c.Steady p) (hdepth : depth ≤ depth') (before after : List Token)
    (hpast : (c.past before).past middle' = (c.past before).past middle)
    (h : ∀ {calls calls'}, EqualBut p calls calls' →
      Follows (EqualBut p) (renderTokens (depth + 1) middle (c.past before) calls)
        (renderTokens (depth' + 1) middle' (c.past before) calls'))
    (hk : EqualBut p calls calls') :
    Follows (EqualBut p) (renderTokens (depth + 1) (before ++ (middle ++ after)) c calls)
      (renderTokens (depth' + 1) (before ++ (middle' ++ after)) c calls') := by
  have compose := Follows.composes (EqualBut p)
  obtain ⟨type, hbefore⟩ := c.past_eq before
  obtain ⟨type', hmiddle⟩ := (c.past before).past_eq middle
  have hafter : ((c.past before).past middle).Steady p := by
    rw [hmiddle, hbefore]
    exact hc
  rw [renderTokens_append, renderTokens_append]
  refine compose.bind (renderTokens_follows hc (Nat.succ_le_succ hdepth) before hk)
    fun text calls calls' hk => ?_
  rw [renderTokens_append, renderTokens_append, hpast]
  refine compose.map (compose.bind (h hk) fun middle calls calls' hk => ?_) (append text · _)
  exact compose.map (renderTokens_follows hafter (Nat.succ_le_succ hdepth) after hk)
    (append middle · _)

end

/-! ## Sections -/

/-- How rendering tokens comes to an end: with an output, or for another reason than the depth. -/
def Context.Renders (c : Context) (tokens : List Token) (calls : Calls)
    (r : Except Stop String) : Prop :=
  r ≠ .error .depth ∧ ∃ depth, (renderTokens depth tokens c calls).text = r

/-- Tokens that follow others to some depth come to the same end. -/
theorem Context.Renders.of_follows {K : Calls → Calls → Prop} {c : Context}
    {tokens tokens' : List Token} {calls calls' : Calls} {r : Except Stop String}
    (hr : c.Renders tokens calls r)
    (h : ∀ depth, ∃ depth', Follows K (renderTokens (depth + 1) tokens c calls)
      (renderTokens depth' tokens' c calls')) : c.Renders tokens' calls' r := by
  obtain ⟨hne, depth, rfl⟩ := hr
  cases depth with
  | zero => exact absurd rfl hne
  | succ depth =>
    obtain ⟨depth', hfollows⟩ := h depth
    exact ⟨hne, depth', hfollows.text_eq hne⟩

/-- A section for `true` renders its body. -/
theorem renderTokens_section_true {c : Context} {e : Expression} {calls after : Calls}
    (he : resolve c e calls = (.value (.bool true), after)) (depth : Nat) (source : Source)
    (body : List Token) :
    renderTokens (depth + 1) [.sectionTag e source body] c calls =
      renderTokens depth body c after := by
  rw [renderTokens_singleton, renderToken, renderSection, he]
  rfl

/-- **A section that is true can be left out.** Where its expression resolves to `true`, its body
has the same output in its place, whatever stands before and after it and whatever the context, if
the body has no pragma of its own. Lambdas are pure. One comes to an end if the other does, and then
with the same output. -/
theorem renders_section_true {c : Context} (hc : ∀ v ∈ c.top :: c.below, v.Everywhere Value.Pure)
    {e : Expression} {earlier : Calls} (he : (resolve c e earlier).1 = .value (.bool true))
    {body : List Token} (hb : ∀ id, .pragmaTag id ∉ body) (source : Source)
    (before after : List Token) (calls calls' : Calls) (r : Except Stop String) :
    c.Renders (before ++ [.sectionTag e source body] ++ after) calls r ↔
      c.Renders (before ++ body ++ after) calls' r := by
  have hsteady : c.Steady fun _ => True := fun v hv => (hc v hv).steady _
  obtain ⟨type, hpast⟩ := c.past_eq before
  have hsteady' : (c.past before).Steady fun _ => True := by
    rw [hpast]
    exact hsteady
  -- the section is the body, a step deeper and after what its expression calls
  have hsection (depth : Nat) (calls : Calls) : ∃ called,
      renderTokens (depth + 1) [.sectionTag e source body] (c.past before) calls =
        renderTokens depth body (c.past before) called := by
    obtain ⟨found, _, called, hearlier, hcalled, -⟩ :=
      Value.Steady.resolve hsteady (EqualBut.all earlier calls) e
    rw [hearlier] at he
    obtain rfl : found = .value (.bool true) := he
    have hresolve : resolve (c.past before) e calls = (.value (.bool true), called) := by
      rw [hpast]
      exact hcalled
    exact ⟨called, renderTokens_section_true hresolve depth source body⟩
  have hsame : (c.past before).past body = (c.past before).past [.sectionTag e source body] := by
    rw [Context.past_of_no_pragma hb]
    rfl
  simp only [List.append_assoc]
  constructor
  · intro hr
    refine hr.of_follows fun depth => ⟨depth + 1, follows_replaced hsteady le_rfl before after hsame
      (fun {calls calls'} _ => ?_) (EqualBut.all calls calls')⟩
    obtain ⟨called, h⟩ := hsection depth calls
    rw [h]
    exact renderTokens_follows hsteady' (Nat.le_succ depth) body (EqualBut.all called calls')
  · intro hr
    refine hr.of_follows fun depth => ⟨depth + 2, follows_replaced hsteady (Nat.le_succ depth)
      before after hsame.symm (fun {calls calls'} _ => ?_) (EqualBut.all calls' calls)⟩
    obtain ⟨called, h⟩ := hsection (depth + 1) calls'
    rw [h]
    exact renderTokens_follows hsteady' le_rfl body (EqualBut.all calls called)

/-- A section behind a pragma, in an indented context, whose value a lambda answers with. -/
theorem renders_section_true_indented :
    ∃ c : Context, c.indentation = some "  " ∧
      (∀ v ∈ c.top :: c.below, v.Everywhere Value.Pure) ∧
      (resolve c (.plain "f.t") []).1 = .value (.bool true) ∧
      (∀ id, .pragmaTag id ∉ [Token.text "b\n", .variableTag (.plain "x")]) ∧
      c.Renders [.pragmaTag "TEXT", .text "a\n", .text "b\n", .variableTag (.plain "x"), .text "\n",
        .text "c"] [] (.ok "a\n  b\n  <\n  c") := by
  obtain ⟨c, hc⟩ : ∃ c : Context,
      c = { Context.root (.map [("f", .lambda 0 fun _ _ => .map [("t", .bool true)]),
        ("x", .text "<")]) Config.builtIn.types none with indentation := some "  " } := ⟨_, rfl⟩
  have hflags : (Value.map [("t", .bool true)]).Everywhere Value.Pure :=
    Value.everywhere_map trivial
      (List.forall_mem_singleton.mpr (Value.everywhere_of_no_part trivial nofun))
  have hlambda :
      (Value.lambda 0 fun _ _ => .map [("t", .bool true)]).Everywhere Value.Pure := by
    refine Value.everywhere_iff.mpr ⟨fun input => ⟨fun n => rfl, trivial⟩, fun u hu => ?_⟩
    cases hu with
    | answer => exact hflags
  have hpure : ∀ v ∈ c.top :: c.below, v.Everywhere Value.Pure := by
    rw [hc]
    exact List.forall_mem_singleton.mpr (Value.everywhere_map trivial (List.forall_mem_cons.mpr
      ⟨hlambda, List.forall_mem_singleton.mpr (Value.everywhere_text trivial)⟩))
  have htrue : (resolve c (.plain "f.t") []).1 = .value (.bool true) := by
    rw [hc]
    rfl
  have hbody : ∀ id, .pragmaTag id ∉ [Token.text "b\n", .variableTag (.plain "x")] := by simp
  have hsection : renderTokens 2 [.pragmaTag "TEXT", .text "a\n", .sectionTag (.plain "f.t")
      ⟨"", .standard⟩ [.text "b\n", .variableTag (.plain "x")], .text "\n", .text "c"] c [] =
        .ok ("a\n  b\n  <\n  c", [(0, 1)]) := by
    rw [hc]
    rfl
  refine ⟨c, by rw [hc], hpure, htrue, hbody, ?_⟩
  exact (renders_section_true hpure htrue hbody _ [.pragmaTag "TEXT", .text "a\n"]
    [.text "\n", .text "c"] [] [] _).mp ⟨nofun, 2, congrArg Rendered.text hsection⟩

end Mustache
