import Mustache.Proofs.Context
import Mustache.Proofs.Render.Join
import Mustache.Proofs.Render.Simulation

/-!
# Tokens in several parts

Tokens are rendered one by one, and each is joined to what has been written. The same comes out if
they are rendered in several parts that are joined as a whole.

* `Context.past`: the context behind tokens, whose pragmas count from there on;
* `renderAll_append`, **`renderAll_joined`**: tokens in two parts, and behind what is joined
  already;
* **`renderTokens_append`**, `renderTokens_singleton`.
-/

namespace Mustache

/-! ## The context behind tokens -/

/-- The context behind the tokens: their pragmas count from there on. -/
def Context.past (c : Context) : List Token → Context
  | [] => c
  | .pragmaTag id :: tokens => (c.withContentType id).past tokens
  | _ :: tokens => c.past tokens

section

variable {c : Context} {t : Token} {tokens : List Token}

theorem Context.past_cons (ht : ∀ id, t ≠ .pragmaTag id) (c : Context) (tokens : List Token) :
    c.past (t :: tokens) = c.past tokens := by
  rw [past]
  exact ht

/-- Only the content type is another one. -/
theorem Context.past_eq (c : Context) (tokens : List Token) :
    ∃ type, c.past tokens = { c with contentType := type } := by
  fun_induction Context.past c tokens with
  | case1 c => exact ⟨c.contentType, rfl⟩
  | case2 c id tokens ih =>
    obtain ⟨type, he⟩ := c.withContentType_eq id
    obtain ⟨last, hl⟩ := ih
    exact ⟨last, by rw [hl, he]⟩
  | case3 c t tokens ht ih => exact ih

theorem Context.past_of_no_pragma (h : ∀ id, .pragmaTag id ∉ tokens) : c.past tokens = c := by
  induction tokens with
  | nil => rfl
  | cons t tokens ih =>
    have ht (id : String) : t ≠ .pragmaTag id := by
      rintro rfl
      exact h id List.mem_cons_self
    rw [past_cons ht]
    exact ih fun id hid => h id (List.mem_cons_of_mem t hid)

end

section

variable (go : Renderer) (c : Context) (out : String)

/-- Tokens in two parts. -/
theorem renderAll_append (first second : List Token) (calls : Calls) :
    renderAll go c out (first ++ second) calls =
      (renderAll go c out first calls).bind fun r =>
        renderAll go (c.past first) r.1 second r.2 := by
  induction first generalizing c out calls with
  | nil => rfl
  | cons t first ih =>
    by_cases ht : ∃ id, t = .pragmaTag id
    · obtain ⟨id, rfl⟩ := ht
      exact ih (c.withContentType id) out calls
    · rw [not_exists] at ht
      rw [List.cons_append, Simulation.renderAll_cons ht, Simulation.renderAll_cons ht,
        Context.past_cons ht]
      cases renderToken go c t calls with
      | error stop => rfl
      | ok r => exact ih c _ r.2

/-- **Tokens behind an output and a piece** that is joined to it: they can be joined to the piece
first. -/
theorem renderAll_joined (piece : String) (tokens : List Token) (calls : Calls) :
    renderAll go c (append out piece c.indentation) tokens calls =
      (renderAll go c piece tokens calls).map fun r => (append out r.1 c.indentation, r.2) := by
  induction tokens generalizing c piece calls with
  | nil => rfl
  | cons t tokens ih =>
    by_cases ht : ∃ id, t = .pragmaTag id
    · obtain ⟨id, rfl⟩ := ht
      obtain ⟨type, he⟩ := c.withContentType_eq id
      rw [renderAll, renderAll, he]
      exact ih { c with contentType := type } piece calls
    · rw [not_exists] at ht
      rw [Simulation.renderAll_cons ht, Simulation.renderAll_cons ht]
      cases renderToken go c t calls with
      | error stop => rfl
      | ok r =>
        show renderAll go c (append (append out piece c.indentation) r.1 c.indentation) tokens
          r.2 = _
        rw [← append_append]
        exact ih c _ r.2

end

/-- **Tokens in two parts** are rendered one after the other, and joined. -/
theorem renderTokens_append (depth : Nat) (first second : List Token) (c : Context)
    (calls : Calls) :
    renderTokens (depth + 1) (first ++ second) c calls =
      (renderTokens (depth + 1) first c calls).bind fun r =>
        (renderTokens (depth + 1) second (c.past first) r.2).map fun s =>
          (append r.1 s.1 c.indentation, s.2) := by
  rw [renderTokens, renderAll_append]
  refine congrArg (Except.bind _) (funext fun r => ?_)
  obtain ⟨type, he⟩ := c.past_eq first
  have hjoined := renderAll_joined (renderTokens depth) (c.past first) r.1 "" second r.2
  rw [he] at hjoined ⊢
  exact hjoined

/-- A token by itself. -/
theorem renderTokens_singleton (t : Token) (depth : Nat) (c : Context) (calls : Calls) :
    renderTokens (depth + 1) [t] c calls = renderToken (renderTokens depth) c t calls := by
  by_cases ht : ∃ id, t = .pragmaTag id
  · obtain ⟨id, rfl⟩ := ht
    rfl
  · rw [not_exists] at ht
    rw [renderTokens, Simulation.renderAll_cons ht]
    exact bind_empty_append _ c.indentation

end Mustache
