import Mustache.Proofs.Token.Alike

/-!
# Tokens that differ at one place

What stands at one place of a template leaves all tokens as they are that do not lie around this
place: in every body one token at most is another.

* `ButOne`: lists that are equal but for one item;
* **`Token.Along`**: tokens that are equal but for one inside them, and for the sources of the
  sections around it;
* `Token.Fixed`: a token that is neither blank nor the definition of a block;
  **`Overrides.collect_along`**: what a parent collects from its body.
-/

namespace Mustache

/-! ## Lists -/

/-- Lists that are equal but for one item at most, which `r` relates. -/
inductive ButOne {α : Type} (r : α → α → Prop) : List α → List α → Prop
  | same (items : List α) : ButOne r items items
  | here {x x' : α} (h : r x x') (items : List α) : ButOne r (x :: items) (x' :: items)
  | later (x : α) {items items' : List α} (h : ButOne r items items') :
    ButOne r (x :: items) (x :: items')

namespace ButOne

variable {α : Type} {r : α → α → Prop} {items items' : List α}

theorem append_left (h : ButOne r items items') (front : List α) :
    ButOne r (front ++ items) (front ++ items') := by
  induction front with
  | nil => exact h
  | cons x front ih => exact .later x ih

theorem append_right (h : ButOne r items items') (more : List α) :
    ButOne r (items ++ more) (items' ++ more) := by
  induction h with
  | same items => exact .same (items ++ more)
  | here h items => exact .here h (items ++ more)
  | later x _ ih => exact .later x ih

theorem mono {s : α → α → Prop} (h : ButOne r items items') (hs : ∀ x x', r x x' → s x x') :
    ButOne s items items' := by
  induction h with
  | same items => exact .same items
  | here h items => exact .here (hs _ _ h) items
  | later x _ ih => exact .later x ih

end ButOne

/-! ## Tokens -/

namespace Token

/-- **The same token** but for one token in it, at any depth, which `P` relates, and for the sources
of the sections around that one, which `R` relates. -/
inductive Along (P : Token → Token → Prop) (R : Source → Source → Prop) : Token → Token → Prop
  | here {t t' : Token} (h : P t t') : Along P R t t'
  | sectionTag (e : Expression) {source source' : Source} {body body' : List Token}
      (hs : R source source') (hb : ButOne (Along P R) body body') :
    Along P R (.sectionTag e source body) (.sectionTag e source' body')
  | invertedTag (e : Expression) {source source' : Source} {body body' : List Token}
      (hs : R source source') (hb : ButOne (Along P R) body body') :
    Along P R (.invertedTag e source body) (.invertedTag e source' body')
  | definitionTag (name : String) {body body' : List Token}
      (hb : ButOne (Along P R) body body') :
    Along P R (.definitionTag name body) (.definitionTag name body')
  | blockTag (name : String) (indentation : Option String) {default default' : List Token}
      (hb : ButOne (Along P R) default default') :
    Along P R (.blockTag name default indentation) (.blockTag name default' indentation)
  | parentTag (target : Target) (indentation : Option String)
      {overrides overrides' : List (String × List Token)}
      (ho : ButOne (Named (ButOne (Along P R))) overrides overrides') :
    Along P R (.parentTag target indentation overrides) (.parentTag target indentation overrides')

/-- The token is neither blank nor the definition of a block, so that no parent may hold it. -/
def Fixed (t : Token) : Prop := t.isBlank = false ∧ ∀ name body, t ≠ .definitionTag name body

variable {P : Token → Token → Prop} {R : Source → Source → Prop}
  {p : List Token → List Token → Prop}

/-- An override for another of the same name. -/
theorem butOne_put_body {name : String} {body body' : List Token} (hb : p body body')
    (overrides : Overrides) :
    ButOne (Named p) (Entries.put name body overrides) (Entries.put name body' overrides) := by
  induction overrides with
  | nil => exact .here (.mk name hb) []
  | cons e overrides ih =>
    obtain ⟨k, b⟩ := e
    simp only [Entries.put]
    split_ifs
    · exact .here (.mk name hb) overrides
    · exact .later (k, b) ih

/-- The same override among others. -/
theorem ButOne.put {overrides overrides' : Overrides} (h : ButOne (Named p) overrides overrides')
    (name : String) (body : List Token) :
    ButOne (Named p) (Entries.put name body overrides) (Entries.put name body overrides') := by
  induction h with
  | same overrides => exact .same _
  | here h overrides =>
    cases h with
    | mk k h =>
      simp only [Entries.put]
      split_ifs
      · exact .same _
      · exact .here (.mk k h) _
  | @later e overrides overrides' h ih =>
    obtain ⟨k, b⟩ := e
    simp only [Entries.put]
    split_ifs
    · exact .later _ h
    · exact .later _ ih

end Token

namespace Overrides

open Token

variable {P : Token → Token → Prop} {R : Source → Source → Prop}
  {r : Overrides → Overrides → Prop} {step : Overrides → Token → Option Overrides}

/-- Steps over the same tokens. -/
theorem foldlM_same (hsame : ∀ o o' t, r o o' → Option.Rel r (step o t) (step o' t))
    (body : List Token) {o o' : Overrides} (ho : r o o') :
    Option.Rel r (body.foldlM step o) (body.foldlM step o') := by
  induction body generalizing o o' with
  | nil => exact .some ho
  | cons t body ih =>
    rw [List.foldlM_cons, List.foldlM_cons]
    have hs := hsame o o' t ho
    generalize step o t = m, step o' t = m' at hs ⊢
    cases hs with
    | some h => exact ih h
    | none => exact .none

/-- Steps over tokens that are equal but for one. -/
theorem foldlM_butOne {q : Token → Token → Prop} (hrefl : ∀ o, r o o)
    (hsame : ∀ o o' t, r o o' → Option.Rel r (step o t) (step o' t))
    (hhere : ∀ o t t', q t t' → Option.Rel r (step o t) (step o t'))
    {body body' : List Token} (h : ButOne q body body') (o : Overrides) :
    Option.Rel r (body.foldlM step o) (body'.foldlM step o) := by
  induction h generalizing o with
  | same body => exact foldlM_same hsame body (hrefl o)
  | @here t t' h body =>
    rw [List.foldlM_cons, List.foldlM_cons]
    have hs := hhere o t t' h
    generalize step o t = m, step o t' = m' at hs ⊢
    cases hs with
    | some h => exact foldlM_same hsame body h
    | none => exact .none
  | later t _ ih =>
    rw [List.foldlM_cons, List.foldlM_cons]
    cases step o t with
    | none => exact .none
    | some o => exact ih o

/-- **What fills in blocks** differs at one place if the bodies do. -/
theorem collect_along (hP : ∀ t t', P t t' → t.Fixed ∧ t'.Fixed) {body body' : List Token}
    (h : ButOne (Along P R) body body') :
    Option.Rel (ButOne (Named (ButOne (Along P R)))) (collect? body) (collect? body') := by
  refine foldlM_butOne (fun o => .same o) (fun o o' t ho => ?_) (fun o t t' ht => ?_) h []
  · split
    · exact .some (ButOne.put ho _ _)
    · split_ifs
      · exact .some ho
      · exact .none
  · cases ht with
    | here h =>
      obtain ⟨⟨hb, hd⟩, hb', hd'⟩ := hP t t' h
      split
      · exact absurd rfl (hd _ _)
      · simp only [hb, hb', Bool.false_eq_true, if_false]
        exact .none
    | definitionTag name hb => exact .some (butOne_put_body hb o)
    | sectionTag | invertedTag | blockTag | parentTag => exact .none

end Overrides

end Mustache
