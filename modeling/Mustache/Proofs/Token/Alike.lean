import Mathlib.Data.List.Forall2
import Mustache.Proofs.Token.Occurs
import Mustache.Template.Draft

/-!
# Tokens that differ in the sources of sections

What a section keeps for a lambda, the text of its body and the delimiters, may differ where all
else is the same.

* `Token.Named`: bodies that fill in a block of the same name; **`Token.Alike`**: tokens that are
  equal but for the sources of sections, which are related; `Token.ParsedAlike`: so are the results
  of parsing;
* `Token.Alike.isBlank`, **`Overrides.collect_alike`**: what a parent collects from its body.
-/

namespace Mustache

namespace Token

/-- Bodies of the same name. -/
inductive Named (p : List Token → List Token → Prop) :
    String × List Token → String × List Token → Prop
  | mk (name : String) {body body' : List Token} (h : p body body') :
    Named p (name, body) (name, body')

/-- **The same token** at every depth, but for the sources of sections, which `R` relates. -/
inductive Alike (R : Source → Source → Prop) : Token → Token → Prop
  | leaf {t : Token} (h : t.bodies = []) : Alike R t t
  | sectionTag (e : Expression) {source source' : Source} {body body' : List Token}
      (hs : R source source') (hb : List.Forall₂ (Alike R) body body') :
    Alike R (.sectionTag e source body) (.sectionTag e source' body')
  | invertedTag (e : Expression) {source source' : Source} {body body' : List Token}
      (hs : R source source') (hb : List.Forall₂ (Alike R) body body') :
    Alike R (.invertedTag e source body) (.invertedTag e source' body')
  | definitionTag (name : String) {body body' : List Token}
      (hb : List.Forall₂ (Alike R) body body') :
    Alike R (.definitionTag name body) (.definitionTag name body')
  | blockTag (name : String) (indentation : Option String) {default default' : List Token}
      (hb : List.Forall₂ (Alike R) default default') :
    Alike R (.blockTag name default indentation) (.blockTag name default' indentation)
  | parentTag (target : Target) (indentation : Option String)
      {overrides overrides' : List (String × List Token)}
      (ho : List.Forall₂ (Named (List.Forall₂ (Alike R))) overrides overrides') :
    Alike R (.parentTag target indentation overrides) (.parentTag target indentation overrides')

/-- Both results of parsing are tokens that are alike, or errors of the same cause. -/
inductive ParsedAlike (R : Source → Source → Prop) :
    Except ParseError (List Token) → Except ParseError (List Token) → Prop
  | ok {tokens tokens' : List Token} (h : List.Forall₂ (Alike R) tokens tokens') :
    ParsedAlike R (.ok tokens) (.ok tokens')
  | error {e e' : ParseError} (h : e.cause = e'.cause) : ParsedAlike R (.error e) (.error e')

variable {R : Source → Source → Prop}

theorem Alike.isBlank {t t' : Token} (h : Alike R t t') : t.isBlank = t'.isBlank := by
  cases h <;> rfl

/-- Tokens without bodies. -/
theorem alike_of_bodies_nil {tokens : List Token} (h : ∀ t ∈ tokens, t.bodies = []) :
    List.Forall₂ (Alike R) tokens tokens :=
  List.forall₂_same.mpr fun t ht => .leaf (h t ht)

theorem Named.put {p : List Token → List Token → Prop} {name : String} {body body' : List Token}
    (hb : p body body') {overrides overrides' : List (String × List Token)}
    (ho : List.Forall₂ (Named p) overrides overrides') :
    List.Forall₂ (Named p) (Entries.put name body overrides)
      (Entries.put name body' overrides') := by
  induction ho with
  | nil => exact .cons (.mk name hb) .nil
  | cons h ht ih =>
    cases h with
    | mk k h =>
      simp only [Entries.put]
      split_ifs
      · exact .cons (.mk name hb) ht
      · exact .cons (.mk k h) ih

end Token

namespace Overrides

open Token

variable {R : Source → Source → Prop}

/-- Steps that take tokens that are alike to the same names, taken one after the other. -/
theorem foldlM_alike {step : Overrides → Token → Option Overrides}
    (hstep : ∀ o o' t t', List.Forall₂ (Named (List.Forall₂ (Alike R))) o o' → Alike R t t' →
      Option.Rel (List.Forall₂ (Named (List.Forall₂ (Alike R)))) (step o t) (step o' t'))
    {body body' : List Token} (h : List.Forall₂ (Alike R) body body') {o o' : Overrides}
    (ho : List.Forall₂ (Named (List.Forall₂ (Alike R))) o o') :
    Option.Rel (List.Forall₂ (Named (List.Forall₂ (Alike R)))) (body.foldlM step o)
      (body'.foldlM step o') := by
  induction h generalizing o o' with
  | nil => exact .some ho
  | @cons t t' body body' ht _ ih =>
    rw [List.foldlM_cons, List.foldlM_cons, Option.bind_eq_bind]
    have hs := hstep o o' t t' ho ht
    generalize step o t = r at hs ⊢
    generalize step o' t' = r' at hs ⊢
    cases hs with
    | some h => exact ih h
    | none => exact .none

/-- **What fills in blocks** is alike in bodies that are. -/
theorem collect_alike {body body' : List Token} (h : List.Forall₂ (Alike R) body body') :
    Option.Rel (List.Forall₂ (Named (List.Forall₂ (Alike R)))) (collect? body)
      (collect? body') := by
  refine foldlM_alike (fun o o' t t' ho ht => ?_) h .nil
  have blank (t : Token) : Option.Rel (List.Forall₂ (Named (List.Forall₂ (Alike R))))
      (if t.isBlank then some o else none) (if t.isBlank then some o' else none) := by
    split_ifs
    · exact .some ho
    · exact .none
  cases ht with
  | definitionTag name hb => exact .some (Named.put hb ho)
  | leaf hb =>
    cases t with
    | definitionTag => nomatch hb
    | text | variableTag | verbatimTag | sectionTag | invertedTag | blockTag | partialTag |
      parentTag | pragmaTag => exact blank _
  | sectionTag | invertedTag | blockTag | parentTag => exact .none

end Overrides

end Mustache
