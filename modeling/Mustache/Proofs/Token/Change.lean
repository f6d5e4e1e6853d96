import Mustache.Proofs.Template.Step
import Mustache.Proofs.Token.Along

/-!
# A change at a place

The place is known by the tokens in front of it: those in its own body, and those in front of each
tag around it. At the place one list of tokens stands for another. All else is the same, but for the
sources of the sections around the place. A parent does not keep its body but what fills in blocks,
which may come from another part of the body.

* `Token.Around`: a tag around bodies that are related;
* `Token.Change`, **`Token.Change.Within`**: tokens before and after a change;
  `Token.ParsedChange`: so are the results of parsing;
* **`Token.Change.Within.butOne`**: such tokens differ at one place at most;
* `Token.Change.Fixed`: no parent may hold what is changed; `Token.Change.Within.collect`: what a
  parent collects from both bodies, if it collects anything.
-/

namespace Mustache.Token

/-- **The same tag around two bodies**, which are related, and so are the sources of a section. Of
the bodies of a parent there is what it collects from them. -/
inductive Around (r : List Token → List Token → Prop) (R : Source → Source → Prop) :
    Token → Token → Prop
  | sectionTag (e : Expression) {source source' : Source} {body body' : List Token}
      (hs : R source source') (hb : r body body') :
    Around r R (.sectionTag e source body) (.sectionTag e source' body')
  | invertedTag (e : Expression) {source source' : Source} {body body' : List Token}
      (hs : R source source') (hb : r body body') :
    Around r R (.invertedTag e source body) (.invertedTag e source' body')
  | definitionTag (name : String) {body body' : List Token} (hb : r body body') :
    Around r R (.definitionTag name body) (.definitionTag name body')
  | blockTag (name : String) (indentation : Option String) {default default' : List Token}
      (hb : r default default') :
    Around r R (.blockTag name default indentation) (.blockTag name default' indentation)
  | parentTag (target : Target) (indentation : Option String) {body body' : List Token}
      {overrides overrides' : Overrides} (hb : r body body')
      (ho : Overrides.collect? body = some overrides)
      (ho' : Overrides.collect? body' = some overrides') :
    Around r R (.parentTag target indentation overrides) (.parentTag target indentation overrides')

/-- A change: behind the tokens `front` of a body the tokens `new` stand for `old`. The body is that
of the innermost of several tags, and `outer` has the tokens in front of each of them, from the
outermost inwards. -/
structure Change where
  outer : List (List Token)
  front : List Token
  old : List Token
  new : List Token

namespace Change

/-- No parent may hold what is changed. -/
def Fixed (change : Change) : Prop :=
  ButOne (fun t t' => t.Fixed ∧ t'.Fixed) change.old change.new

/-- **The tokens before and after the change**, within tags in front of which there are these
tokens. A parent that does not stand alone comes behind the blanks that it held back. -/
def Within (change : Change) (R : Source → Source → Prop) :
    List (List Token) → List Token → List Token → Prop
  | [], tokens, tokens' => ∃ back, tokens = change.front ++ (change.old ++ back) ∧
      tokens' = change.front ++ (change.new ++ back)
  | front :: inner, tokens, tokens' => ∃ blanks t t' back,
      Around (change.Within R inner) R t t' ∧ tokens = front ++ (ofText blanks ++ t :: back) ∧
        tokens' = front ++ (ofText blanks ++ t' :: back)

end Change

/-- Both results of parsing are tokens, before and after the change, or errors of the same cause. -/
inductive ParsedChange (change : Change) (R : Source → Source → Prop) :
    Except ParseError (List Token) → Except ParseError (List Token) → Prop
  | ok {tokens tokens' : List Token} (h : change.Within R change.outer tokens tokens') :
    ParsedChange change R (.ok tokens) (.ok tokens')
  | error {e e' : ParseError} (h : e.cause = e'.cause) :
    ParsedChange change R (.error e) (.error e')

variable {P : Token → Token → Prop} {R : Source → Source → Prop} {change : Change}
  {inner : List (List Token)} {tokens tokens' : List Token}

theorem reverse_ofText (text : List Char) : (ofText text).reverse = ofText text := by
  unfold ofText
  split_ifs <;> rfl

theorem Change.Within.append (h : change.Within R inner tokens tokens') (more : List Token) :
    change.Within R inner (tokens ++ more) (tokens' ++ more) := by
  cases inner with
  | nil =>
    obtain ⟨back, rfl, rfl⟩ := h
    exact ⟨back ++ more, by simp only [List.append_assoc], by simp only [List.append_assoc]⟩
  | cons front inner =>
    obtain ⟨blanks, t, t', back, ht, rfl, rfl⟩ := h
    exact ⟨blanks, t, t', back ++ more, ht, by simp only [List.append_assoc, List.cons_append],
      by simp only [List.append_assoc, List.cons_append]⟩

/-- A tag around bodies that differ at one place at most. -/
theorem Around.along (hP : ∀ t t', P t t' → t.Fixed ∧ t'.Fixed) {r : List Token → List Token → Prop}
    (hr : ∀ body body', r body body' → ButOne (Along P R) body body') {t t' : Token}
    (h : Around r R t t') : Along P R t t' := by
  cases h with
  | sectionTag e hs hb => exact .sectionTag e hs (hr _ _ hb)
  | invertedTag e hs hb => exact .invertedTag e hs (hr _ _ hb)
  | definitionTag name hb => exact .definitionTag name (hr _ _ hb)
  | blockTag name indentation hb => exact .blockTag name indentation (hr _ _ hb)
  | parentTag target indentation hb ho ho' =>
    have hc := Overrides.collect_along hP (hr _ _ hb)
    rw [ho, ho'] at hc
    cases hc with
    | some hc => exact .parentTag target indentation hc

/-- **Tokens before and after a change** differ at one place at most, if the change is one token for
another that no parent may hold. -/
theorem Change.Within.butOne (hP : ∀ t t', P t t' → t.Fixed ∧ t'.Fixed)
    (hc : ButOne P change.old change.new) (h : change.Within R inner tokens tokens') :
    ButOne (Along P R) tokens tokens' := by
  induction inner generalizing tokens tokens' with
  | nil =>
    obtain ⟨back, rfl, rfl⟩ := h
    exact ((hc.mono fun _ _ => .here).append_right back).append_left change.front
  | cons front inner ih =>
    obtain ⟨blanks, t, t', back, ht, rfl, rfl⟩ := h
    have ht : Along P R t t' := ht.along hP fun _ _ => ih
    exact ((ButOne.here ht back).append_left (ofText blanks)).append_left front

/-- A parent may hold the tokens before the change exactly if it may hold those after it. -/
theorem Change.Within.collect (hfixed : change.Fixed) (h : change.Within R inner tokens tokens') :
    (Overrides.collect? tokens = none ∧ Overrides.collect? tokens' = none) ∨
      ∃ overrides overrides', Overrides.collect? tokens = some overrides ∧
        Overrides.collect? tokens' = some overrides' := by
  have hc := Overrides.collect_along (fun _ _ h => h) (h.butOne (fun _ _ h => h) hfixed)
  generalize Overrides.collect? tokens = o, Overrides.collect? tokens' = o' at hc
  cases hc with
  | none => exact .inl ⟨rfl, rfl⟩
  | some => exact .inr ⟨_, _, rfl, rfl⟩

end Mustache.Token
