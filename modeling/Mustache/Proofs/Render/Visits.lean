import Mustache.Proofs.Context
import Mustache.Proofs.Render.Join
import Mustache.Proofs.Render.Simulation
import Mustache.Proofs.Value.Steady

/-!
# What a token comes to render

Rendering a token means to render other tokens and to join what they write: its body, what fills it
in, the template that it names, or what a lambda answers with. So what is known of the renderings
that a token comes to is known of its own.

* `Token.target?`, `Token.overrides`: the template that a token names, and what it fills in;
* `Context.Yields`: the values that a section is rendered for; **`Token.Visits`**: the tokens that a
  token comes to render, and their context;
* `Visits.library`, `Visits.contentTypes`, `Visits.override?`, `Visits.values`: what the contexts on
  the way have in common; `Context.Holds`, **`Visits.holds`**: a property of the tokens;
* `Context.Regular`: names are found alike after related calls;
* `Rendered.Composes`, `Rendered.Compositional`: a relation between results that joining keeps,
  after related calls and after the same; **`renderToken_lift`**, **`renderAll_relate`**,
  **`renderAll_lift`**.
-/

namespace Mustache

namespace Token

/-- The template that a token names. -/
def target? : Token → Option Target
  | .partialTag target _ => some target
  | .parentTag target _ _ => some target
  | _ => none

/-- The blocks that a token fills in. -/
def overrides : Token → Overrides
  | .parentTag _ _ overrides => overrides
  | _ => []

theorem mem_bodies_of_mem_overrides {t : Token} {entry : String × List Token}
    (h : entry ∈ t.overrides) : entry.2 ∈ t.bodies := by
  cases t with
  | parentTag target indentation overrides => exact List.mem_map_of_mem h
  | text | variableTag | verbatimTag | sectionTag | invertedTag | definitionTag | blockTag
  | partialTag | pragmaTag => nomatch h

end Token

/-- A section of the expression may be rendered for the value: the expression resolves to it, or to
a lambda that answers with it. -/
def Context.Yields (c : Context) (e : Expression) (source : Source) (v : Value) : Prop :=
  ∃ calls found after, resolve c e calls = (.value found, after) ∧
    (found.settle source.raw after).1 = v

/-- The property holds of what fills in blocks and of the templates that can be named. -/
structure Context.Holds (p : Token → Prop) (c : Context) : Prop where
  overrides : ∀ name body, c.override? name = some body → Token.Everywhere p body
  templates : ∀ name named, c.library.bind (·.find? name) = some named →
    Token.Everywhere p named.tokens

/-- Rendering the token in the context `c` may come to render other tokens in another context. -/
inductive Token.Visits (c : Context) : Token → List Token → Context → Prop
  | present (e : Expression) (source : Source) (body : List Token) :
    Visits c (.sectionTag e source body) body c
  | object {e : Expression} {source : Source} {v : Value} (hv : c.Yields e source v)
      (body : List Token) : Visits c (.sectionTag e source body) body (c.withObject v)
  | element {e : Expression} {source : Source} {items : List Value} {v : Value}
      (hs : c.Yields e source (.sequence items)) (hv : v ∈ items) (position : Position)
      (body : List Token) : Visits c (.sectionTag e source body) body (c.withElement v position)
  | answer {e : Expression} {source : Source} {calls after : Calls} {number : Nat}
      {answer : Nat → String → Value} {text : String} {tokens : List Token}
      (hl : resolve c e calls = (.value (.lambda number answer), after))
      (hp : Token.parseWith source.delimiters c.contentTypes text = .ok tokens)
      (body : List Token) : Visits c (.sectionTag e source body) tokens c
  | absent (e : Expression) (source : Source) (body : List Token) :
    Visits c (.invertedTag e source body) body c
  | emptied (e : Expression) (source : Source) (body : List Token) :
    Visits c (.invertedTag e source body) body (c.withObject (.sequence []))
  | filled {name : String} {override : List Token} (ho : c.override? name = some override)
      (default : List Token) (indentation : Option String) :
    Visits c (.blockTag name default indentation) override (c.withBlock indentation)
  | unfilled (name : String) (default : List Token) (indentation : Option String) :
    Visits c (.blockTag name default indentation) default c
  | template {t : Token} {target : Target} {name : String} {named : Template}
      (ht : t.target? = some target) (hs : target.dynamic = false → name = target.name)
      (hn : c.library.bind (·.find? name) = some named) :
    Visits c t named.tokens (c.withPartial t.indentation? t.overrides)

namespace Token.Visits

variable {c c' : Context} {t : Token} {tokens : List Token}

/-! ## Contexts on the way -/

theorem library (h : t.Visits c tokens c') : c'.library = c.library := by
  cases h <;> rfl

theorem contentTypes (h : t.Visits c tokens c') : c'.contentTypes = c.contentTypes := by
  cases h <;> rfl

/-- What fills in a block did so before, or is filled in by the token. -/
theorem override? (h : t.Visits c tokens c') {name : String} {body : List Token}
    (ho : c'.override? name = some body) :
    c.override? name = some body ∨ (name, body) ∈ t.overrides := by
  cases h with
  | template =>
    simp only [Context.override?, Context.withPartial, Entries.lookup_fill,
      Option.or_eq_some_iff] at ho
    exact ho.imp_right fun ho => Entries.mem_of_lookup ho.2
  | present | object | element | answer | absent | emptied | filled | unfilled => exact .inl ho

/-- The objects that are entered have a property that transforms keep. -/
theorem values {q : Value → Prop} (hq : Value.Stable q) (h : t.Visits c tokens c')
    (hc : ∀ v ∈ c.top :: c.below, v.Everywhere q) :
    ∀ v ∈ c'.top :: c'.below, v.Everywhere q := by
  have yields {e : Expression} {source : Source} {v : Value} (hv : c.Yields e source v) :
      v.Everywhere q := by
    obtain ⟨calls, found, after, hr, rfl⟩ := hv
    exact (hq.resolve hc (by rw [hr])).settle _ _
  cases h with
  | object hv => exact List.forall_mem_cons.mpr ⟨yields hv, hc⟩
  | element hs hv => exact List.forall_mem_cons.mpr ⟨(yields hs).items _ hv, hc⟩
  | emptied =>
    exact List.forall_mem_cons.mpr ⟨Value.everywhere_sequence (hq.enumerated []) nofun, hc⟩
  | present | answer | absent | filled | unfilled | template => exact hc

/-- **A property of what a token comes to render**, if it holds throughout the token and of all that
the context can bring in. -/
theorem holds {p : Token → Prop} (h : t.Visits c tokens c') (hc : c.Holds p) (ht : Throughout p t)
    (hp : ∀ {d text answer}, Token.parseWith d c.contentTypes text = .ok answer →
      Everywhere p answer) : Everywhere p tokens ∧ c'.Holds p := by
  have hc' : c'.Holds p := by
    refine ⟨fun name body ho => ?_, fun name named hn => hc.templates name named ?_⟩
    · exact (h.override? ho).elim (hc.overrides name body)
        fun ho => ht.2 body (mem_bodies_of_mem_overrides ho)
    · rwa [h.library] at hn
  refine ⟨?_, hc'⟩
  cases h with
  | answer _ ha => exact hp ha
  | filled ho => exact hc.overrides _ _ ho
  | template _ _ hn => exact hc.templates _ _ hn
  | present | object | element | absent | emptied | unfilled =>
    exact ht.2 _ (List.mem_singleton.mpr rfl)

end Token.Visits

/-! ## Contexts and results -/

/-- What expressions resolve to and what it settles to is the same after related calls. -/
structure Context.Regular (K : Calls → Calls → Prop) (c : Context) : Prop where
  resolve : ∀ (e : Expression) {calls calls' : Calls}, K calls calls' →
    Calls.SameResult K (resolve c e calls) (resolve c e calls')
  settle : ∀ {e : Expression} {calls after : Calls} {v : Value},
    Mustache.resolve c e calls = (.value v, after) → ∀ input {calls calls' : Calls},
      K calls calls' → Calls.SameResult K (v.settle input calls) (v.settle input calls')

/-- After the same calls everything is the same. -/
theorem Context.regular_eq (c : Context) : c.Regular Eq where
  resolve := by
    rintro e calls _ rfl
    exact ⟨_, _, _, rfl, rfl, rfl⟩
  settle := by
    rintro e calls after v - input calls _ rfl
    exact ⟨_, _, _, rfl, rfl, rfl⟩

namespace Rendered

/-- A relation between results that joining them keeps. -/
structure Compositional (P : Rendered → Rendered → Prop) : Prop where
  same : ∀ {r : Rendered}, r ≠ .error .depth → P r r
  bind : ∀ {r r' : Rendered} {f f' : String × Calls → Rendered}, P r r' → (∀ x, P (f x) (f' x)) →
    P (r.bind f) (r'.bind f')

/-- A relation between results that joining them keeps, where the same texts come with related
calls. -/
structure Composes (K : Calls → Calls → Prop) (P : Rendered → Rendered → Prop) : Prop where
  ok : ∀ {text : String} {calls calls' : Calls}, K calls calls' →
    P (.ok (text, calls)) (.ok (text, calls'))
  stop : ∀ {stop : Stop}, stop ≠ .depth → P (.error stop) (.error stop)
  bind : ∀ {r r' : Rendered} {f f' : String × Calls → Rendered}, P r r' →
    (∀ text {calls calls' : Calls}, K calls calls' → P (f (text, calls)) (f' (text, calls'))) →
      P (r.bind f) (r'.bind f')

theorem Compositional.composes {P : Rendered → Rendered → Prop} (hP : Compositional P) :
    Composes Eq P where
  ok := by
    rintro text calls _ rfl
    exact hP.same nofun
  stop h := hP.same fun he => h (Except.error.inj he)
  bind h hf := hP.bind h fun x => hf x.1 rfl

theorem Composes.map {K : Calls → Calls → Prop} {P : Rendered → Rendered → Prop}
    (hP : Composes K P) {r r' : Rendered} (h : P r r') (f : String → String) :
    P (r.map fun s => (f s.1, s.2)) (r'.map fun s => (f s.1, s.2)) := by
  have map_eq_bind (r : Rendered) :
      (r.map fun s => (f s.1, s.2)) = r.bind fun s => .ok (f s.1, s.2) := by
    cases r <;> rfl
  rw [map_eq_bind, map_eq_bind]
  exact hP.bind h fun text _ _ hk => hP.ok hk

end Rendered

open Rendered

section

variable {K : Calls → Calls → Prop} {P : Rendered → Rendered → Prop} (hP : Composes K P)
  {go go' : Renderer} {c : Context} {calls calls' : Calls}

include hP

/-! ## Sections -/

theorem renderElements_lift {body : List Token} {items : List Value}
    (h : ∀ v ∈ items, ∀ position {calls calls'}, K calls calls' →
      P (go body (c.withElement v position) calls) (go' body (c.withElement v position) calls'))
    (length index : Nat) (output : String) (hk : K calls calls') :
    P (renderElements go body c length index items output calls)
      (renderElements go' body c length index items output calls') := by
  induction items generalizing index output calls calls' with
  | nil => exact hP.ok hk
  | cons item items ih =>
    obtain ⟨hitem, hitems⟩ := List.forall_mem_cons.mp h
    rw [renderElements_cons, renderElements_cons]
    exact hP.bind (hitem _ hk) fun text _ _ hk => ih hitems _ _ hk

section

variable {e : Expression} {source : Source} {body : List Token}

theorem renderPresent_lift
    (h : ∀ {tokens c'}, (Token.sectionTag e source body).Visits c tokens c' → ∀ {calls calls'},
      K calls calls' → P (go tokens c' calls) (go' tokens c' calls'))
    {v : Value} (hv : c.Yields e source v) (hk : K calls calls') :
    P (renderPresent go v body c calls) (renderPresent go' v body c calls') := by
  by_cases hs : ∃ items, v = .sequence items
  · obtain ⟨items, rfl⟩ := hs
    exact renderElements_lift hP (fun v hm position => h (.element hv hm position body)) _ _ _ hk
  · rw [not_exists] at hs
    obtain he | he | he := Simulation.renderPresent_cases hs <;> rw [he, he]
    · exact h (.present e source body) hk
    · exact hP.ok hk
    · exact h (.object hv body) hk

theorem renderAbsent_lift
    (h : ∀ {tokens c'}, (Token.invertedTag e source body).Visits c tokens c' → ∀ {calls calls'},
      K calls calls' → P (go tokens c' calls) (go' tokens c' calls'))
    (v : Value) (hk : K calls calls') :
    P (renderAbsent go v body c calls) (renderAbsent go' v body c calls') := by
  by_cases hs : ∃ items, v = .sequence items
  · obtain ⟨items, rfl⟩ := hs
    cases items with
    | nil => exact h (.emptied e source body) hk
    | cons item items => exact hP.ok hk
  · rw [not_exists] at hs
    obtain he | he := Simulation.renderAbsent_cases hs <;> rw [he, he]
    · exact h (.absent e source body) hk
    · exact hP.ok hk

section

variable (hc : c.Regular K) (hk : K calls calls')

include hc hk

theorem renderSection_lift
    (h : ∀ {tokens c'}, (Token.sectionTag e source body).Visits c tokens c' → ∀ {calls calls'},
      K calls calls' → P (go tokens c' calls) (go' tokens c' calls')) :
    P (renderSection go e source body c calls) (renderSection go' e source body c calls') := by
  obtain ⟨found, after, after', hr, hr', hafter⟩ := hc.resolve e hk
  rw [renderSection, renderSection, hr, hr']
  cases found with
  | disorder => exact hP.stop (by decide)
  | miss => exact hP.ok hafter
  | value value =>
    have hv {v : Value} (hs : (value.settle source.raw after).1 = v) : c.Yields e source v :=
      ⟨calls, value, after, hr, hs⟩
    cases value with
    | lambda number answer =>
      obtain ⟨v, last, last', hs, hs', hlast⟩ := hc.settle hr source.raw hafter
      rw [hs] at hv
      dsimp only
      rw [hs, hs']
      cases v with
      | text content =>
        dsimp only
        cases hp : Token.parseWith source.delimiters c.contentTypes content with
        | ok tokens => exact h (.answer hr hp body) hlast
        | error fault => exact hP.ok hlast
      | _ => exact renderPresent_lift hP h (hv rfl) hlast
    | _ => exact renderPresent_lift hP h (hv rfl) hafter

theorem renderInverted_lift
    (h : ∀ {tokens c'}, (Token.invertedTag e source body).Visits c tokens c' → ∀ {calls calls'},
      K calls calls' → P (go tokens c' calls) (go' tokens c' calls')) :
    P (renderInverted go e source body c calls) (renderInverted go' e source body c calls') := by
  obtain ⟨found, after, after', hr, hr', hafter⟩ := hc.resolve e hk
  rw [renderInverted, renderInverted, hr, hr']
  cases found with
  | disorder => exact hP.stop (by decide)
  | miss => exact h (.absent e source body) hafter
  | value value =>
    cases value with
    | lambda number answer =>
      obtain ⟨v, last, last', hs, hs', hlast⟩ := hc.settle hr source.raw hafter
      dsimp only
      rw [hs, hs']
      cases v with
      | text content => exact hP.ok hlast
      | _ => exact renderAbsent_lift hP h _ hlast
    | _ => exact renderAbsent_lift hP h _ hafter

end

end

/-! ## Blocks and templates -/

theorem renderBlock_lift {name : String} {default : List Token} {indentation : Option String}
    (h : ∀ {tokens c'}, (Token.blockTag name default indentation).Visits c tokens c' →
      ∀ {calls calls'}, K calls calls' → P (go tokens c' calls) (go' tokens c' calls'))
    (hk : K calls calls') :
    P (renderBlock go name default indentation c calls)
      (renderBlock go' name default indentation c calls') := by
  unfold renderBlock
  cases ho : c.override? name with
  | none => exact h (.unfilled name default indentation) hk
  | some override => exact hP.map (h (.filled ho default indentation) hk) (indentFirst indentation)

section

variable {t : Token} {target : Target} (ht : t.target? = some target)
  (h : ∀ {tokens c'}, t.Visits c tokens c' → ∀ {calls calls'}, K calls calls' →
    P (go tokens c' calls) (go' tokens c' calls'))

include ht h

theorem renderNamed_lift {name : String} (hs : target.dynamic = false → name = target.name)
    (hk : K calls calls') :
    P (renderNamed go name t.indentation? t.overrides c calls)
      (renderNamed go' name t.indentation? t.overrides c calls') := by
  unfold renderNamed
  cases hn : c.library.bind (·.find? name) with
  | none => exact hP.ok hk
  | some named => exact hP.map (h (.template ht hs hn) hk) (indentFirst t.indentation?)

theorem renderTarget_lift (hc : c.Regular K) (hk : K calls calls') :
    P (renderTarget go target t.indentation? t.overrides c calls)
      (renderTarget go' target t.indentation? t.overrides c calls') := by
  unfold renderTarget
  split_ifs with hd
  · obtain ⟨found, after, after', hr, hr', hafter⟩ := hc.resolve (.plain target.name) hk
    rw [hr, hr']
    cases found with
    | disorder => exact hP.stop (by decide)
    | miss => exact hP.ok hafter
    | value value =>
      cases value with
      | text name =>
        exact renderNamed_lift hP ht h (fun hs => absurd (hd.symm.trans hs) nofun) hafter
      | _ => exact hP.ok hafter
  · exact renderNamed_lift hP ht h (fun _ => rfl) hk

end

/-! ## Tokens -/

theorem renderVariable_lift (hc : c.Regular K) (hk : K calls calls') (write : String → String)
    (e : Expression) :
    P (renderVariable write e c calls) (renderVariable write e c calls') := by
  obtain ⟨found, after, after', hr, hr', hafter⟩ := hc.resolve e hk
  rw [renderVariable, renderVariable, hr, hr']
  cases found with
  | disorder => exact hP.stop (by decide)
  | miss => exact hP.ok hafter
  | value value =>
    obtain ⟨v, last, last', hs, hs', hlast⟩ := hc.settle hr "" hafter
    dsimp only
    rw [hs, hs']
    exact hP.ok hlast

/-- **What is known of the renderings that a token comes to** is known of its own. -/
theorem renderToken_lift {t : Token} (hc : c.Regular K)
    (h : ∀ {tokens c'}, t.Visits c tokens c' → ∀ {calls calls'}, K calls calls' →
      P (go tokens c' calls) (go' tokens c' calls'))
    (hk : K calls calls') : P (renderToken go c t calls) (renderToken go' c t calls') := by
  cases t with
  | sectionTag e source body => exact renderSection_lift hP hc hk h
  | invertedTag e source body => exact renderInverted_lift hP hc hk h
  | blockTag name default indentation => exact renderBlock_lift hP h hk
  | partialTag target indentation => exact renderTarget_lift hP rfl h hc hk
  | parentTag target indentation overrides => exact renderTarget_lift hP rfl h hc hk
  | definitionTag => exact hP.stop (by decide)
  | text | pragmaTag => exact hP.ok hk
  | variableTag e | verbatimTag e => exact renderVariable_lift hP hc hk _ e

/-- **Several tokens in order**, after related calls, each with the content type that is active
where it stands. -/
theorem renderAll_relate {tokens : List Token} (hc : c.Regular K)
    (h : ∀ t ∈ tokens, ∀ type {body c'}, t.Visits { c with contentType := type } body c' →
      ∀ {calls calls'}, K calls calls' → P (go body c' calls) (go' body c' calls'))
    (output : String) (hk : K calls calls') :
    P (renderAll go c output tokens calls) (renderAll go' c output tokens calls') := by
  induction tokens generalizing c output calls calls' with
  | nil => exact hP.ok hk
  | cons t tokens ih =>
    obtain ⟨ht, htokens⟩ := List.forall_mem_cons.mp h
    by_cases hpragma : ∃ id, t = .pragmaTag id
    · obtain ⟨id, rfl⟩ := hpragma
      obtain ⟨type, he⟩ := c.withContentType_eq id
      show P (renderAll go (c.withContentType id) output tokens calls)
        (renderAll go' (c.withContentType id) output tokens calls')
      rw [he]
      exact @ih { c with contentType := type } _ _ ⟨hc.resolve, hc.settle⟩ htokens output hk
    · rw [not_exists] at hpragma
      rw [Simulation.renderAll_cons hpragma, Simulation.renderAll_cons hpragma]
      exact hP.bind (renderToken_lift hP hc (ht c.contentType) hk)
        fun text _ _ hk => ih hc htokens _ hk

end

/-- **Several tokens in order**, after the same calls. -/
theorem renderAll_lift {P : Rendered → Rendered → Prop} (hP : Compositional P) {go go' : Renderer}
    {c : Context} {tokens : List Token}
    (h : ∀ t ∈ tokens, ∀ type {body c'}, t.Visits { c with contentType := type } body c' →
      ∀ calls, P (go body c' calls) (go' body c' calls))
    (output : String) (calls : Calls) :
    P (renderAll go c output tokens calls) (renderAll go' c output tokens calls) := by
  refine renderAll_relate hP.composes c.regular_eq (fun t ht type body c' hv => ?_) output rfl
  rintro calls _ rfl
  exact h t ht type hv calls

end Mustache
