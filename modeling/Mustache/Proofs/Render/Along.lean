import Mustache.Proofs.Render.Simulation
import Mustache.Proofs.Token.Along

/-!
# Rendering tokens that differ at one place

If one token is put in for another that is rendered alike, the output stays the same: wherever the
token stands, also in what fills in a block and in the templates of the library. Only a lambda could
tell, since it is given the text of its section.

* `Token.Interchangeable`: tokens that are rendered alike;
* `Context.Along`: contexts with overrides and templates that differ at one place, and without
  lambdas; `Context.Along.resolve`;
* `Renderer.Along`, and one lemma for each kind of token; **`renderTokens_along`**;
* `Token.SameOutput`, **`Token.sameOutput_of_butOne`**.
-/

namespace Mustache

/-- The tokens are rendered alike. Neither is a pragma, which would count for what follows it. -/
structure Token.Interchangeable (t t' : Token) : Prop where
  render : ∀ go c calls, renderToken go c t' calls = renderToken go c t calls
  no_pragma : ∀ id, t ≠ .pragmaTag id
  no_pragma' : ∀ id, t' ≠ .pragmaTag id

/-- The contexts fill in blocks and name templates whose tokens differ at one place, and there are
no lambdas in their objects. -/
structure Context.Along (P : Token → Token → Prop) (R : Source → Source → Prop)
    (c c' : Context) : Prop where
  eq : c' = { c with overrides := c'.overrides, library := c'.library }
  overrides : ∀ name, Option.Rel (ButOne (Token.Along P R)) (c.override? name) (c'.override? name)
  templates : ∀ name, Option.Rel (fun t t' => ButOne (Token.Along P R) t.tokens t'.tokens)
    (c.library.bind (·.find? name)) (c'.library.bind (·.find? name))
  values : ∀ v ∈ c.top :: c.below, v.Everywhere Value.NotLambda

/-- A way to render bodies that does not tell tokens apart that differ at one place. -/
def Renderer.Along (P : Token → Token → Prop) (R : Source → Source → Prop) (go : Renderer) : Prop :=
  ∀ tokens tokens' c c' calls, ButOne (Token.Along P R) tokens tokens' → c.Along P R c' →
    go tokens' c' calls = go tokens c calls

variable {P : Token → Token → Prop} {R : Source → Source → Prop} {c c' : Context}

/-! ## Contexts -/

namespace Context.Along

theorem indentation (h : c.Along P R c') : c'.indentation = c.indentation := by rw [h.eq]

theorem contentType (h : c.Along P R c') : c'.contentType = c.contentType := by rw [h.eq]

/-- Names are looked up in the same objects. -/
theorem resolve (h : c.Along P R c') (e : Expression) (calls : Calls) :
    Mustache.resolve c' e calls = Mustache.resolve c e calls := by
  rw [h.eq]
  rfl

/-- A name does not find a lambda. -/
theorem notLambda (h : c.Along P R c') {e : Expression} {calls after : Calls} {v : Value}
    (hv : Mustache.resolve c e calls = (.value v, after)) : v.Everywhere Value.NotLambda :=
  Value.stable_notLambda.resolve h.values (by rw [hv])

theorem withObject (h : c.Along P R c') {v : Value} (hv : v.Everywhere Value.NotLambda) :
    (c.withObject v).Along P R (c'.withObject v) where
  eq := by rw [h.eq]; rfl
  overrides := h.overrides
  templates := h.templates
  values := List.forall_mem_cons.mpr ⟨hv, h.values⟩

theorem withElement (h : c.Along P R c') {v : Value} (hv : v.Everywhere Value.NotLambda)
    (position : Position) : (c.withElement v position).Along P R (c'.withElement v position) where
  eq := by rw [h.eq]; rfl
  overrides := h.overrides
  templates := h.templates
  values := List.forall_mem_cons.mpr ⟨hv, h.values⟩

theorem withBlock (h : c.Along P R c') (i : Option String) :
    (c.withBlock i).Along P R (c'.withBlock i) where
  eq := by rw [h.eq]; rfl
  overrides := h.overrides
  templates := h.templates
  values := h.values

theorem withContentType (h : c.Along P R c') (id : String) :
    (c.withContentType id).Along P R (c'.withContentType id) := by
  have htypes : c'.contentTypes = c.contentTypes := by rw [h.eq]
  unfold Context.withContentType
  rw [htypes]
  cases c.contentTypes.find? id with
  | none => exact h
  | some type => exact { h with eq := by rw [h.eq] }

/-- **A template is entered**: what is filled in already wins on both sides. -/
theorem withPartial (h : c.Along P R c') (i : Option String) {own own' : Overrides}
    (ho : ∀ name, Option.Rel (ButOne (Token.Along P R)) (own.lookup name) (own'.lookup name)) :
    (c.withPartial i own).Along P R (c'.withPartial i own') where
  eq := by
    rw [h.eq]
    rfl
  overrides name := by
    have hname := h.overrides name
    simp only [Context.override?] at hname
    simp only [Context.override?, Context.withPartial, Entries.lookup_fill]
    generalize c.overrides.lookup name = o, c'.overrides.lookup name = o' at hname
    cases hname with
    | none => exact ho name
    | some hb => exact .some hb
  templates := h.templates
  values := h.values

end Context.Along

/-- What blocks are filled in with, if overrides differ at one place. -/
theorem Overrides.lookup_along {p : List Token → List Token → Prop} (hp : ∀ body, p body body)
    {own own' : Overrides} (h : ButOne (Token.Named p) own own') (name : String) :
    Option.Rel p (own.lookup name) (own'.lookup name) := by
  have same (own : Overrides) : Option.Rel p (own.lookup name) (own.lookup name) := by
    cases own.lookup name with
    | none => exact .none
    | some body => exact .some (hp body)
  induction h with
  | same own => exact same own
  | here h own =>
    cases h with
    | mk k hb =>
      rw [List.lookup_cons, List.lookup_cons]
      cases name == k with
      | true => exact .some hb
      | false => exact same own
  | later entry _ ih =>
    obtain ⟨k, body⟩ := entry
    rw [List.lookup_cons, List.lookup_cons]
    cases name == k with
    | true => exact .some (hp body)
    | false => exact ih

/-! ## Tokens -/

section

variable {go : Renderer} (hgo : go.Along P R) (hc : c.Along P R c') {body body' : List Token}
  (hb : ButOne (Token.Along P R) body body') (e : Expression) (calls : Calls)

include hgo hc

section

include hb

theorem renderElements_along (length index : Nat) {items : List Value}
    (hi : ∀ v ∈ items, v.Everywhere Value.NotLambda) (output : String) :
    renderElements go body' c' length index items output calls =
      renderElements go body c length index items output calls := by
  induction items generalizing index output calls with
  | nil => rfl
  | cons item items ih =>
    obtain ⟨hitem, hitems⟩ := List.forall_mem_cons.mp hi
    rw [renderElements, renderElements, hgo _ _ _ _ calls hb (hc.withElement hitem _),
      hc.indentation]
    cases go body (c.withElement item ⟨index, length⟩) calls with
    | error stop => rfl
    | ok r => exact ih r.2 (index + 1) hitems _

theorem renderPresent_along {v : Value} (hv : v.Everywhere Value.NotLambda) :
    renderPresent go v body' c' calls = renderPresent go v body c calls := by
  by_cases hs : ∃ items, v = .sequence items
  · obtain ⟨items, rfl⟩ := hs
    exact renderElements_along hgo hc hb calls items.length 0 hv.items ""
  · rw [not_exists] at hs
    obtain h | h | h := Simulation.renderPresent_cases hs <;> rw [h, h]
    · exact hgo _ _ _ _ calls hb hc
    · exact hgo _ _ _ _ calls hb (hc.withObject hv)

theorem renderAbsent_along {v : Value} (hv : v.Everywhere Value.NotLambda) :
    renderAbsent go v body' c' calls = renderAbsent go v body c calls := by
  by_cases hs : ∃ items, v = .sequence items
  · obtain ⟨items, rfl⟩ := hs
    cases items with
    | nil => exact hgo _ _ _ _ calls hb (hc.withObject hv)
    | cons item items => rfl
  · rw [not_exists] at hs
    obtain h | h := Simulation.renderAbsent_cases hs <;> rw [h, h]
    exact hgo _ _ _ _ calls hb hc

/-- The text of a section does not count, since there is no lambda that is given it. -/
theorem renderSection_along (source source' : Source) :
    renderSection go e source' body' c' calls = renderSection go e source body c calls := by
  unfold renderSection
  rw [hc.resolve]
  generalize hr : resolve c e calls = r
  obtain ⟨found, after⟩ := r
  cases found with
  | miss | disorder => rfl
  | value v =>
    have hv := hc.notLambda hr
    cases v with
    | lambda number answer => exact absurd rfl (hv.here number answer)
    | _ => exact renderPresent_along hgo hc hb after hv

theorem renderInverted_along (source source' : Source) :
    renderInverted go e source' body' c' calls = renderInverted go e source body c calls := by
  unfold renderInverted
  rw [hc.resolve]
  generalize hr : resolve c e calls = r
  obtain ⟨found, after⟩ := r
  cases found with
  | disorder => rfl
  | miss => exact hgo _ _ _ _ after hb hc
  | value v =>
    have hv := hc.notLambda hr
    cases v with
    | lambda number answer => exact absurd rfl (hv.here number answer)
    | _ => exact renderAbsent_along hgo hc hb after hv

theorem renderBlock_along (name : String) (i : Option String) :
    renderBlock go name body' i c' calls = renderBlock go name body i c calls := by
  have ho := hc.overrides name
  unfold renderBlock
  generalize c.override? name = o, c'.override? name = o' at ho ⊢
  cases ho with
  | none => exact hgo _ _ _ _ calls hb hc
  | some hoverride =>
    dsimp only
    rw [hgo _ _ _ _ calls hoverride (hc.withBlock i)]

end

section

variable {own own' : Overrides}
  (ho : ∀ name, Option.Rel (ButOne (Token.Along P R)) (own.lookup name) (own'.lookup name))

include ho

theorem renderNamed_along (name : String) (i : Option String) :
    renderNamed go name i own' c' calls = renderNamed go name i own c calls := by
  have ht := hc.templates name
  unfold renderNamed
  generalize c.library.bind (·.find? name) = t, c'.library.bind (·.find? name) = t' at ht ⊢
  cases ht with
  | none => rfl
  | some htokens =>
    dsimp only
    rw [hgo _ _ _ _ calls htokens (hc.withPartial i ho)]

theorem renderTarget_along (target : Target) (i : Option String) :
    renderTarget go target i own' c' calls = renderTarget go target i own c calls := by
  unfold renderTarget
  rw [hc.resolve]
  split_ifs
  · obtain ⟨found, after⟩ := resolve c (.plain target.name) calls
    cases found with
    | miss | disorder => rfl
    | value v =>
      cases v with
      | text name => exact renderNamed_along hgo hc after ho name i
      | _ => rfl
  · exact renderNamed_along hgo hc calls ho target.name i

end

omit hgo in
theorem renderVariable_along (write : String → String) :
    renderVariable write e c' calls = renderVariable write e c calls := by
  unfold renderVariable
  rw [hc.resolve]

/-- The same token. -/
theorem renderToken_same (t : Token) : renderToken go c' t calls = renderToken go c t calls := by
  have same (body : List Token) : ButOne (Token.Along P R) body body := .same body
  cases t with
  | text | definitionTag | pragmaTag => rfl
  | variableTag e =>
    rw [renderToken, renderToken, hc.contentType]
    exact renderVariable_along hc e calls _
  | verbatimTag e => exact renderVariable_along hc e calls id
  | sectionTag e source body => exact renderSection_along hgo hc (same body) e calls source source
  | invertedTag e source body =>
    exact renderInverted_along hgo hc (same body) e calls source source
  | blockTag name default i => exact renderBlock_along hgo hc (same default) calls name i
  | partialTag target i => exact renderTarget_along hgo hc calls (fun _ => .none) target i
  | parentTag target i own =>
    exact renderTarget_along hgo hc calls (Overrides.lookup_along same (.same own)) target i

/-- **A token that differs at one place.** -/
theorem renderToken_along (hP : ∀ t t', P t t' → t.Interchangeable t') {t t' : Token}
    (ht : Token.Along P R t t') : renderToken go c' t' calls = renderToken go c t calls := by
  cases ht with
  | here h =>
    rw [(hP t t' h).render]
    exact renderToken_same hgo hc calls t
  | sectionTag e _ hb => exact renderSection_along hgo hc hb e calls _ _
  | invertedTag e _ hb => exact renderInverted_along hgo hc hb e calls _ _
  | definitionTag => rfl
  | blockTag name i hb => exact renderBlock_along hgo hc hb calls name i
  | parentTag target i ho =>
    exact renderTarget_along hgo hc calls (Overrides.lookup_along .same ho) target i

end

theorem Token.Along.no_pragma (hP : ∀ t t', P t t' → t.Interchangeable t') {t t' : Token}
    (h : Token.Along P R t t') : (∀ id, t ≠ .pragmaTag id) ∧ ∀ id, t' ≠ .pragmaTag id := by
  cases h with
  | here h => exact ⟨(hP t t' h).no_pragma, (hP t t' h).no_pragma'⟩
  | sectionTag | invertedTag | definitionTag | blockTag | parentTag => exact ⟨nofun, nofun⟩

/-! ## Several tokens -/

section

variable {go : Renderer} (hgo : go.Along P R)

include hgo

/-- The same token in front. -/
theorem renderAll_later {tokens tokens' : List Token} (t : Token)
    (ih : ∀ c c' output calls, Context.Along P R c c' →
      renderAll go c' output tokens' calls = renderAll go c output tokens calls)
    (hc : c.Along P R c') (output : String) (calls : Calls) :
    renderAll go c' output (t :: tokens') calls = renderAll go c output (t :: tokens) calls := by
  by_cases ht : ∃ id, t = .pragmaTag id
  · obtain ⟨id, rfl⟩ := ht
    exact ih _ _ output calls (hc.withContentType id)
  · rw [not_exists] at ht
    rw [Simulation.renderAll_cons ht, Simulation.renderAll_cons ht, renderToken_same hgo hc calls t,
      hc.indentation]
    cases renderToken go c t calls with
    | error stop => rfl
    | ok r => exact ih c c' _ r.2 hc

/-- The same tokens. -/
theorem renderAll_same (tokens : List Token) (c c' : Context) (output : String) (calls : Calls)
    (hc : c.Along P R c') :
    renderAll go c' output tokens calls = renderAll go c output tokens calls := by
  induction tokens generalizing c c' output calls with
  | nil => rfl
  | cons t tokens ih => exact renderAll_later hgo t ih hc output calls

/-- **Several tokens that differ at one place.** -/
theorem renderAll_along (hP : ∀ t t', P t t' → t.Interchangeable t') {tokens tokens' : List Token}
    (h : ButOne (Token.Along P R) tokens tokens') (c c' : Context) (output : String)
    (calls : Calls) (hc : c.Along P R c') :
    renderAll go c' output tokens' calls = renderAll go c output tokens calls := by
  induction h generalizing c c' output calls with
  | same tokens => exact renderAll_same hgo tokens c c' output calls hc
  | @here t t' ht tokens =>
    obtain ⟨hpragma, hpragma'⟩ := ht.no_pragma hP
    rw [Simulation.renderAll_cons hpragma, Simulation.renderAll_cons hpragma',
      renderToken_along hgo hc calls hP ht, hc.indentation]
    cases renderToken go c t calls with
    | error stop => rfl
    | ok r => exact renderAll_same hgo tokens c c' _ r.2 hc
  | later t _ ih => exact renderAll_later hgo t ih hc output calls

end

/-- **Tokens that differ at one place are rendered alike**, to every depth. -/
theorem renderTokens_along (hP : ∀ t t', P t t' → t.Interchangeable t') (depth : Nat) :
    (renderTokens depth).Along P R := by
  induction depth with
  | zero => exact fun _ _ _ _ _ _ _ => rfl
  | succ depth ih => exact fun _ _ c c' calls h hc => renderAll_along ih hP h c c' "" calls hc

/-! ## Templates -/

/-- The tokens of two templates have the same output for all data without lambdas: with every
library, and also if the templates themselves are registered in it, under whatever name. -/
def Token.SameOutput (tokens tokens' : List Token) : Prop :=
  ∀ (data : Value) (types : ContentTypes) (depth : Nat) (calls : Calls),
    data.Everywhere Value.NotLambda →
      (∀ library, renderTokens depth tokens' (.root data types library) calls =
        renderTokens depth tokens (.root data types library) calls) ∧
      ∀ (library : Library) (name : String) (own : ContentTypes),
        renderTokens depth tokens'
            (.root data types (some (library.register name ⟨tokens', own⟩))) calls =
          renderTokens depth tokens
            (.root data types (some (library.register name ⟨tokens, own⟩))) calls

theorem Token.sameOutput_of_butOne (hP : ∀ t t', P t t' → t.Interchangeable t')
    {tokens tokens' : List Token} (h : ButOne (Token.Along P R) tokens tokens') :
    SameOutput tokens tokens' := by
  intro data types depth calls hdata
  have root {library library' : Option Library}
      (ht : ∀ name, Option.Rel (fun t t' => ButOne (Token.Along P R) t.tokens t'.tokens)
        (library.bind (·.find? name)) (library'.bind (·.find? name))) :
      renderTokens depth tokens' (.root data types library') calls =
        renderTokens depth tokens (.root data types library) calls :=
    renderTokens_along hP depth _ _ _ _ calls h
      ⟨rfl, fun _ => .none, ht, List.forall_mem_singleton.mpr hdata⟩
  have same (t : Option Template) :
      Option.Rel (fun t t' => ButOne (Token.Along P R) t.tokens t'.tokens) t t := by
    cases t with
    | none => exact .none
    | some t => exact .some (.same t.tokens)
  refine ⟨fun library => root fun name => same _, fun library name own => root fun other => ?_⟩
  simp only [Option.bind_some, Library.find?, Library.register, Entries.lookup_put]
  split_ifs
  · exact .some h
  · exact same _

end Mustache
