import Mustache.Proofs.Token.Occurs
import Mustache.Proofs.Value.Occurs

/-!
# Rendering the same tokens side by side

Two renderings of the same tokens run alongside each other if their contexts are related and every
piece of output that the first writes is related to what the second writes. What has to be checked
is small: how tokens write, how pieces join, and how names are resolved.

* `Simulation`: relations between values, indentations and outputs, and what tokens, content types
  and ends are admitted;
* `Simulation.Alongside` for contexts, kept by all that derives one context from another;
* `Simulation.Agree` for results, `Simulation.Lawful` for what has to be checked;
* **`Simulation.renderTokens_agree`**: to every depth, lawful renderings agree;
* `Value.Both`: the same values on both sides, with a property that transforms keep;
* `Simulation.equal`: renderings that write the same; **`renderTokens_overrides`**.
-/

namespace Mustache

/-- The expression that a token resolves. -/
def Token.expression? : Token → Option Expression
  | .variableTag e => some e
  | .verbatimTag e => some e
  | .sectionTag e _ _ => some e
  | .invertedTag e _ _ => some e
  | .partialTag target _ => if target.dynamic then some (.plain target.name) else none
  | .parentTag target _ _ => if target.dynamic then some (.plain target.name) else none
  | _ => none

/-- How one rendering of tokens is related to another. -/
structure Simulation where
  /-- The tokens that are rendered. -/
  token : Token → Prop
  /-- The values of the first rendering and those of the second. -/
  value : Value → Value → Prop
  /-- The content types that may become active. -/
  type : ContentType → Prop
  /-- The indentations of contexts. -/
  indentation : Option String → Option String → Prop
  /-- What the first writes and what the second writes. -/
  output : String → String → Prop
  /-- Why both may stop without an output. -/
  stop : Stop → Prop

/-- Related values have the same shape: sequences of related elements, maps, or the same value. -/
inductive Value.Alike (value : Value → Value → Prop) : Value → Value → Prop
  | sequence {items items' : List Value} (h : List.Forall₂ value items items') :
    Alike value (.sequence items) (.sequence items')
  | map (entries entries' : List (String × Value)) : Alike value (.map entries) (.map entries')
  | same {v : Value} (h : ∀ items, v ≠ .sequence items) : Alike value v v

theorem Value.Alike.isNull {value : Value → Value → Prop} {v v' : Value}
    (h : Value.Alike value v v') : v'.isNull = v.isNull := by
  cases h with
  | sequence | map | same => rfl

/-- A value has its own shape, if its elements are related to themselves. -/
theorem Value.Alike.refl {value : Value → Value → Prop} {v : Value}
    (h : ∀ items, v = .sequence items → ∀ u ∈ items, value u u) : Value.Alike value v v := by
  cases v with
  | sequence items => exact .sequence (List.forall₂_same.mpr (h items rfl))
  | map entries => exact .map entries entries
  | null | bool | int | float | text | lambda | object => exact .same nofun

namespace Simulation

/-- Contexts that run alongside each other differ in their values and in their indentation, and they
fill in the same blocks. -/
structure Alongside (S : Simulation) (c c' : Context) : Prop where
  top : S.value c.top c'.top
  below : List.Forall₂ S.value c.below c'.below
  position : c'.position = c.position
  indentation : S.indentation c.indentation c'.indentation
  overrides : ∀ name, c'.override? name = c.override? name
  contentType : c'.contentType = c.contentType
  contentTypes : c'.contentTypes = c.contentTypes
  library : c'.library = c.library
  type : S.type c.contentType
  defaultType : S.type c.contentTypes.defaultType
  registered : ∀ id type, S.token (.pragmaTag id) → c.contentTypes.find? id = some type →
    S.type type
  bodies : ∀ name body, c.override? name = some body → Token.Everywhere S.token body
  templates : ∀ l name t, c.library = some l → l.find? name = some t →
    Token.Everywhere S.token t.tokens

/-- Results that agree: related outputs after the same calls, or the same admitted end. -/
inductive Agree (S : Simulation) : Rendered → Rendered → Prop
  | ok {text text' : String} {calls : Calls} (h : S.output text text') :
    Agree S (.ok (text, calls)) (.ok (text', calls))
  | error {stop : Stop} (h : S.stop stop) : Agree S (.error stop) (.error stop)

/-- What has to be checked of a simulation. -/
structure Lawful (S : Simulation) : Prop where
  text : ∀ {content}, S.token (.text content) → S.output content content
  variableTag : ∀ {e type v v'}, S.token (.variableTag e) → S.type type → S.value v v' →
    S.output (type.escape v.render) (type.escape v'.render)
  verbatimTag : ∀ {e v v'}, S.token (.verbatimTag e) → S.value v v' → S.output v.render v'.render
  empty : S.output "" ""
  append : ∀ {out out' text text' i i'}, S.output out out' → S.output text text' →
    S.indentation i i' → S.output (Mustache.append out text i) (Mustache.append out' text' i')
  indentFirst : ∀ {t text text'}, S.token t → S.output text text' →
    S.output (Mustache.indentFirst t.indentation? text) (Mustache.indentFirst t.indentation? text')
  join : ∀ {t i i'}, S.token t → S.indentation i i' →
    S.indentation (Context.joinIndentation i t.indentation?)
      (Context.joinIndentation i' t.indentation?)
  definitionTag : ∀ {name body}, S.token (.definitionTag name body) → S.stop .strayDefinition
  depth : S.stop .depth
  disorder : ∀ {e c c' calls after}, S.Alongside c c' →
    Mustache.resolve c e calls = (.disorder, after) → S.stop .disorder
  resolve : ∀ {t e c c'} (calls : Calls), S.token t → e ∈ t.expression? → S.Alongside c c' →
    (resolve c' e calls).2 = (resolve c e calls).2 ∧
      Found.Rel S.value (resolve c e calls).1 (resolve c' e calls).1
  alike : ∀ {v v'}, S.value v v' → Value.Alike S.value v v'
  settle : ∀ {v v'} (input : String) (calls : Calls), S.value v v' →
    (v'.settle input calls).2 = (v.settle input calls).2 ∧
      S.value (v.settle input calls).1 (v'.settle input calls).1
  reparse : ∀ {number answer d types text tokens},
    S.value (.lambda number answer) (.lambda number answer) →
    Token.parseWith d types text = .ok tokens → Token.Everywhere S.token tokens

/-- A way to render bodies that agrees with itself in contexts that run alongside each other. -/
def Respects (S : Simulation) (go : Renderer) : Prop :=
  ∀ tokens c c' calls, Token.Everywhere S.token tokens → S.Alongside c c' →
    S.Agree (go tokens c calls) (go tokens c' calls)

variable {S : Simulation} {c c' : Context} {v v' : Value} {t : Token}

/-- Results that agree are the same, if related outputs are. -/
theorem Agree.eq {r r' : Rendered} (h : S.Agree r r')
    (ho : ∀ {text text'}, S.output text text' → text' = text) : r' = r := by
  cases h with
  | ok h => rw [ho h]
  | error => rfl

/-! ## Contexts -/

theorem Alongside.withObject (h : S.Alongside c c') (hv : S.value v v') :
    S.Alongside (c.withObject v) (c'.withObject v') :=
  { h with top := hv, below := .cons h.top h.below, position := rfl }

theorem Alongside.withElement (h : S.Alongside c c') (hv : S.value v v') (position : Position) :
    S.Alongside (c.withElement v position) (c'.withElement v' position) :=
  { h with top := hv, below := .cons h.top h.below, position := rfl }

theorem Alongside.withBlock (h : S.Alongside c c') {i : Option String}
    (hi : S.indentation (Context.joinIndentation c.indentation i)
      (Context.joinIndentation c'.indentation i)) :
    S.Alongside (c.withBlock i) (c'.withBlock i) :=
  { h with indentation := hi }

theorem Alongside.withContentType (h : S.Alongside c c') {id : String}
    (ht : S.token (.pragmaTag id)) :
    S.Alongside (c.withContentType id) (c'.withContentType id) := by
  have e : c'.contentTypes.find? id = c.contentTypes.find? id := by rw [h.contentTypes]
  unfold Context.withContentType
  rw [e]
  cases hf : c.contentTypes.find? id with
  | none => exact h
  | some type => exact { h with contentType := rfl, type := h.registered id type ht hf }

theorem Alongside.withPartial (h : S.Alongside c c') {i : Option String} {overrides : Overrides}
    (hi : S.indentation (Context.joinIndentation c.indentation i)
      (Context.joinIndentation c'.indentation i))
    (ho : ∀ body ∈ overrides.map Prod.snd, Token.Everywhere S.token body) :
    S.Alongside (c.withPartial i overrides) (c'.withPartial i overrides) := by
  have ho' (name : String) :
      (c'.withPartial i overrides).override? name = (c.withPartial i overrides).override? name := by
    have hn := h.overrides name
    simp only [Context.override?] at hn
    simp only [Context.override?, Context.withPartial, Entries.lookup_fill, hn]
  have ht : (c'.withPartial i overrides).contentType = (c.withPartial i overrides).contentType := by
    simp only [Context.withPartial, h.contentTypes]
  refine { h with
    position := rfl
    indentation := hi
    overrides := ho'
    contentType := ht
    type := h.defaultType
    bodies := fun name body hb => ?_ }
  · simp only [Context.override?, Context.withPartial, Entries.lookup_fill,
      Option.or_eq_some_iff] at hb
    obtain hb | ⟨-, hb⟩ := hb
    · exact h.bodies name body hb
    · exact ho body (List.mem_map_of_mem (Entries.mem_of_lookup hb))

/-- A template as a whole, on the one side possibly indented. -/
theorem Alongside.root {data data' : Value} {types : ContentTypes} {library : Option Library}
    {i : Option String} (hd : S.value data data') (hi : S.indentation none i)
    (hdefault : S.type types.defaultType)
    (hregistered : ∀ id type, S.token (.pragmaTag id) → types.find? id = some type → S.type type)
    (htemplates : ∀ l name t, library = some l → l.find? name = some t →
      Token.Everywhere S.token t.tokens) :
    S.Alongside (.root data types library) { Context.root data' types library with
      indentation := i } where
  top := hd
  below := .nil
  position := rfl
  indentation := hi
  overrides _ := rfl
  contentType := rfl
  contentTypes := rfl
  library := rfl
  type := hdefault
  defaultType := hdefault
  registered := hregistered
  bodies := nofun
  templates := htemplates

/-! ## Values -/

/-- What a section does with a value other than a sequence: its body as it is, nothing, or its body
around the value. -/
theorem renderPresent_cases (hv : ∀ items, v ≠ .sequence items) :
    (∀ go body c calls, renderPresent go v body c calls = go body c calls) ∨
      (∀ go body c calls, renderPresent go v body c calls = .ok ("", calls)) ∨
      ∀ go body c calls, renderPresent go v body c calls = go body (c.withObject v) calls := by
  have general (h : ∀ go body c calls, renderPresent go v body c calls =
      if v.isFalsy then .ok ("", calls) else go body (c.withObject v) calls) :
      (∀ go body c calls, renderPresent go v body c calls = .ok ("", calls)) ∨
        ∀ go body c calls, renderPresent go v body c calls = go body (c.withObject v) calls := by
    cases hf : v.isFalsy with
    | true => exact .inl fun go body c calls => by rw [h, hf]; rfl
    | false => exact .inr fun go body c calls => by rw [h, hf]; rfl
  cases v with
  | bool b =>
    cases b with
    | true => exact .inl fun _ _ _ _ => rfl
    | false => exact .inr (general fun _ _ _ _ => rfl)
  | sequence items => exact absurd rfl (hv items)
  | null | int | float | text | map | lambda | object => exact .inr (general fun _ _ _ _ => rfl)

/-- What an inverted section does with a value other than a sequence: its body as it is, or
nothing. -/
theorem renderAbsent_cases (hv : ∀ items, v ≠ .sequence items) :
    (∀ go body c calls, renderAbsent go v body c calls = go body c calls) ∨
      ∀ go body c calls, renderAbsent go v body c calls = .ok ("", calls) := by
  have h : ∀ go body c calls, renderAbsent go v body c calls =
      if v.isFalsy then go body c calls else .ok ("", calls) := by
    cases v with
    | sequence items => exact absurd rfl (hv items)
    | null | bool | int | float | text | map | lambda | object => exact fun _ _ _ _ => rfl
  cases hf : v.isFalsy with
  | true => exact .inl fun go body c calls => by rw [h, hf]; rfl
  | false => exact .inr fun go body c calls => by rw [h, hf]; rfl

section

variable (hS : S.Lawful) {go : Renderer} (hgo : S.Respects go) {body : List Token}
  (hb : Token.Everywhere S.token body) (calls : Calls)

include hS hgo hb

theorem renderElements_agree (h : S.Alongside c c') (length : Nat) {items items' : List Value}
    (hi : List.Forall₂ S.value items items') {index : Nat} {out out' : String}
    (ho : S.output out out') :
    S.Agree (renderElements go body c length index items out calls)
      (renderElements go body c' length index items' out' calls) := by
  induction hi generalizing index out out' calls with
  | nil => exact .ok ho
  | cons hv _ ih =>
    have hr := hgo body _ _ calls hb (h.withElement hv ⟨index, length⟩)
    rw [renderElements, renderElements]
    revert hr
    generalize go body (c.withElement _ _) calls = r, go body (c'.withElement _ _) calls = r'
    rintro (ht | he)
    · exact ih _ (hS.append ho ht h.indentation)
    · exact .error he

theorem renderPresent_agree (h : S.Alongside c c') (hv : S.value v v') :
    S.Agree (renderPresent go v body c calls) (renderPresent go v' body c' calls) := by
  cases hS.alike hv with
  | sequence hi =>
    simp only [renderPresent, ← hi.length_eq]
    exact renderElements_agree hS hgo hb calls h _ hi hS.empty
  | map entries entries' => exact hgo body _ _ calls hb (h.withObject hv)
  | same hs =>
    obtain e | e | e := renderPresent_cases hs <;> rw [e, e]
    · exact hgo body c c' calls hb h
    · exact .ok hS.empty
    · exact hgo body _ _ calls hb (h.withObject hv)

theorem renderAbsent_agree (h : S.Alongside c c') (hv : S.value v v') :
    S.Agree (renderAbsent go v body c calls) (renderAbsent go v' body c' calls) := by
  cases hS.alike hv with
  | sequence hi =>
    cases hi with
    | nil => exact hgo body _ _ calls hb (h.withObject hv)
    | cons => exact .ok hS.empty
  | map entries entries' => exact .ok hS.empty
  | same hs =>
    obtain e | e := renderAbsent_cases hs <;> rw [e, e]
    · exact hgo body c c' calls hb h
    · exact .ok hS.empty

end

/-! ## Tokens -/

section

variable (hS : S.Lawful) {go : Renderer} (hgo : S.Respects go) (h : S.Alongside c c')
  {e : Expression} {source : Source} {body : List Token} (calls : Calls)

include hS h

/-- Both come upon disorder, both find nothing, or both find related values, after the same
calls. -/
theorem resolve_cases (ht : S.token t) (he : e ∈ t.expression?) :
    ∃ after, (resolve c e calls = (.disorder, after) ∧ resolve c' e calls = (.disorder, after)) ∨
      (resolve c e calls = (.miss, after) ∧ resolve c' e calls = (.miss, after)) ∨
      ∃ v v', resolve c e calls = (.value v, after) ∧ resolve c' e calls = (.value v', after) ∧
        S.value v v' := by
  obtain ⟨hc, hr⟩ := hS.resolve calls ht he h
  revert hc hr
  generalize resolve c e calls = r, resolve c' e calls = r'
  obtain ⟨x, after⟩ := r
  obtain ⟨x', after'⟩ := r'
  rintro rfl hr
  cases hr with
  | disorder => exact ⟨_, .inl ⟨rfl, rfl⟩⟩
  | miss => exact ⟨_, .inr (.inl ⟨rfl, rfl⟩)⟩
  | value hv => exact ⟨_, .inr (.inr ⟨_, _, rfl, rfl, hv⟩)⟩

theorem renderVariable_agree {write : String → String} (ht : S.token t) (he : e ∈ t.expression?)
    (hw : ∀ {v v'}, S.value v v' → S.output (write v.render) (write v'.render)) :
    S.Agree (renderVariable write e c calls) (renderVariable write e c' calls) := by
  obtain ⟨after, ⟨r, r'⟩ | ⟨r, r'⟩ | ⟨v, v', r, r', hv⟩⟩ := resolve_cases hS h calls ht he
  · rw [renderVariable, renderVariable, r, r']
    exact .error (hS.disorder h r)
  · rw [renderVariable, renderVariable, r, r']
    exact .ok hS.empty
  · obtain ⟨hc, hv⟩ := hS.settle "" after hv
    simp only [renderVariable, r, r', hc, (hS.alike hv).isNull]
    refine .ok ?_
    split_ifs
    · exact hS.empty
    · exact hw hv

include hgo

theorem renderSection_agree (ht : S.token t) (he : e ∈ t.expression?)
    (hb : Token.Everywhere S.token body) :
    S.Agree (renderSection go e source body c calls) (renderSection go e source body c' calls) := by
  obtain ⟨after, ⟨r, r'⟩ | ⟨r, r'⟩ | ⟨v, v', r, r', hv⟩⟩ := resolve_cases hS h calls ht he
  · rw [renderSection, renderSection, r, r']
    exact .error (hS.disorder h r)
  · rw [renderSection, renderSection, r, r']
    exact .ok hS.empty
  rw [renderSection, renderSection, r, r']
  cases hS.alike hv with
  | sequence | map => exact renderPresent_agree hS hgo hb _ h hv
  | same hs =>
    cases v with
    | lambda number answer =>
      -- Both call the same lambda, and compile what it answers alike.
      have hw := (hS.settle source.raw after hv).2
      dsimp only
      generalize (Value.lambda number answer).settle source.raw after = s at hw ⊢
      obtain ⟨w, last⟩ := s
      cases w with
      | text content =>
        dsimp only
        rw [h.contentTypes]
        cases hp : Token.parseWith source.delimiters c.contentTypes content with
        | ok tokens => exact hgo tokens c c' last (hS.reparse hv hp) h
        | error => exact .ok hS.empty
      | _ => exact renderPresent_agree hS hgo hb _ h hw
    | _ => exact renderPresent_agree hS hgo hb _ h hv

theorem renderInverted_agree (ht : S.token t) (he : e ∈ t.expression?)
    (hb : Token.Everywhere S.token body) :
    S.Agree (renderInverted go e source body c calls)
      (renderInverted go e source body c' calls) := by
  obtain ⟨after, ⟨r, r'⟩ | ⟨r, r'⟩ | ⟨v, v', r, r', hv⟩⟩ := resolve_cases hS h calls ht he
  · rw [renderInverted, renderInverted, r, r']
    exact .error (hS.disorder h r)
  · rw [renderInverted, renderInverted, r, r']
    exact hgo body c c' _ hb h
  rw [renderInverted, renderInverted, r, r']
  cases hS.alike hv with
  | sequence | map => exact renderAbsent_agree hS hgo hb _ h hv
  | same hs =>
    cases v with
    | lambda number answer =>
      have hw := (hS.settle source.raw after hv).2
      dsimp only
      generalize (Value.lambda number answer).settle source.raw after = s at hw ⊢
      obtain ⟨w, last⟩ := s
      cases w with
      | text => exact .ok hS.empty
      | _ => exact renderAbsent_agree hS hgo hb _ h hw
    | _ => exact renderAbsent_agree hS hgo hb _ h hv

omit h in
/-- A body that is indented as a whole. -/
theorem indented_agree (ht : S.token t) {tokens : List Token} {d d' : Context}
    (hb : Token.Everywhere S.token tokens) (hd : S.Alongside d d') :
    S.Agree ((go tokens d calls).map fun (text, calls) => (indentFirst t.indentation? text, calls))
      ((go tokens d' calls).map fun (text, calls) =>
        (indentFirst t.indentation? text, calls)) := by
  have hr := hgo tokens d d' calls hb hd
  revert hr
  generalize go tokens d calls = r, go tokens d' calls = r'
  rintro (ho | hs)
  · exact .ok (hS.indentFirst ht ho)
  · exact .error hs

theorem renderBlock_agree {name : String} {default : List Token} {i : Option String}
    (ht : S.token (.blockTag name default i)) (hb : Token.Everywhere S.token default) :
    S.Agree (renderBlock go name default i c calls) (renderBlock go name default i c' calls) := by
  unfold renderBlock
  rw [h.overrides name]
  cases ho : c.override? name with
  | none => exact hgo default c c' calls hb h
  | some override =>
    have hd := h.withBlock (hS.join ht h.indentation)
    exact indented_agree hS hgo calls ht (h.bodies name override ho) hd

theorem renderNamed_agree {name : String} {overrides : Overrides} (ht : S.token t)
    (ho : ∀ body ∈ overrides.map Prod.snd, Token.Everywhere S.token body) :
    S.Agree (renderNamed go name t.indentation? overrides c calls)
      (renderNamed go name t.indentation? overrides c' calls) := by
  unfold renderNamed
  rw [h.library]
  cases hl : c.library.bind (·.find? name) with
  | none => exact .ok hS.empty
  | some named =>
    obtain ⟨l, hl, hn⟩ := Option.bind_eq_some_iff.mp hl
    have hd := h.withPartial (hS.join ht h.indentation) ho
    exact indented_agree hS hgo calls ht (h.templates l name named hl hn) hd

theorem renderTarget_agree {target : Target} {overrides : Overrides} (ht : S.token t)
    (he : target.dynamic = true → .plain target.name ∈ t.expression?)
    (ho : ∀ body ∈ overrides.map Prod.snd, Token.Everywhere S.token body) :
    S.Agree (renderTarget go target t.indentation? overrides c calls)
      (renderTarget go target t.indentation? overrides c' calls) := by
  unfold renderTarget
  split_ifs with hd
  · obtain ⟨after, ⟨r, r'⟩ | ⟨r, r'⟩ | ⟨v, v', r, r', hv⟩⟩ := resolve_cases hS h calls ht (he hd)
    · rw [r, r']
      exact .error (hS.disorder h r)
    · rw [r, r']
      exact .ok hS.empty
    rw [r, r']
    cases hS.alike hv with
    | sequence | map => exact .ok hS.empty
    | same hs =>
      cases v with
      | text => exact renderNamed_agree hS hgo h _ ht ho
      | _ => exact .ok hS.empty
  · exact renderNamed_agree hS hgo h calls ht ho

/-- One token. -/
theorem renderToken_agree (ht : Token.Throughout S.token t) :
    S.Agree (renderToken go c t calls) (renderToken go c' t calls) := by
  obtain ⟨ht, hb⟩ := ht
  cases t with
  | text content => exact .ok (hS.text ht)
  | variableTag e =>
    simp only [renderToken, h.contentType]
    exact renderVariable_agree hS h calls ht rfl fun hv => hS.variableTag ht h.type hv
  | verbatimTag e => exact renderVariable_agree hS h calls ht rfl fun hv => hS.verbatimTag ht hv
  | sectionTag e source body => exact renderSection_agree hS hgo h calls ht rfl (hb body (.head _))
  | invertedTag e source body =>
    exact renderInverted_agree hS hgo h calls ht rfl (hb body (.head _))
  | definitionTag name body => exact .error (hS.definitionTag ht)
  | blockTag name default i => exact renderBlock_agree hS hgo h calls ht (hb default (.head _))
  | partialTag target i =>
    exact renderTarget_agree hS hgo h calls ht (fun hd => by simp [Token.expression?, hd]) (by simp)
  | parentTag target i overrides =>
    exact renderTarget_agree hS hgo h calls ht (fun hd => by simp [Token.expression?, hd]) hb
  | pragmaTag id => exact .ok hS.empty

end

/-- Any token but a pragma writes its output, and then the others write theirs. -/
theorem renderAll_cons {go : Renderer} {t : Token} (ht : ∀ id, t ≠ .pragmaTag id) (c : Context)
    (out : String) (tokens : List Token) (calls : Calls) :
    renderAll go c out (t :: tokens) calls =
      (renderToken go c t calls).bind fun r =>
        renderAll go c (append out r.1 c.indentation) tokens r.2 := by
  rw [renderAll]
  · cases renderToken go c t calls <;> rfl
  · exact ht

/-- Several tokens in order. -/
theorem renderAll_agree (hS : S.Lawful) {go : Renderer} (hgo : S.Respects go)
    {tokens : List Token} (ht : Token.Everywhere S.token tokens) (h : S.Alongside c c')
    {out out' : String} (ho : S.output out out') (calls : Calls) :
    S.Agree (renderAll go c out tokens calls) (renderAll go c' out' tokens calls) := by
  induction tokens generalizing c c' out out' calls with
  | nil => exact .ok ho
  | cons t tokens ih =>
    obtain ⟨ht, hts⟩ := Token.everywhere_cons.mp ht
    have general (hp : ∀ id, t ≠ .pragmaTag id) :
        S.Agree (renderAll go c out (t :: tokens) calls)
          (renderAll go c' out' (t :: tokens) calls) := by
      have hr := renderToken_agree hS hgo h calls ht
      rw [renderAll_cons hp, renderAll_cons hp]
      revert hr
      generalize renderToken go c t calls = r, renderToken go c' t calls = r'
      rintro (hw | hs)
      · exact ih hts h (hS.append ho hw h.indentation) _
      · exact .error hs
    cases t with
    | pragmaTag id => exact ih hts (h.withContentType ht.1) ho calls
    | _ => exact general nofun

/-- **Lawful renderings agree**, to every depth. -/
theorem renderTokens_agree (hS : S.Lawful) (depth : Nat) : S.Respects (renderTokens depth) := by
  induction depth with
  | zero => exact fun _ _ _ _ _ _ => .error hS.depth
  | succ depth ih => exact fun _ _ _ calls ht h => renderAll_agree hS ih ht h hS.empty calls

end Simulation

/-! ## The same values on both sides -/

namespace Value

/-- The same value, with a property that holds everywhere in it. -/
def Both (q : Value → Prop) (v v' : Value) : Prop := v' = v ∧ Everywhere q v

variable {q : Value → Prop}

theorem Both.alike {v v' : Value} (h : Both q v v') : Alike (Both q) v v' := by
  obtain ⟨rfl, h⟩ := h
  refine .refl ?_
  rintro items rfl u hu
  exact ⟨rfl, h.items u hu⟩

theorem Both.settle {v v' : Value} (h : Both q v v') (input : String) (calls : Calls) :
    (v'.settle input calls).2 = (v.settle input calls).2 ∧
      Both q (v.settle input calls).1 (v'.settle input calls).1 := by
  obtain ⟨rfl, h⟩ := h
  exact ⟨rfl, rfl, h.settle input calls⟩

theorem eq_of_both {vs vs' : List Value} (h : List.Forall₂ (Both q) vs vs') : vs' = vs := by
  induction h with
  | nil => rfl
  | cons h _ ih => rw [h.1, ih]

theorem everywhere_of_both {vs vs' : List Value} (h : List.Forall₂ (Both q) vs vs') :
    ∀ v ∈ vs, Everywhere q v := by
  induction h with
  | nil => exact nofun
  | cons h _ ih => exact List.forall_mem_cons.mpr ⟨h.2, ih⟩

/-- Expressions resolve to the same values in the same objects. -/
theorem Stable.resolve_both (hq : Stable q) {c c' : Context} (htop : Both q c.top c'.top)
    (hbelow : List.Forall₂ (Both q) c.below c'.below) (hposition : c'.position = c.position)
    (e : Expression) (calls : Calls) :
    (Mustache.resolve c' e calls).2 = (Mustache.resolve c e calls).2 ∧
      Found.Rel (Both q) (Mustache.resolve c e calls).1 (Mustache.resolve c' e calls).1 := by
  have hb := eq_of_both hbelow
  have hr : Mustache.resolve c' e calls = Mustache.resolve c e calls := by
    unfold Mustache.resolve resolveName
    rw [htop.1, hb, hposition]
  have hv := List.forall_mem_cons.mpr ⟨htop.2, everywhere_of_both hbelow⟩
  rw [hr]
  refine ⟨rfl, ?_⟩
  cases hu : (Mustache.resolve c e calls).1 with
  | disorder => exact .disorder
  | miss => exact .miss
  | value u => exact .value ⟨rfl, hq.resolve hv hu⟩

theorem stable_true : Stable fun _ => True where
  bool _ := trivial
  int _ := trivial
  float _ := trivial
  reversed _ := trivial
  sorted _ _ := trivial
  enumerated _ := trivial
  text _ _ := trivial
  key _ _ := trivial
  entry _ _ := trivial

end Value

/-! ## The same output -/

namespace Simulation

/-- Renderings that write the same, of tokens with a property and values with another. -/
def equal (token : Token → Prop) (value : Value → Prop) (stop : Stop → Prop) : Simulation where
  token := token
  value := Value.Both value
  type _ := True
  indentation := Eq
  output := Eq
  stop := stop

theorem equal_lawful {token : Token → Prop} {value : Value → Prop} {stop : Stop → Prop}
    (hvalue : Value.Stable value)
    (hdefinition : ∀ {name body}, token (.definitionTag name body) → stop .strayDefinition)
    (hdepth : stop .depth)
    (hdisorder : ∀ {c : Context} {e calls}, (∀ v ∈ c.top :: c.below, v.Everywhere value) →
      (Mustache.resolve c e calls).1 = .disorder → stop .disorder)
    (hparse : ∀ {d types text tokens}, Token.parseWith d types text = .ok tokens →
      Token.Everywhere token tokens) : (equal token value stop).Lawful where
  text _ := rfl
  variableTag _ _ hv := by rw [hv.1]; rfl
  verbatimTag _ hv := by rw [hv.1]; rfl
  empty := rfl
  append ho ht hi := by rw [ho, ht, hi]; rfl
  indentFirst _ ht := by rw [ht]; rfl
  join _ hi := by rw [hi]; rfl
  definitionTag ht := hdefinition ht
  depth := hdepth
  disorder h hr := hdisorder (List.forall_mem_cons.mpr
    ⟨h.top.2, Value.everywhere_of_both h.below⟩) (by rw [hr])
  resolve calls _ _ h := hvalue.resolve_both h.top h.below h.position _ calls
  alike hv := hv.alike
  settle input calls hv := hv.settle input calls
  reparse _ hp := hparse hp

end Simulation

/-- **Which blocks are filled in is all that counts** of the overrides of a context. -/
theorem renderTokens_overrides {c c' : Context} {overrides : Overrides}
    (hc : c' = { c with overrides }) (h : ∀ name, c'.override? name = c.override? name)
    (depth : Nat) (tokens : List Token) (calls : Calls) :
    renderTokens depth tokens c' calls = renderTokens depth tokens c calls := by
  have hlawful : (Simulation.equal (fun _ => True) (fun _ => True) fun _ => True).Lawful :=
    Simulation.equal_lawful Value.stable_true (fun _ => trivial) trivial (fun _ _ => trivial)
      fun _ _ _ => trivial
  have hboth (v : Value) : Value.Both (fun _ => True) v v := ⟨rfl, fun _ _ => trivial⟩
  have halongside :
      (Simulation.equal (fun _ => True) (fun _ => True) fun _ => True).Alongside c c' := by
    subst hc
    exact {
      top := hboth c.top
      below := List.forall₂_same.mpr fun v _ => hboth v
      position := rfl
      indentation := rfl
      overrides := h
      contentType := rfl
      contentTypes := rfl
      library := rfl
      type := trivial
      defaultType := trivial
      registered := fun _ _ _ _ => trivial
      bodies := fun _ _ _ _ _ => trivial
      templates := fun _ _ _ _ _ _ _ => trivial }
  exact (Simulation.renderTokens_agree hlawful depth tokens c c' calls (fun _ _ => trivial)
    halongside).eq Eq.symm

end Mustache
