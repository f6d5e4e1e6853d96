import Mathlib
import Mustache.Config.Basic
import Mustache.Proofs.Render.Visits
import Mustache.Proofs.Template.Filling

/-!
# Pragmas name registered content types

A pragma that is read names a content type of the registry that the template is compiled against.
Rendering looks it up in the registry of the library, which is the same one if the library compiled
its templates. What a lambda answers is compiled against that registry as well. So it is of no
consequence what rendering does about a content type that is unknown.

* `Token.Registered`, **`Token.registered_of_parseWith`**;
* `renderAllOr`, `renderTokensOr`: rendering with a given result in place of what it does about a
  content type that is unknown; **`renderTokensOr_eq`**;
* **`Library.pragmas_registered`**.
-/

namespace Mustache

namespace Token

/-- If the token is a pragma, it names one of the content types. -/
def Registered (types : ContentTypes) (t : Token) : Prop :=
  ∀ id, t = .pragmaTag id → types.contains id = true

theorem registered_law (types : ContentTypes) :
    Draft.Law types fun _ => Throughout (Registered types) where
  text _ _ _ := throughout_of_bodies_nil rfl nofun
  variableTag _ _ := throughout_of_bodies_nil rfl nofun
  verbatimTag _ _ := throughout_of_bodies_nil rfl nofun
  partialTag _ _ _ _ := throughout_of_bodies_nil rfl nofun
  pragmaTag _ _ h := throughout_of_bodies_nil rfl (by rintro id ⟨⟩; exact h)
  sectionTag _ _ _ _ hb := throughout_of_bodies_singleton rfl nofun (everywhere_iff.mpr hb)
  invertedTag _ _ _ _ hb := throughout_of_bodies_singleton rfl nofun (everywhere_iff.mpr hb)
  definitionTag _ _ hb := throughout_of_bodies_singleton rfl nofun (everywhere_iff.mpr hb)
  blockTag _ _ _ hb _ := throughout_of_bodies_singleton rfl nofun (everywhere_iff.mpr hb)
  parentTag _ _ _ _ ho _ := by
    refine ⟨nofun, fun body hb => ?_⟩
    obtain ⟨e, he, rfl⟩ := List.mem_map.mp hb
    exact (ho e he).2 e.2 (List.mem_singleton.mpr rfl)

/-- **A pragma that is read names one of the content types**, at any depth. -/
theorem registered_of_parseWith {d : Delimiters} {types : ContentTypes} {source : String}
    {tokens : List Token} (h : parseWith d types source = .ok tokens) :
    Everywhere (Registered types) tokens :=
  everywhere_iff.mpr ((registered_law types).parseWith h)

end Token

/-! ## What rendering does about unknown content types -/

/-- `renderAll`, but with a given result if a pragma names a content type that is unknown. -/
def renderAllOr (unknown : Rendered) (go : Renderer) (c : Context) (output : String) :
    List Token → Calls → Rendered
  | [], calls => .ok (output, calls)
  | .pragmaTag id :: tokens, calls =>
    if c.contentTypes.contains id then
      renderAllOr unknown go (c.withContentType id) output tokens calls
    else unknown
  | token :: tokens, calls =>
    match renderToken go c token calls with
    | .error stop => .error stop
    | .ok (text, calls) =>
      renderAllOr unknown go c (append output text c.indentation) tokens calls

/-- `renderTokens`, but with a given result if a pragma names a content type that is unknown. -/
def renderTokensOr (unknown : Rendered) : Nat → Renderer
  | 0, _, _, _ => .error .depth
  | depth + 1, tokens, c, calls =>
    renderAllOr unknown (renderTokensOr unknown depth) c "" tokens calls

/-- Where pragmas name registered content types, the given result has no part. -/
theorem renderAllOr_eq (unknown : Rendered) (go : Renderer) {c : Context} {tokens : List Token}
    (h : ∀ t ∈ tokens, t.Registered c.contentTypes) (output : String) (calls : Calls) :
    renderAllOr unknown go c output tokens calls = renderAll go c output tokens calls := by
  induction tokens generalizing c output calls with
  | nil => rfl
  | cons t tokens ih =>
    obtain ⟨ht, htokens⟩ := List.forall_mem_cons.mp h
    by_cases hpragma : ∃ id, t = .pragmaTag id
    · obtain ⟨id, rfl⟩ := hpragma
      obtain ⟨type, he⟩ := c.withContentType_eq id
      rw [renderAllOr, renderAll, if_pos (ht id rfl), he]
      exact @ih { c with contentType := type } htokens output calls
    · rw [not_exists] at hpragma
      rw [renderAllOr, renderAll]
      · cases renderToken go c t calls with
        | error stop => rfl
        | ok x => exact ih htokens _ x.2
      · exact hpragma
      · exact hpragma

theorem Rendered.compositional_eq : Compositional Eq where
  same _ := rfl
  bind := by
    rintro r _ f f' rfl hf
    rw [show f = f' from funext hf]

/-- **To every depth**, what rendering does about unknown content types has no part, if pragmas name
registered ones in the tokens and in all that the context can bring in. -/
theorem renderTokensOr_eq (unknown : Rendered) (depth : Nat) {tokens : List Token} {c : Context}
    (ht : Token.Everywhere (Token.Registered c.contentTypes) tokens)
    (hc : c.Holds (Token.Registered c.contentTypes)) (calls : Calls) :
    renderTokensOr unknown depth tokens c calls = renderTokens depth tokens c calls := by
  induction depth generalizing tokens c calls with
  | zero => rfl
  | succ depth ih =>
    rw [renderTokensOr, renderTokens, renderAllOr_eq unknown _ fun t hm => ht t (.here hm)]
    refine (renderAll_lift Rendered.compositional_eq
      (fun t hm type body c' hv calls => ?_) "" calls)
    obtain ⟨hbody, hc'⟩ := hv.holds ⟨hc.overrides, hc.templates⟩
      (Token.everywhere_iff.mp ht t hm) Token.registered_of_parseWith
    have htypes : c'.contentTypes = c.contentTypes := hv.contentTypes
    rw [← htypes] at hbody hc'
    exact ih hbody hc' calls

theorem Library.CompiledWith.registered {types : ContentTypes} {l : Library}
    (h : l.CompiledWith types) {name : String} {t : Template} (hn : l.find? name = some t) :
    Token.Everywhere (Token.Registered types) t.tokens := by
  obtain ⟨source, ht⟩ := h.templates _ (Entries.mem_of_lookup hn)
  exact Token.registered_of_parseWith (Template.compile_eq_ok.mp ht).1

/-- Rendering a template of a library that is compiled with its content types. -/
theorem Library.CompiledWith.renderTokensOr_eq {types : ContentTypes} {l : Library}
    (h : l.CompiledWith types) {name : String} {t : Template} (hn : l.find? name = some t)
    (unknown : Rendered) (depth : Nat) (data : Value) (calls : Calls) :
    renderTokensOr unknown depth t.tokens (.root data l.contentTypes (some l)) calls =
      renderTokens depth t.tokens (.root data l.contentTypes (some l)) calls := by
  obtain rfl := h.contentTypes
  have hc : (Context.root data l.contentTypes (some l)).Holds
      (Token.Registered l.contentTypes) := ⟨nofun, fun name named => h.registered⟩
  exact Mustache.renderTokensOr_eq unknown depth (h.registered hn) hc calls

/-- **Every pragma that is read names a registered content type**, at any depth of the template. So
a library that compiles all it is asked to add, whatever the order and whatever fails, **never
renders a pragma that names an unknown one**: it does not matter what rendering does about it. This
includes what lambdas answer. -/
theorem Library.pragmas_registered :
    (∀ d types source tokens, Token.parseWith d types source = .ok tokens →
      ∀ id, Token.Occurs (.pragmaTag id) tokens → types.contains id = true) ∧
    ∀ types requests l, (∀ r ∈ requests, Request.FromSource r) →
      (empty types).performAll requests = l → ∀ name t, l.find? name = some t →
        ∀ unknown depth data calls,
          renderTokensOr unknown depth t.tokens (.root data l.contentTypes (some l)) calls =
            renderTokens depth t.tokens (.root data l.contentTypes (some l)) calls := by
  constructor
  · intro d types source tokens h id ho
    exact Token.registered_of_parseWith h _ ho id rfl
  · rintro types requests l hr rfl name t hn unknown depth data calls
    exact ((CompiledWith.empty types).performAll hr).renderTokensOr_eq hn unknown depth data calls

/-- A lambda answers with a pragma, in a library that could not take all it was asked to add. -/
theorem Library.pragmas_registered_page :
    Config.builtIn.types.contains "TEXT" = true ∧ ∃ l t, (empty Config.builtIn.types).performAll
        [.source "p" "{{%CONTENT_TYPE: TEXT}}{{#f}}-{{/f}}{{x}}", .source "q" "{{#a}}",
          .file "r.mustache" (.error .notFound)] = l ∧ l.find? "p" = some t ∧
      renderTokensOr (.error .strayDefinition) 3 t.tokens (.root
        (.map [("f", .lambda 0 fun _ _ => .text "{{%CONTENT_TYPE: HTML}}{{x}}"), ("x", .text "<")])
        l.contentTypes (some l)) [] = .ok ("&lt;<", [(0, 1)]) := by
  let requests : List Request := [.source "p" "{{%CONTENT_TYPE: TEXT}}{{#f}}-{{/f}}{{x}}",
    .source "q" "{{#a}}", .file "r.mustache" (.error .notFound)]
  let tokens : List Token := [.pragmaTag "TEXT",
    .sectionTag (.plain "f") ⟨"-", .standard⟩ [.text "-"], .variableTag (.plain "x")]
  have hq : Token.parse Config.builtIn.types "{{#a}}" =
      .error ⟨.unclosedSection, 6, 1, 7, "{{#a}}"⟩ := by cbv
  have hp : Token.parse Config.builtIn.types "{{%CONTENT_TYPE: TEXT}}{{#f}}-{{/f}}{{x}}" =
      .ok tokens := by cbv
  have hl : (empty Config.builtIn.types).performAll requests =
      ⟨[("p", ⟨tokens, Config.builtIn.types⟩)], Config.builtIn.types⟩ := by
    simp [requests, performAll, perform, empty, register, registerSource, registerFile,
      Template.compile, hp, hq, Entries.put, Except.map]
  have hr : ∀ r ∈ requests, r.FromSource := by simp [requests, Request.FromSource]
  refine ⟨pragmas_registered.1 _ _ _ _ hp "TEXT" (.here (.head _)), _, _, hl, rfl, ?_⟩
  rw [pragmas_registered.2 _ _ _ hr hl "p" _ rfl]
  clear hp hq hl hr
  cbv

end Mustache
