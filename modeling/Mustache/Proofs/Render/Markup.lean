import Mathlib
import Mustache.Config.Basic
import Mustache.Proofs.Render.Join
import Mustache.Proofs.Render.Simulation
import Mustache.Proofs.Template.Shape

/-!
# No markup from data

With the built-in configuration a template that has no markup of its own has none in its output,
apart from the entities that stand for it. Everything else that reaches the output is escaped, and
indentations are blank.

* `Markup.Inert`, closed under joining, and `Markup.inert_escape`;
* `Token.Unmarked`: no markup in a text, and nothing that writes values as they are;
* **`inert_of_renderTokens`**.
-/

namespace Mustache

namespace Markup

/-- The characters with a meaning in markup. -/
def marks : List Char := ['&', '<', '>', '"', '\'']

/-- What stands for them. -/
def entities : List String := ["&amp;", "&lt;", "&gt;", "&quot;", "&#39;"]

/-- No markup but entities: no other mark than `&`, and every `&` begins an entity. -/
def Inert (cs : List Char) : Prop :=
  (∀ c ∈ cs, c ∈ marks → c = '&') ∧
    ∀ before after, cs = before ++ '&' :: after →
      ∃ entity ∈ entities, entity.toList <+: '&' :: after

theorem inert_of_no_marks {cs : List Char} (h : ∀ c ∈ cs, c ∉ marks) : Inert cs := by
  refine ⟨fun c hc hm => absurd hm (h c hc), ?_⟩
  rintro before after rfl
  exact absurd (by decide) (h '&' (List.mem_append_right before (.head after)))

theorem Inert.append {cs ds : List Char} (hc : Inert cs) (hd : Inert ds) : Inert (cs ++ ds) := by
  refine ⟨fun c h => (List.mem_append.mp h).elim (hc.1 c) (hd.1 c), fun before after h => ?_⟩
  obtain ⟨m, -, rfl⟩ | ⟨m, rfl, hm⟩ := List.append_eq_append_iff.mp h
  · exact hd.2 m after rfl
  · obtain ⟨rfl, rfl⟩ | ⟨m, rfl, rfl⟩ := List.cons_eq_append_iff.mp hm
    · exact hd.2 [] after rfl
    · obtain ⟨entity, he, hp⟩ := hc.2 before m rfl
      exact ⟨entity, he, hp.trans (List.prefix_append ('&' :: m) ds)⟩

/-- An entity is inert, since it has no mark after its first character. -/
theorem inert_entity {entity : String} (he : entity ∈ entities) : Inert entity.toList := by
  have shape : ∀ entity ∈ entities,
      ∃ name, entity.toList = '&' :: name ∧ ∀ c ∈ name, c ∉ marks := by
    simp only [entities, List.forall_mem_cons]
    refine ⟨⟨['a', 'm', 'p', ';'], rfl, ?_⟩, ⟨['l', 't', ';'], rfl, ?_⟩, ⟨['g', 't', ';'], rfl, ?_⟩,
      ⟨['q', 'u', 'o', 't', ';'], rfl, ?_⟩, ⟨['#', '3', '9', ';'], rfl, ?_⟩, nofun⟩ <;> simp [marks]
  obtain ⟨name, hn, hm⟩ := shape entity he
  rw [hn]
  refine ⟨List.forall_mem_cons.mpr ⟨fun _ => rfl, fun c hc h => absurd h (hm c hc)⟩, ?_⟩
  intro before after h
  obtain ⟨-, h⟩ | ⟨front, -, h⟩ := List.cons_eq_append_iff.mp h
  · exact ⟨entity, he, [], by rw [List.append_nil, hn, h]⟩
  · refine absurd (by decide) (hm '&' ?_)
    rw [h]
    exact List.mem_append_right front (.head after)

/-- A character that is no mark stands for itself. -/
theorem replace_of_not_mem {c : Char} (hc : c ∉ marks) : EscapeTable.markup.replace c = [c] := by
  have keys : ∀ e ∈ EscapeTable.markup, e.1 ∈ marks := by decide
  have hl : EscapeTable.markup.lookup c = none := List.lookup_eq_none_iff.mpr fun e he =>
    bne_iff_ne.mpr fun h => hc (h ▸ keys e he)
  rw [EscapeTable.replace, hl]

theorem inert_replace (c : Char) : Inert (EscapeTable.markup.replace c) := by
  by_cases hc : c ∈ marks
  · have replaced : ∀ c ∈ marks, ∃ entity ∈ entities,
        EscapeTable.markup.replace c = entity.toList := by
      simp only [marks, entities, List.forall_mem_cons]
      refine ⟨⟨"&amp;", ?_, rfl⟩, ⟨"&lt;", ?_, rfl⟩, ⟨"&gt;", ?_, rfl⟩, ⟨"&quot;", ?_, rfl⟩,
        ⟨"&#39;", ?_, rfl⟩, nofun⟩ <;> simp
    obtain ⟨entity, he, h⟩ := replaced c hc
    rw [h]
    exact inert_entity he
  · rw [replace_of_not_mem hc]
    exact inert_of_no_marks (List.forall_mem_singleton.mpr hc)

/-- What is escaped is inert. -/
theorem inert_escape (s : String) : Inert (EscapeTable.markup.escape s).toList := by
  rw [EscapeTable.escape, String.toList_ofList]
  induction s.toList with
  | nil => exact inert_of_no_marks (List.forall_mem_nil _)
  | cons c cs ih =>
    rw [List.flatMap_cons]
    exact (inert_replace c).append ih

end Markup

open Markup

/-- The token has no markup in a text, writes no value as it is and leaves the content type. -/
def Token.Unmarked (t : Token) : Prop :=
  (∀ content, t = .text content → ∀ c ∈ content.toList, c ∉ marks) ∧
    (∀ expr, t ≠ .verbatimTag expr) ∧ ∀ id, t ≠ .pragmaTag id

theorem Text.IsIndentation.inert {cs : List Char} (h : Text.IsIndentation cs) : Inert cs := by
  refine inert_of_no_marks fun c hc hm => ?_
  have blank : ∀ c ∈ marks, Text.isInlineBlank c = false := by
    simp [marks, Text.isInlineBlank]
  exact absurd (h.2 c hc) (by simp [blank c hm])

theorem Token.Tidy.inert {t : Token} (h : t.Tidy) : Inert (t.indentation?.getD "").toList := by
  cases hi : t.indentation? with
  | none => exact inert_of_no_marks nofun
  | some blanks => exact (h.2 blanks hi).inert

/-- The same output on both sides, which is inert. -/
def Simulation.markup : Simulation where
  token t := t.Tidy ∧ t.Unmarked
  value := Value.Both Value.NotLambda
  type type := type = EscapeTable.markup.contentType
  indentation i i' := i' = i ∧ Inert (i.getD "").toList
  output text text' := text' = text ∧ Inert text.toList
  stop _ := True

theorem inert_append {out text : String} {i : Option String} (ho : Inert out.toList)
    (ht : Inert text.toList) (hi : Inert (i.getD "").toList) :
    Inert (append out text i).toList := by
  rw [toList_append]
  split_ifs
  · exact ho
  · exact ho.append (hi.append ht)
  · exact ho.append ht

theorem inert_indentFirst {i : Option String} {text : String} (ht : Inert text.toList)
    (hi : Inert (i.getD "").toList) : Inert (indentFirst i text).toList := by
  rw [toList_indentFirst]
  split_ifs
  · exact inert_of_no_marks nofun
  · exact hi.append ht

theorem Simulation.markup_lawful : markup.Lawful where
  text ht := ⟨rfl, inert_of_no_marks (ht.2.1 _ rfl)⟩
  variableTag := by
    rintro e type v _ - rfl ⟨rfl, -⟩
    exact ⟨rfl, inert_escape _⟩
  verbatimTag ht := absurd rfl (ht.2.2.1 _)
  empty := ⟨rfl, inert_of_no_marks nofun⟩
  append := by
    rintro out _ text _ i _ ⟨rfl, ho⟩ ⟨rfl, ht⟩ ⟨rfl, hi⟩
    exact ⟨rfl, inert_append ho ht hi⟩
  indentFirst := by
    rintro t text _ ht ⟨rfl, hx⟩
    exact ⟨rfl, inert_indentFirst hx ht.1.inert⟩
  join := by
    rintro t i _ ht ⟨rfl, hi⟩
    refine ⟨rfl, ?_⟩
    rw [getD_joinIndentation, String.toList_append]
    exact hi.append ht.1.inert
  definitionTag _ := trivial
  depth := trivial
  disorder _ _ := trivial
  resolve calls _ _ h := Value.stable_notLambda.resolve_both h.top h.below h.position _ calls
  alike hv := hv.alike
  settle input calls hv := hv.settle input calls
  reparse hv := absurd rfl (hv.2.here _ _)

/-- **A template without markup of its own has none in its output but entities**, with the built-in
configuration and a library of such templates, if the data has no lambdas. -/
theorem inert_of_renderTokens {t : Template} {library : Option Library} {data : Value}
    {depth : Nat} {calls after : Calls} {out : String} (ht : t.Compiled)
    (hu : Token.Everywhere Token.Unmarked t.tokens) (hl : ∀ l ∈ library, l.Compiled)
    (hlu : ∀ l ∈ library, ∀ e ∈ l.templates, Token.Everywhere Token.Unmarked e.2.tokens)
    (hd : data.Everywhere Value.NotLambda)
    (hr : renderTokens depth t.tokens (.root data Config.builtIn.types library) calls =
      .ok (out, after)) : Inert out.toList := by
  have admitted {t : Template} (ht : t.Compiled) (hu : Token.Everywhere Token.Unmarked t.tokens) :
      Token.Everywhere Simulation.markup.token t.tokens := fun u ho => ⟨ht.tidy u ho, hu u ho⟩
  have h : Simulation.markup.Alongside (.root data Config.builtIn.types library)
      (.root data Config.builtIn.types library) :=
    Simulation.Alongside.root ⟨rfl, hd⟩ ⟨rfl, inert_of_no_marks nofun⟩ rfl
      (fun id _ h => absurd rfl (h.2.2.2 id))
      fun l name t hl' hn => admitted ((hl l hl').find? hn)
        (hlu l hl' _ (Entries.mem_of_lookup hn))
  have agree := Simulation.renderTokens_agree Simulation.markup_lawful depth t.tokens _ _ calls
    (admitted ht hu) h
  rw [hr] at agree
  cases agree with
  | ok ho => exact ho.2

/-- A page shows a text that is full of markup, in a template that another one includes. -/
theorem inert_of_renderTokens_page :
    ∃ out after, Inert out.toList ∧ out = "a: &lt;b x=&quot;&#39;1&#39;&quot;&gt; &amp;amp;" ∧
      ∃ t library, Template.Compiled t ∧ Library.Compiled library ∧
        renderTokens 3 t.tokens (.root (.map [("x", .text "<b x=\"'1'\"> &amp;")])
          Config.builtIn.types (some library)) [] = .ok (out, after) := by
  have hp : Token.parse Config.builtIn.types "a: {{>p}}" = .ok
      [.text "a: ", .partialTag ⟨"p", false⟩ none] := by cbv
  have hv : Token.parse Config.builtIn.types "{{x}}" = .ok [.variableTag (.plain "x")] := by cbv
  have ht : Template.Compiled ⟨[.text "a: ", .partialTag ⟨"p", false⟩ none],
      Config.builtIn.types⟩ := ⟨_, _, by rw [Template.compile, hp]; rfl⟩
  have hl : Library.Compiled ((Library.empty Config.builtIn.types).register "p"
      ⟨[.variableTag (.plain "x")], Config.builtIn.types⟩) :=
    (Library.compiled_empty _).register ⟨_, _, by rw [Template.compile, hv]; rfl⟩
  have hd : (Value.map [("x", .text "<b x=\"'1'\"> &amp;")]).Everywhere Value.NotLambda :=
    Value.everywhere_map (by simp [Value.NotLambda])
      (List.forall_mem_singleton.mpr (Value.everywhere_text (by simp [Value.NotLambda])))
  have hu : Token.Everywhere Token.Unmarked [.text "a: ", .partialTag ⟨"p", false⟩ none] :=
    Token.everywhere_iff.mpr (List.forall_mem_cons.mpr
      ⟨Token.throughout_of_bodies_nil rfl (by simp [Token.Unmarked, marks]),
        List.forall_mem_singleton.mpr
          (Token.throughout_of_bodies_nil rfl (by simp [Token.Unmarked]))⟩)
  have hlu : Token.Everywhere Token.Unmarked [.variableTag (.plain "x")] :=
    Token.everywhere_iff.mpr (List.forall_mem_singleton.mpr
      (Token.throughout_of_bodies_nil rfl (by simp [Token.Unmarked])))
  have hr : renderTokens 3 [.text "a: ", .partialTag ⟨"p", false⟩ none]
      (.root (.map [("x", .text "<b x=\"'1'\"> &amp;")]) Config.builtIn.types
        (some ((Library.empty Config.builtIn.types).register "p"
          ⟨[.variableTag (.plain "x")], Config.builtIn.types⟩))) [] =
        .ok ("a: &lt;b x=&quot;&#39;1&#39;&quot;&gt; &amp;amp;", []) := rfl
  refine ⟨_, _, ?_, rfl, _, _, ht, hl, hr⟩
  refine inert_of_renderTokens ht hu ?_ ?_ hd hr
  · rintro l ⟨⟩
    exact hl
  · rintro l ⟨⟩ e he
    cases List.mem_singleton.mp he
    exact hlu

end Mustache
