import Mathlib
import Mustache.Config.Basic
import Mustache.Proofs.Template.Law
import Mustache.Template.Basic

/-!
# The shape of a template

* **`Token.definitionFree_of_parseWith`**: no definition of a block is left in a template, since
  what stands directly inside a parent becomes its overrides;
* **`Token.tidy_of_parseWith`**: a text is one line at most, and an indentation is blank;
  **`Token.lines_of_parseWith`** spells out what that means;
* `Template.Compiled`, `Library.Compiled`: templates that come from sources.
-/

namespace Mustache

namespace Token

/-- The token is not the definition of a block. -/
def NoDefinition (t : Token) : Prop := ∀ name body, t ≠ .definitionTag name body

/-- No definition of a block in or under the token, apart from the token itself if it is directly
inside a parent. -/
def DefinitionFree (inside : Bool) (t : Token) : Prop :=
  Throughout NoDefinition t ∨
    inside = true ∧ ∃ name body, t = .definitionTag name body ∧ Everywhere NoDefinition body

theorem definitionFree_of_bodies_nil {inside : Bool} {t : Token} (hb : t.bodies = [])
    (ht : NoDefinition t) : DefinitionFree inside t := .inl (throughout_of_bodies_nil hb ht)

theorem everywhere_noDefinition {tokens : List Token} (h : ∀ t ∈ tokens, DefinitionFree false t) :
    Everywhere NoDefinition tokens :=
  everywhere_iff.mpr fun t ht => (h t ht).resolve_right (by simp)

theorem definitionFree_law (types : ContentTypes) : Draft.Law types DefinitionFree where
  text _ _ _ := definitionFree_of_bodies_nil rfl nofun
  variableTag _ _ := definitionFree_of_bodies_nil rfl nofun
  verbatimTag _ _ := definitionFree_of_bodies_nil rfl nofun
  partialTag _ _ _ _ := definitionFree_of_bodies_nil rfl nofun
  pragmaTag _ _ _ := definitionFree_of_bodies_nil rfl nofun
  sectionTag _ _ _ _ hb :=
    .inl (throughout_of_bodies_singleton rfl nofun (everywhere_noDefinition hb))
  invertedTag _ _ _ _ hb :=
    .inl (throughout_of_bodies_singleton rfl nofun (everywhere_noDefinition hb))
  definitionTag name body hb := .inr ⟨rfl, name, body, rfl, everywhere_noDefinition hb⟩
  blockTag _ _ _ hb _ :=
    .inl (throughout_of_bodies_singleton rfl nofun (everywhere_noDefinition hb))
  parentTag _ target _ overrides ho _ := by
    refine .inl ⟨nofun, fun body hb => ?_⟩
    obtain ⟨e, he, rfl⟩ := List.mem_map.mp hb
    obtain h | ⟨-, _, _, hd, h⟩ := ho e he
    · exact absurd rfl (h.1 e.1 e.2)
    · cases hd
      exact h

/-- **No definition of a block is left in a template.** -/
theorem definitionFree_of_parseWith {d : Delimiters} {types : ContentTypes} {source : String}
    {tokens : List Token} (h : parseWith d types source = .ok tokens) :
    Everywhere NoDefinition tokens :=
  everywhere_noDefinition ((definitionFree_law types).parseWith h)

/-- A text is one line at most, and an indentation is blank. -/
def Tidy (t : Token) : Prop :=
  (∀ content, t = .text content → Text.IsLine content.toList) ∧
    ∀ i ∈ t.indentation?, Text.IsIndentation i.toList

theorem tidy_law (types : ContentTypes) : Draft.Law types fun _ => Throughout Tidy where
  text _ text h := throughout_of_bodies_nil rfl
    ⟨fun content e => by cases e; rwa [String.toList_ofList], nofun⟩
  variableTag _ _ := throughout_of_bodies_nil rfl ⟨nofun, nofun⟩
  verbatimTag _ _ := throughout_of_bodies_nil rfl ⟨nofun, nofun⟩
  partialTag _ _ _ h := throughout_of_bodies_nil rfl ⟨nofun, h⟩
  pragmaTag _ _ _ := throughout_of_bodies_nil rfl ⟨nofun, nofun⟩
  sectionTag _ _ _ _ hb :=
    throughout_of_bodies_singleton rfl ⟨nofun, nofun⟩ (everywhere_iff.mpr hb)
  invertedTag _ _ _ _ hb :=
    throughout_of_bodies_singleton rfl ⟨nofun, nofun⟩ (everywhere_iff.mpr hb)
  definitionTag _ _ hb :=
    throughout_of_bodies_singleton rfl ⟨nofun, nofun⟩ (everywhere_iff.mpr hb)
  blockTag _ _ _ hb hi := throughout_of_bodies_singleton rfl ⟨nofun, hi⟩ (everywhere_iff.mpr hb)
  parentTag _ target _ overrides ho hi := by
    refine ⟨⟨nofun, hi⟩, fun body hb => ?_⟩
    obtain ⟨e, he, rfl⟩ := List.mem_map.mp hb
    exact (ho e he).2 e.2 (List.mem_singleton.mpr rfl)

/-- **A text is one line at most, and an indentation is blank**, at any depth. -/
theorem tidy_of_parseWith {d : Delimiters} {types : ContentTypes} {source : String}
    {tokens : List Token} (h : parseWith d types source = .ok tokens) : Everywhere Tidy tokens :=
  everywhere_iff.mpr ((tidy_law types).parseWith h)

/-- **Texts are single lines, and indentations are spaces and tabs**, at any depth and whatever the
delimiters: no text is empty or has a line feed before its end, and no indentation is empty or has
anything else in it. -/
theorem lines_of_parseWith {d : Delimiters} {types : ContentTypes} {source : String}
    {tokens : List Token} (h : parseWith d types source = .ok tokens) :
    (∀ text, Occurs (.text text) tokens → text ≠ "" ∧ '\n' ∉ text.toList.dropLast) ∧
      ∀ t indentation, Occurs t tokens → t.indentation? = some indentation →
        indentation ≠ "" ∧ ∀ c ∈ indentation.toList, c = ' ' ∨ c = '\t' := by
  have nonempty {s : String} (hs : s.toList ≠ []) : s ≠ "" := by
    rintro rfl
    exact hs rfl
  have htidy := tidy_of_parseWith h
  constructor
  · intro text ho
    obtain ⟨hne, hline⟩ := (htidy _ ho).1 text rfl
    exact ⟨nonempty hne, hline⟩
  · intro t indentation ho hi
    obtain ⟨hne, hblank⟩ := (htidy t ho).2 indentation hi
    exact ⟨nonempty hne, fun c hc => Text.isInlineBlank_iff.mp (hblank c hc)⟩

/-- A parent that stands alone in a section fills in a block with two lines. -/
theorem lines_of_parseWith_parent :
    ∃ tokens t,
      parseWith .standard Config.builtIn.types
        "{{#a}}\n \t{{<p}}\n{{$b}}x\ny{{/b}}\n{{/p}}\n{{/a}}" = .ok tokens ∧
      Occurs (.text "x\n") tokens ∧ "x\n" ≠ "" ∧ '\n' ∉ "x\n".toList.dropLast ∧
      Occurs t tokens ∧ t.indentation? = some " \t" ∧
      " \t" ≠ "" ∧ ∀ c ∈ " \t".toList, c = ' ' ∨ c = '\t' := by
  let override : List Token := [.text "x\n", .text "y"]
  let parent : Token := .parentTag ⟨"p", false⟩ (some " \t") [("b", override)]
  let tokens : List Token := [.sectionTag (.plain "a")
    ⟨" \t{{<p}}\n{{$b}}x\ny{{/b}}\n{{/p}}\n", .standard⟩ [parent]]
  have h : parseWith .standard Config.builtIn.types
      "{{#a}}\n \t{{<p}}\n{{$b}}x\ny{{/b}}\n{{/p}}\n{{/a}}" = .ok tokens := by cbv
  have hparent : Occurs parent tokens := .inside (.head _) (.head _) (.here (.head _))
  have htext : Occurs (.text "x\n") tokens :=
    .inside (.head _) (.head _) (.inside (.head _) (.head _) (.here (.head _)))
  obtain ⟨htexts, hindentations⟩ := lines_of_parseWith h
  obtain ⟨hne, hline⟩ := htexts "x\n" htext
  exact ⟨tokens, parent, h, htext, hne, hline, hparent, rfl, hindentations parent " \t" hparent rfl⟩

end Token

/-! ## Compiled templates -/

/-- The template comes from a source. -/
def Template.Compiled (t : Template) : Prop :=
  ∃ types source, Template.compile types source = .ok t

theorem Template.compile_eq_ok {types : ContentTypes} {source : String} {t : Template} :
    compile types source = .ok t ↔
      Token.parse types source = .ok t.tokens ∧ t.contentTypes = types := by
  obtain ⟨tokens, ts⟩ := t
  unfold compile
  cases Token.parse types source with
  | error => exact ⟨nofun, fun ⟨h, _⟩ => nomatch h⟩
  | ok parsed => simp [Except.map, eq_comm]

theorem Template.Compiled.parsed {t : Template} (h : t.Compiled) :
    ∃ types source, Token.parse types source = .ok t.tokens := by
  obtain ⟨types, source, h⟩ := h
  exact ⟨types, source, (compile_eq_ok.mp h).1⟩

theorem Template.Compiled.definitionFree {t : Template} (h : t.Compiled) :
    Token.Everywhere Token.NoDefinition t.tokens := by
  obtain ⟨types, source, h⟩ := h.parsed
  exact Token.definitionFree_of_parseWith h

theorem Template.Compiled.tidy {t : Template} (h : t.Compiled) :
    Token.Everywhere Token.Tidy t.tokens := by
  obtain ⟨types, source, h⟩ := h.parsed
  exact Token.tidy_of_parseWith h

/-- Every template of the library comes from a source. -/
def Library.Compiled (l : Library) : Prop := ∀ e ∈ l.templates, e.2.Compiled

namespace Library

theorem Compiled.find? {l : Library} (h : l.Compiled) {name : String} {t : Template}
    (ht : l.find? name = some t) : t.Compiled := h _ (Entries.mem_of_lookup ht)

theorem compiled_empty (types : ContentTypes) : (empty types).Compiled := nofun

theorem Compiled.register {l : Library} (h : l.Compiled) {name : String} {t : Template}
    (ht : t.Compiled) : (l.register name t).Compiled := by
  intro e he
  obtain rfl | he := Entries.mem_put he
  · exact ht
  · exact h e he

end Library

end Mustache
