import Mustache.Proofs.Render.Depth
import Mustache.Proofs.Render.Names
import Mustache.Proofs.Render.Parts
import Mustache.Proofs.Render.Sections
import Mustache.Proofs.Template.Copied

/-!
# Text between the elements of a list

In a section for a list, an inverted section for the last element holds what stands between two
elements. Its text is kept, line feeds and blanks included, since the tags around it share their
lines with others.

* `Token.parse_separated`: the tokens of such a template; `renderTokens_copies`: the text is written
  to the letter;
* `Value.isPlain`: neither a lambda nor a host object; `renderVariable_top`: such an object as it is
  written; `renderInverted_last`: the inverted section of an element;
* `renderTokens_element`, `renderElements_separated`: one element, and the elements from some
  position on;
* **`Template.render_separated`**.
-/

namespace Mustache

/-- **A section for a list with a text between its elements** is read as such, whatever the text. -/
theorem Token.parse_separated (types : ContentTypes) {sep : String} (hs : '{' ∉ sep.toList) :
    ∃ source inner texts, Token.Copies sep.toList texts ∧
      Token.parse types (Tag.standard "#items" ++ "{{.}}{{^last()}}" ++ sep ++
          "{{/last()}}{{/items}}") =
        .ok [.sectionTag (.plain "items") source
          [.variableTag (.plain "."), .invertedTag ⟨"", ["last"]⟩ inner texts]] := by
  have hitems : Tag.meet types .standard ("#items".toList ++ ['}', '}']) =
      .ok (.opening (.present (.plain "items")), []) := by cbv
  have hdot : Tag.meet types .standard (".".toList ++ ['}', '}']) =
      .ok (.interpolation false (.plain "."), []) := by cbv
  have hlast : Tag.meet types .standard ("^last()".toList ++ ['}', '}']) =
      .ok (.opening (.absent ⟨"", ["last"]⟩), []) := by cbv
  have hlast' : Tag.meet types .standard ("/last()".toList ++ ['}', '}']) =
      .ok (.closing ⟨"", ["last"]⟩, []) :=
    (@Tag.meet_sigil types .standard .close ("last()".toList ++ ['}', '}']) trivial).trans (by cbv)
  have hitems' : Tag.meet types .standard ("/items".toList ++ ['}', '}']) =
      .ok (.closing (.plain "items"), []) :=
    (@Tag.meet_sigil types .standard .close ("items".toList ++ ['}', '}']) trivial).trans (by cbv)
  generalize hsource : Tag.standard "#items" ++ "{{.}}{{^last()}}" ++ sep ++
    "{{/last()}}{{/items}}" = source
  have hrest : (Draft.start .standard source).cursor.rest =
      '{' :: '{' :: (("#items".toList ++ ['}', '}']) ++
        '{' :: '{' :: ((".".toList ++ ['}', '}']) ++
          '{' :: '{' :: (("^last()".toList ++ ['}', '}']) ++ (sep.toList ++
            '{' :: '{' :: (("/last()".toList ++ ['}', '}']) ++
              '{' :: '{' :: (("/items".toList ++ ['}', '}']) ++ [])))))) := by
    simp [Draft.start, Cursor.ofString, ← hsource]
  -- Only the first tag starts a line, which it shares with the brace behind it.
  obtain ⟨c₁, f, hc₁, hf, hfo, hfd, hrun₁⟩ :=
    Draft.run_enter rfl hitems (by simp) hrest fun _ => ⟨_, rfl⟩
  obtain ⟨c₂, hc₂, hrun₂⟩ := Draft.run_met (s := ⟨c₁, false, .standard, [], [f]⟩) rfl hdot hc₁
  obtain ⟨c₃, inner, texts, hcopies, hc₃, hrun₃⟩ := Draft.run_copied_absent
    (s := ⟨c₂, false, .standard, [.variableTag (.plain ".")], [f]⟩) rfl rfl hlast hlast' hs hc₂
  obtain ⟨body, hbody⟩ : ∃ body : List Token, body =
    [.variableTag (.plain "."), .invertedTag ⟨"", ["last"]⟩ ⟨inner, .standard⟩ texts] := ⟨_, rfl⟩
  obtain ⟨c₄, raw, hc₄, hrun₄⟩ := Draft.run_close_present
    (s := ⟨c₃, false, .standard, body.reverse, [f]⟩) rfl rfl rfl hf hitems' hc₃
  have hrun : (Draft.start .standard source).run types =
      .ok ⟨c₄, false, .standard, [.sectionTag (.plain "items") ⟨raw, .standard⟩ body], []⟩ :=
    calc (Draft.start .standard source).run types
      _ = Draft.run types ⟨c₂, false, .standard, [.variableTag (.plain ".")], [f]⟩ :=
        hrun₁.trans hrun₂
      _ = Draft.run types ⟨c₃, false, .standard, body.reverse, [f]⟩ := by rw [hrun₃, hbody]; rfl
      _ = _ := by rw [hrun₄, Draft.run_end hc₄, hfd, hfo, List.reverse_reverse]; rfl
  refine ⟨⟨raw, .standard⟩, ⟨inner, .standard⟩, texts, hcopies, ?_⟩
  rw [Token.parse, Token.parseWith, hrun, hbody]
  rfl

/-! ## Elements of a list -/

/-- Texts are written one after the other. -/
theorem renderAll_texts (go : Renderer) {c : Context} (hc : c.indentation = none)
    (parts : List (List Char)) (out : String) (calls : Calls) :
    renderAll go c out (parts.map fun part => .text (String.ofList part)) calls =
      .ok (out ++ String.ofList parts.flatten, calls) := by
  induction parts generalizing out with
  | nil => simp [renderAll]
  | cons part parts ih =>
    have ht (id : String) : Token.text (String.ofList part) ≠ .pragmaTag id := by simp
    rw [List.map_cons, Simulation.renderAll_cons ht, renderToken]
    show renderAll go c (append out (String.ofList part) c.indentation) _ _ = _
    rw [ih, hc, append_none, List.flatten_cons, String.ofList_append, String.append_assoc]

theorem renderTokens_copies {text : String} {texts : List Token}
    (h : Token.Copies text.toList texts) {c : Context} (hc : c.indentation = none) (depth : Nat)
    (calls : Calls) : renderTokens (depth + 1) texts c calls = .ok (text, calls) := by
  obtain ⟨parts, hp, rfl⟩ := h
  rw [renderTokens, renderAll_texts _ hc, hp, String.ofList_toList, String.empty_append]

/-- The value is neither a lambda nor a host object. -/
def Value.isPlain : Value → Bool
  | .lambda _ _ => false
  | .object _ _ _ _ _ => false
  | _ => true

namespace Value

variable {v : Value}

theorem notLambda_of_isPlain (hv : v.isPlain = true) : v.NotLambda := by
  rintro number answer rfl
  nomatch hv

theorem render_of_isNull (hv : v.isPlain = true) (hn : v.isNull = true) : v.render = "" := by
  cases v with
  | null => rw [render]
  | object => nomatch hv
  | bool | int | float | text | sequence | map | lambda => nomatch hn

end Value

section

variable {c : Context} {p : Position}

/-- The current object, as it is written. -/
theorem renderVariable_top {write : String → String} (hw : write "" = "")
    (hc : c.top.isPlain = true) (calls : Calls) :
    renderVariable write (.plain ".") c calls = .ok (write c.top.render, calls) := by
  have hr : resolve c (.plain ".") calls = (.value c.top, calls) := by
    refine resolve_plain_eq_value.mpr ?_
    rw [resolveName]
    exact if_pos rfl
  rw [renderVariable, hr]
  dsimp only
  rw [(Value.notLambda_of_isPlain hc).settle]
  dsimp only
  split_ifs with hn
  · rw [Value.render_of_isNull hc hn, hw]
  · rfl

/-- An inverted section for the last element. -/
theorem renderInverted_last (hp : c.position = some p) (go : Renderer) (source : Source)
    (body : List Token) (calls : Calls) :
    renderInverted go ⟨"", ["last"]⟩ source body c calls =
      if p.isLast then .ok ("", calls) else go body c calls := by
  have hr : resolve c ⟨"", ["last"]⟩ calls = (.value (.bool p.isLast), calls) := by
    rw [resolve, resolveName, if_neg (by simp), if_pos (by simp), hp]
    rfl
  rw [(renderSections_of_resolve hr (Value.notLambda_of_isPlain rfl) go body).2]
  cases p.isLast <;> rfl

end

section

variable {sep : String} {texts : List Token} (hs : Token.Copies sep.toList texts) {c : Context}
  (hc : c.indentation = none) (hw : c.contentType.escape "" = "") (inner : Source) (depth : Nat)
  (calls : Calls)

include hs hc hw

/-- An element, and the separator behind it if it is not the last. -/
theorem renderTokens_element {p : Position} (hp : c.position = some p)
    (ht : c.top.isPlain = true) :
    renderTokens (depth + 2)
        [.variableTag (.plain "."), .invertedTag ⟨"", ["last"]⟩ inner texts] c calls =
      .ok (c.contentType.escape c.top.render ++ if p.isLast then "" else sep, calls) := by
  rw [renderTokens]
  simp only [renderAll, renderToken, renderVariable_top hw ht, renderInverted_last hp,
    renderTokens_copies hs hc, empty_append, hc]
  cases p.isLast <;> simp [append_none]

/-- **Elements from some position to the end**, with the separator between them. -/
theorem renderElements_separated {length : Nat} {items : List Value} {index : Nat}
    (hl : index + items.length = length) (hi : ∀ x ∈ items, x.isPlain = true) (out : String) :
    renderElements (renderTokens (depth + 2))
        [.variableTag (.plain "."), .invertedTag ⟨"", ["last"]⟩ inner texts] c length index items
        out calls =
      .ok (out ++ sep.intercalate (items.map fun x => c.contentType.escape x.render), calls) := by
  induction items generalizing index out with
  | nil => simp [renderElements]
  | cons x items ih =>
    obtain ⟨hx, hi⟩ := List.forall_mem_cons.mp hi
    have helement := renderTokens_element hs (c := c.withElement x ⟨index, length⟩) hc hw inner
      depth calls rfl hx
    rw [renderElements_cons, helement, Except.bind, ih (by rw [← hl, List.length_cons]; omega) hi,
      hc, append_none]
    -- Only the last element has no other behind it.
    cases items with
    | nil =>
      have hlast : Position.isLast ⟨index, length⟩ = true := by
        simpa [Position.isLast] using hl
      simp [hlast, Context.withElement]
    | cons y items =>
      have hlast : Position.isLast ⟨index, length⟩ = false := by
        simp only [List.length_cons] at hl
        simp only [Position.isLast, beq_eq_false_iff_ne]
        omega
      simp [hlast, Context.withElement, String.append_assoc]

end

/-- **Elements are joined by the text between them.** Whatever text without a brace stands in the
inverted section, lists of any length are rendered with this very text between the escaped texts of
their elements, and nowhere else. -/
theorem Template.render_separated {sep : String} (hs : '{' ∉ sep.toList) :
    ∃ t, Template.compile Config.builtIn.types
        (Tag.standard "#items" ++ "{{.}}{{^last()}}" ++ sep ++ "{{/last()}}{{/items}}") = .ok t ∧
      ∀ items : List Value, (∀ x ∈ items, x.isPlain = true) → ∀ calls,
        t.render (.map [("items", .sequence items)]) calls =
          .ok (sep.intercalate (items.map fun x => EscapeTable.markup.escape x.render), calls) := by
  obtain ⟨source, inner, texts, hcopies, hparse⟩ :=
    Token.parse_separated Config.builtIn.types hs
  refine ⟨⟨_, Config.builtIn.types⟩, by rw [Template.compile, hparse]; rfl,
    fun items hi calls => ?_⟩
  obtain ⟨c, hc⟩ : ∃ c : Context,
      c = .root (.map [("items", .sequence items)]) Config.builtIn.types none := ⟨_, rfl⟩
  have hr : resolve c (.plain "items") calls = (.value (.sequence items), calls) := by
    rw [hc]
    rfl
  have hindentation : c.indentation = none := by rw [hc]; rfl
  have htype : c.contentType.escape = EscapeTable.markup.escape := by rw [hc]; rfl
  have h : renderTokens 3 [.sectionTag (.plain "items") source
      [.variableTag (.plain "."), .invertedTag ⟨"", ["last"]⟩ inner texts]] c calls =
        .ok (sep.intercalate (items.map fun x => EscapeTable.markup.escape x.render), calls) := by
    rw [renderTokens_singleton, renderToken,
      (renderSections_of_resolve hr (Value.notLambda_of_isPlain rfl) _ _).1,
      renderPresent, renderElements_separated hcopies hindentation (by rw [htype]; rfl) inner 0
        calls (Nat.zero_add _) hi, htype, String.empty_append]
  rw [Template.render, ← hc, ← h]
  exact renderTokens_of_le (by decide) _ c calls (by simp [h])

/-- A separator of two lines with blanks around, and elements that are null, false, a text with a
mark and a list. -/
theorem Template.render_separated_lines :
    '{' ∉ " ,\n  & ".toList ∧ ∃ t, Template.compile Config.builtIn.types
        (Tag.standard "#items" ++ "{{.}}{{^last()}}" ++ " ,\n  & " ++ "{{/last()}}{{/items}}") =
          .ok t ∧
      t.render (.map [("items", .sequence
          [.null, .bool false, .text "<", .sequence [.int 1, .null]])]) [] =
        .ok (" ,\n  & false ,\n  & &lt; ,\n  & 1,", []) := by
  have hs : '{' ∉ " ,\n  & ".toList := by decide
  obtain ⟨t, ht, h⟩ := Template.render_separated hs
  exact ⟨hs, t, ht, h _ (by decide) []⟩

end Mustache
