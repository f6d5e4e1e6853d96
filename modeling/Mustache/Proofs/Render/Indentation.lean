import Mathlib
import Mustache.Config.Basic
import Mustache.Proofs.Render.Join
import Mustache.Proofs.Render.Simulation
import Mustache.Proofs.Template.PartialLine
import Mustache.Proofs.Template.Shape
import Mustache.Proofs.Text.Indent
import Mustache.Proofs.Value.Unbroken

/-!
# The indentation of a partial

A partial on an indented line is rendered as it is elsewhere, with the indentation in front of each
of its lines. The indentation is put in piece by piece, wherever output is joined, so two renderings
of the same tokens are compared: with the indentation and without.

* `ContentType.KeepsLines`, with `Config.keepsLines` for escape tables;
* `Simulation.indented`: the second output is the first with its lines after the first indented;
* **`render_partialLine`**.
-/

namespace Mustache

open Text

/-- The content type puts no line feed into a text without one. -/
def ContentType.KeepsLines (type : ContentType) : Prop :=
  ∀ s, Unbroken s.toList → Unbroken (type.escape s).toList

theorem EscapeTable.keepsLines {table : EscapeTable} (h : ∀ e ∈ table, Unbroken e.2.toList) :
    table.contentType.KeepsLines := by
  intro s hs
  show Unbroken (String.ofList (s.toList.flatMap table.replace)).toList
  rw [String.toList_ofList]
  refine unbroken_flatMap fun c hc => ?_
  unfold EscapeTable.replace
  split
  · rename_i replacement hl
    exact h _ (Entries.mem_of_lookup hl)
  · exact hs.subset (List.forall_mem_singleton.mpr hc)

/-- Escape tables keep lines if nothing in them has a line feed. -/
theorem Config.keepsLines {c : Config} (h : ∀ t ∈ c.tables, ∀ e ∈ t.2, Unbroken e.2.toList)
    (id : String) (type : ContentType) (ht : c.types.find? id = some type) : type.KeepsLines := by
  obtain ⟨t, hm, e⟩ := List.mem_map.mp (Entries.mem_of_lookup ht)
  cases e
  exact EscapeTable.keepsLines (h t hm)

/-- The second output has `w` before all lines but the first, the second context before all
lines. -/
def Simulation.indented (w : String) : Simulation where
  token := Token.Tidy
  value := Value.Both Value.Unbroken
  type := ContentType.KeepsLines
  indentation i i' := i'.getD "" = w ++ i.getD "" ∧ Unbroken (i.getD "").toList
  output text text' := text'.toList = indentAfter w.toList text.toList
  stop _ := True

theorem Text.IsIndentation.unbroken {cs : List Char} (h : IsIndentation cs) : Unbroken cs :=
  fun hn => absurd (h.2 _ hn) (by decide)

theorem Token.Tidy.unbroken {t : Token} (h : t.Tidy) :
    Unbroken (t.indentation?.getD "").toList := by
  cases hi : t.indentation? with
  | none => decide
  | some blanks => exact (h.2 blanks hi).unbroken

section

variable {w : String}

/-- A piece that is joined, with its lines indented, is the indented piece joined. -/
theorem indented_append {out out' text text' : String} {i i' : Option String}
    (ho : out'.toList = indentAfter w.toList out.toList)
    (ht : text'.toList = indentAfter w.toList text.toList)
    (hi : i'.getD "" = w ++ i.getD "") (hb : Unbroken (i.getD "").toList) :
    (append out' text' i').toList = indentAfter w.toList (append out text i).toList := by
  rw [toList_append, toList_append, ho, ht, getLast?_indentAfter, hi]
  by_cases hn : text.toList = []
  · rw [if_pos (indentAfter_eq_nil.mpr hn), if_pos hn]
  rw [if_neg (mt indentAfter_eq_nil.mp hn), if_neg hn]
  by_cases hl : out.toList.getLast? = some '\n'
  · have hg : (i.getD "").toList.getLast? ≠ some '\n' := fun e => hb (List.mem_of_getLast? e)
    rw [if_pos hl, if_pos hl, indentAfter_append (List.append_ne_nil_of_right_ne_nil _ hn),
      if_pos hl, indentAfter_append hn, if_neg hg, indentAfter_unbroken hb, String.toList_append]
    simp only [List.nil_append, List.append_assoc]
  · rw [if_neg hl, if_neg hl, List.nil_append, List.nil_append, indentAfter_append hn, if_neg hl,
      List.nil_append]

theorem indented_indentFirst {text text' : String} {i : Option String}
    (ht : text'.toList = indentAfter w.toList text.toList) (hb : Unbroken (i.getD "").toList) :
    (indentFirst i text').toList = indentAfter w.toList (indentFirst i text).toList := by
  rw [toList_indentFirst, toList_indentFirst, ht]
  by_cases hn : text.toList = []
  · rw [if_pos (indentAfter_eq_nil.mpr hn), if_pos hn]
    rfl
  have hg : (i.getD "").toList.getLast? ≠ some '\n' := fun e => hb (List.mem_of_getLast? e)
  rw [if_neg (mt indentAfter_eq_nil.mp hn), if_neg hn, indentAfter_append hn, if_neg hg,
    indentAfter_unbroken hb, List.nil_append]

/-- The output of a partial that is indented: the lines after the first already are. -/
theorem indented_partial {out out' : String} (hw : w.toList ≠ [])
    (ho : out'.toList = indentAfter w.toList out.toList) :
    (append "" (indentFirst (some w) out') none).toList = indentLines w.toList out.toList := by
  rw [toList_append, toList_indentFirst, ho, indentLines]
  by_cases hn : out.toList = []
  · simp [hn, indentAfter]
  · simp [hn, indentAfter_eq_nil, hw]

theorem Simulation.indented_lawful : (indented w).Lawful where
  text {content} ht := by
    show content.toList = indentAfter w.toList content.toList
    rw [indentAfter_line (ht.1 content rfl).2]
  variableTag := by
    rintro e type _ v - hc ⟨rfl, hv⟩
    exact (indentAfter_unbroken (hc _ (v.unbroken_render hv))).symm
  verbatimTag := by
    rintro e _ v - ⟨rfl, hv⟩
    exact (indentAfter_unbroken (v.unbroken_render hv)).symm
  empty := rfl
  append ho ht hi := indented_append ho ht hi.1 hi.2
  indentFirst ht hx := indented_indentFirst hx ht.unbroken
  join {t i i'} ht hi := by
    constructor
    · rw [getD_joinIndentation, getD_joinIndentation, hi.1, String.append_assoc]
    · rw [getD_joinIndentation, String.toList_append]
      exact unbroken_append.mpr ⟨hi.2, ht.unbroken⟩
  definitionTag _ := trivial
  depth := trivial
  disorder _ _ := trivial
  resolve calls _ _ h := Value.stable_unbroken.resolve_both h.top h.below h.position _ calls
  alike hv := hv.alike
  settle input calls hv := hv.settle input calls
  reparse hv := hv.2.here.elim

/-- A partial writes what the template that it names does. -/
theorem renderTokens_partialTag {c : Context} {name : String} {t : Template}
    (ht : c.library.bind (·.find? name) = some t) (i : Option String) (depth : Nat)
    (calls : Calls) :
    renderTokens (depth + 1) [.partialTag ⟨name, false⟩ i] c calls =
      (renderTokens depth t.tokens (c.withPartial i []) calls).map fun (out, after) =>
        (append "" (indentFirst i out) c.indentation, after) := by
  simp only [renderTokens, renderAll, renderToken, renderTarget, renderNamed, ht,
    Bool.false_eq_true, if_false]
  cases renderTokens depth t.tokens _ calls with
  | error => rfl
  | ok => rfl

/-- **A partial on an indented line** is rendered as the template it names, with the indentation in
front of every line and nothing else changed. This holds to every depth, so that the one rendering
ends if the other does. The data has no lambdas, host objects and line feeds, and the content types
add no line feeds. -/
theorem render_partialLine {library : Library} {name : String} {t : Template} {data : Value}
    (hl : library.Compiled) (ht : library.find? name = some t)
    (hn : Target.Writable name.toList) (hw : IsIndentation w.toList)
    (hd : data.Everywhere Value.Unbroken)
    (htypes : ∀ id type, library.contentTypes.find? id = some type → type.KeepsLines) :
    ∃ wrapped,
      Template.compile library.contentTypes (w ++ Tag.standard (">" ++ name) ++ "\n") =
        .ok wrapped ∧
      ∀ depth calls,
        renderTokens (depth + 1) wrapped.tokens
            (.root data library.contentTypes (some library)) calls =
          (renderTokens depth t.tokens
            (.root data library.contentTypes (some library)) calls).map fun (out, after) =>
              (String.ofList (indentLines w.toList out.toList), after) := by
  refine ⟨_, Template.compile_partialLine hw.2 hn, fun depth calls => ?_⟩
  have hi : indentation? w.toList = some w := by
    rw [indentation?, if_neg (mt List.isEmpty_iff.mp hw.1), String.ofList_toList]
  have hdefault : library.contentTypes.defaultType.KeepsLines :=
    htypes library.contentTypes.defaultId _ (Option.some_get _).symm
  have h : (Simulation.indented w).Alongside (.root data library.contentTypes (some library))
      ((Context.root data library.contentTypes (some library)).withPartial (some w) []) :=
    Simulation.Alongside.root ⟨rfl, hd⟩
      ⟨by simp [Context.joinIndentation, Context.root], by decide⟩ hdefault
      (fun id type _ => htypes id type) fun l name t e hf => by cases e; exact (hl.find? hf).tidy
  have agree := Simulation.renderTokens_agree Simulation.indented_lawful depth t.tokens _ _ calls
    (hl.find? ht).tidy h
  rw [hi, renderTokens_partialTag (c := .root data library.contentTypes (some library)) ht]
  revert agree
  generalize renderTokens depth t.tokens _ calls = r, renderTokens depth t.tokens _ calls = r'
  rintro (ho | hs)
  · refine congrArg Except.ok (Prod.ext (String.toList_injective ?_) rfl)
    rw [String.toList_ofList]
    exact indented_partial hw.1 ho
  · rfl

end

/-- A list of two elements, in a template that is itself indented by the one that includes it. -/
theorem render_partialLine_list :
    ∃ library wrapped, Library.Compiled library ∧
      Template.compile library.contentTypes "  {{>p}}\n" = .ok wrapped ∧
      renderTokens 6 wrapped.tokens
        (.root (.map [("x", .sequence [.int 1, .text "<"])]) library.contentTypes
          (some library)) [] = .ok ("  a:\n   - 1\n   - &lt;\n", []) := by
  have hp : Token.parse Config.builtIn.types "a:\n {{>q}}" = .ok
      [.text "a:\n", .partialTag ⟨"q", false⟩ (some " ")] := by cbv
  have hq : Token.parse Config.builtIn.types "{{#x}}\n- {{.}}\n{{/x}}" = .ok
      [.sectionTag (.plain "x") ⟨"- {{.}}\n", .standard⟩
        [.text "- ", .variableTag (.plain "."), .text "\n"]] := by cbv
  have hl : Library.Compiled (((Library.empty Config.builtIn.types).register "p"
      ⟨[.text "a:\n", .partialTag ⟨"q", false⟩ (some " ")], Config.builtIn.types⟩).register "q"
      ⟨[.sectionTag (.plain "x") ⟨"- {{.}}\n", .standard⟩
        [.text "- ", .variableTag (.plain "."), .text "\n"]], Config.builtIn.types⟩) :=
    ((Library.compiled_empty _).register ⟨_, _, by rw [Template.compile, hp]; rfl⟩).register
      ⟨_, _, by rw [Template.compile, hq]; rfl⟩
  have hd : (Value.map [("x", .sequence [.int 1, .text "<"])]).Everywhere Value.Unbroken := by
    have hmark : Value.Everywhere Value.Unbroken (.text "<") :=
      Value.everywhere_text (by decide : Text.Unbroken "<".toList)
    have hitems : Value.Everywhere Value.Unbroken (.sequence [.int 1, .text "<"]) :=
      Value.everywhere_sequence trivial (List.forall_mem_cons.mpr
        ⟨Value.stable_unbroken.everywhere_int 1, List.forall_mem_singleton.mpr hmark⟩)
    exact Value.everywhere_map
      (List.forall_mem_singleton.mpr (by decide : Text.Unbroken "x".toList))
      (List.forall_mem_singleton.mpr hitems)
  have hn : Target.Writable "p".toList := ⟨by decide, by simp [isBlank], by decide, by decide⟩
  have hw : IsIndentation "  ".toList := ⟨by decide, by simp [isInlineBlank]⟩
  obtain ⟨wrapped, hc, hr⟩ := render_partialLine hl rfl hn hw hd (Config.keepsLines (by decide))
  refine ⟨_, wrapped, hl, hc, ?_⟩
  rw [hr]
  rfl

end Mustache
