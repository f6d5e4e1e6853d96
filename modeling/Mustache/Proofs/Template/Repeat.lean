import Mustache.Config.Basic
import Mustache.Proofs.Tag.Repeat
import Mustache.Proofs.Template.Passage

/-!
# What opens is closed by repeating it

A section, a block or a parent without a body: an open tag, and right behind it the close tag with
the same text.

* `Draft.step_at_start`: a step where a tag starts;
* `Draft.close_of_nil`: a body without tokens;
* **`Token.parse_repeat_iff`**: the open tag and its repetition are a template, unless the tag is a
  parent with a name that no close tag can hold; `Token.parse_repeat_call`: one of those.
-/

namespace Mustache

namespace Draft

variable {types : ContentTypes} {s : Draft} {blanks text : List Char} {tag inner c : Cursor}

/-- A step where a tag starts at once. -/
theorem step_at_start (types : ContentTypes) (hd : s.delimiters.Proper)
    (hi : s.cursor.Reads s.delimiters.start.toList inner) :
    s.step types = (Tag.read types s.delimiters s.cursor.offset inner).bind
      fun (t, c) => s.place [] s.cursor t c :=
  step_of_start types hd (absurd rfl) nofun ⟨rfl, rfl⟩ hi

/-- A body without tokens can be closed. -/
theorem close_of_nil {f : Frame} {outer : List Frame} (hf : s.frames = f :: outer)
    (ht : s.tokens = []) (tag c : Cursor) :
    ∃ next, s.close [] tag f.opening.closing c = .ok next ∧ next.frames = outer := by
  have htokens : (s.leave [] c).tokens = [] := by
    obtain ⟨-, c', -, h⟩ | ⟨-, h⟩ := s.leave_cases [] c <;> rw [h]
    · exact ht
    · exact ht
  have hsome (raw : String) (alone : Bool) : ∃ tokens, Frame.tokens? f outer raw [] alone =
      some tokens := by
    unfold Frame.tokens?
    split
    · exact ⟨_, rfl⟩
    · exact ⟨_, rfl⟩
    · split_ifs <;> exact ⟨_, rfl⟩
    · exact ⟨_, rfl⟩
  obtain ⟨tokens, htoken⟩ := hsome
    (String.ofList (f.body.take (f.body.length - tag.rest.length))) (s.leave [] c).lineStart
  unfold close
  rw [hf]
  dsimp only
  rw [if_neg (not_not.mpr rfl), htokens, List.reverse_nil, htoken]
  exact ⟨_, rfl, rfl⟩

/-- The step over a tag that opens: the body starts right behind it, if a tag comes next. -/
theorem step_opening {kind : Char} {o : Opening} {more : List Char} (hd : s.delimiters = .standard)
    (h : Tag.Opens types kind text o)
    (hr : s.cursor.rest = '{' :: '{' :: (kind :: (text ++ ['}', '}']) ++ '{' :: '{' :: more)) :
    ∃ f next, s.step types = .ok next ∧ f.opening = o ∧ next.frames = f :: s.frames ∧
      next.cursor.rest = '{' :: '{' :: more ∧ next.delimiters = .standard ∧ next.tokens = [] := by
  have hinner : (s.cursor.past ['{', '{']
      (kind :: (text ++ ['}', '}']) ++ '{' :: '{' :: more)).rest =
      kind :: (text ++ ['}', '}']) ++ '{' :: '{' :: more := rfl
  obtain ⟨c, hread, hc⟩ := h.anywhere s.cursor.offset hinner
  have hend : c.lineEnd? = none := by
    unfold Cursor.lineEnd? Cursor.skip Cursor.take
    rw [hc]
    rfl
  have hleave : s.leave [] c = { s with cursor := c, lineStart := false } := by
    unfold leave
    rw [hend, ite_self]
    rfl
  have hstep := step_at_start types (hd ▸ Delimiters.proper_standard) (reads_start hd hr)
  rw [hd, hread] at hstep
  refine ⟨_, _, hstep, rfl, rfl, ?_, ?_, rfl⟩
  · show (s.leave [] c).cursor.rest = _
    rw [hleave, hc]
  · show (s.leave [] c).delimiters = .standard
    rw [leave_delimiters, hd]

/-- **The last close tag of a source**, right behind the tag that it closes. -/
theorem run_closing (types : ContentTypes) {f : Frame} (hd : s.delimiters = .standard)
    (hf : s.frames = [f]) (ht : s.tokens = []) (hu : Text.Unmet ['}', '}'] text ['}', '}'])
    (hr : s.cursor.rest = '{' :: '{' :: '/' :: (text ++ ['}', '}'])) :
    (∃ final, s.run types = .ok final) ↔
      Tag.closing? (Text.trim text) = some f.opening.closing := by
  obtain ⟨c, hc, hread⟩ := Tag.read_closing types hu s.cursor.offset
    (c := s.cursor.past ['{', '{'] _) rfl
  have hproper : s.delimiters.Proper := hd ▸ Delimiters.proper_standard
  have hstep := step_at_start types hproper (reads_start hd hr)
  rw [hd, hread] at hstep
  rw [run_eq hproper.start_ne_nil (by rw [hr]; nofun), hstep]
  cases hclosing : Tag.closing? (Text.trim text) with
  | none => simp [Except.bind]
  | some e =>
    rw [Option.some.injEq]
    constructor
    · rintro ⟨final, hfinal⟩
      change (s.close [] s.cursor e c).bind (run types) = .ok final at hfinal
      cases hp : s.close [] s.cursor e c with
      | error fault =>
        rw [hp] at hfinal
        nomatch hfinal
      | ok next =>
        obtain ⟨g, outer, -, hg, he, -⟩ := close_spec hp
        rw [hf] at hg
        rw [← he, (List.cons.inj hg).1]
    · rintro rfl
      obtain ⟨next, hp, hframes⟩ := close_of_nil hf ht s.cursor c
      obtain ⟨used, hused⟩ := reads_of_place (t := .closing f.opening.closing) hp
      have hnext : next.cursor.rest = [] := (List.append_eq_nil_iff.mp (hused.1.symm.trans hc)).2
      refine ⟨next, ?_⟩
      show (s.close [] s.cursor f.opening.closing c).bind (run types) = _
      rw [hp]
      show next.run types = _
      rw [run_end hnext, hframes]
      rfl

end Draft

/-- **What opens is closed by repeating it.** The open tag of a section or a block, with whatever
text it accepts, and right behind it the close tag with the same text are a template. So are those
of a parent if and only if a close tag can hold its name. -/
theorem Token.parse_repeat_iff {types : ContentTypes} {kind : Char} {text : String} {o : Opening}
    (h : Tag.Opens types kind text.toList o) :
    (∃ tokens, Token.parse types (Tag.standard (String.singleton kind ++ text) ++
        Tag.standard ("/" ++ text)) = .ok tokens) ↔
      ∀ target, o = .parent target → target.Repeatable := by
  rw [← h.repeats_iff]
  generalize hsource : Tag.standard (String.singleton kind ++ text) ++
    Tag.standard ("/" ++ text) = source
  have hrest : (Draft.start .standard source).cursor.rest =
      '{' :: '{' :: (kind :: (text.toList ++ ['}', '}']) ++
        '{' :: '{' :: '/' :: (text.toList ++ ['}', '}'])) := by
    simp [Draft.start, Cursor.ofString, ← hsource]
  obtain ⟨f, next, hstep, rfl, hframes, hnext, hdelimiters, htokens⟩ :=
    Draft.step_opening rfl h hrest
  rw [← Draft.run_closing types hdelimiters hframes htokens h.text_spec.1 hnext]
  have hrun : (Draft.start .standard source).run types = _ :=
    Draft.run_eq Delimiters.proper_standard.start_ne_nil
      (by rw [hrest]; exact List.cons_ne_nil _ _)
  rw [hstep] at hrun
  unfold Token.parse
  simp only [Token.parseWith_eq_ok, hrun]
  constructor
  · rintro ⟨_, final, hfinal, -⟩
    exact ⟨final, hfinal⟩
  · rintro ⟨final, hfinal⟩
    exact ⟨_, final, hfinal, rfl⟩

/-- A section over a call, and its repetition. -/
theorem Token.parse_repeat_section :
    ∃ o, Tag.Opens Config.builtIn.types '#' "sorted(items)".toList o ∧
      ∃ tokens, Token.parse Config.builtIn.types (Tag.standard
        (String.singleton '#' ++ "sorted(items)") ++ Tag.standard ("/" ++ "sorted(items)")) =
          .ok tokens := by
  have ho : Tag.Opens Config.builtIn.types '#' "sorted(items)".toList
      (.present ⟨"items", ["sorted"]⟩) :=
    ⟨⟨18, []⟩, by cbv, rfl⟩
  have hsection (target : Target) : Opening.present ⟨"items", ["sorted"]⟩ ≠ .parent target := by
    intro h
    cases h
  exact ⟨_, ho, (Token.parse_repeat_iff ho).mpr fun target h => absurd h (hsection target)⟩

/-- A parent whose name has parentheses: it can be opened, but its repetition is read as a call and
does not close it. -/
theorem Token.parse_repeat_call :
    Tag.Opens Config.builtIn.types '<' "f(x)".toList (.parent ⟨"f(x)", false⟩) ∧
      Token.parse Config.builtIn.types "{{<f(x)}}{{/f(x)}}" =
        .error ⟨.mismatchedClose, 9, 1, 10, "{{<f(x)}}{{/f(x)}}"⟩ := by
  have ho : Tag.Opens Config.builtIn.types '<' "f(x)".toList (.parent ⟨"f(x)", false⟩) :=
    ⟨⟨9, []⟩, by cbv, rfl⟩
  have hp : Token.parse Config.builtIn.types "{{<f(x)}}{{/f(x)}}" =
      .error ⟨.mismatchedClose, 9, 1, 10, "{{<f(x)}}{{/f(x)}}"⟩ := by
    cbv
  exact ⟨ho, hp⟩

end Mustache
