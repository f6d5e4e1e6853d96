import Mustache.Config.Basic
import Mustache.Proofs.Tag.Sigil
import Mustache.Proofs.Template.Append
import Mustache.Proofs.Template.Edit

/-!
# A line with nothing but a comment

Where a line starts, reading passes over a comment on a line of its own and is in the same state as
before. So the line can be put in wherever reading gets to the start of a line.

* `CommentLine`: such a line, between given delimiters; `CommentLine.text`;
* `CommentLine.read`, `CommentLine.lineEnd`: the comment and the end of its line;
  **`CommentLine.step`**, `CommentLine.edited`: the step over the line, and the draft behind it;
* **`Token.parse_commentLine`**.
-/

namespace Mustache

/-- A comment on a line of its own: spaces and tabs may surround it, and the end delimiter comes
first where the comment ends. -/
structure CommentLine (d : Delimiters) where
  blanks : List Char
  comment : List Char
  trailing : List Char
  ending : List Char
  blanks_inline : ∀ c ∈ blanks, Text.isInlineBlank c = true
  comment_stops : Text.cut? d.stop.toList (comment ++ d.stop.toList) = some (comment, [])
  trailing_inline : ∀ c ∈ trailing, Text.isInlineBlank c = true
  ending_eq : ending = ['\n'] ∨ ending = ['\r', '\n']

namespace CommentLine

variable {d : Delimiters} {types : ContentTypes} {rest : List Char}

/-- What follows the end delimiter. -/
def behind (line : CommentLine d) : List Char := line.trailing ++ line.ending

/-- What follows the exclamation mark. -/
def inner (line : CommentLine d) : List Char := line.comment ++ d.stop.toList

/-- The characters of the line. -/
def text (line : CommentLine d) : List Char :=
  line.blanks ++ (d.start.toList ++ ('!' :: (line.inner ++ line.behind)))

theorem text_ne_nil (line : CommentLine d) : line.text ≠ [] := by simp [text]

/-- The comment is read up to its end delimiter. -/
theorem read (line : CommentLine d) (types : ContentTypes) {tag m : Cursor}
    (hm : tag.Reads d.start.toList m) (hr : m.rest = '!' :: (line.inner ++ rest)) :
    ∃ c, Tag.read types d tag.offset m = .ok (.comment, c) ∧ m.Reads ('!' :: line.inner) c ∧
      c.rest = rest := by
  obtain ⟨-, hu⟩ := Text.cut?_eq_some.mp line.comment_stops
  have hcut : Text.cut? d.stop.toList (line.inner ++ rest) = some (line.comment, rest) := by
    refine Text.cut?_eq_some.mpr ⟨List.append_assoc _ _ _, hu.before_mark rest⟩
  have hfits : Sigil.exclamation.Fits (line.inner ++ rest) := trivial
  have hmeet := Tag.meet_sigil types d .exclamation hfits
  have hterminator : Sigil.exclamation.terminator d = d.stop.toList := rfl
  rw [hterminator, hcut] at hmeet
  have hmark : m.rest = Sigil.exclamation.mark ++ (line.inner ++ rest) := hr
  obtain ⟨c, hread, hc⟩ := Tag.read_of_meet hm (hmark ▸ hmeet)
  obtain ⟨used, hused⟩ := Tag.reads_of_read hread
  exact ⟨c, hread, hused.of_rest (by rw [hr, hc, List.cons_append]), hc⟩

/-- Behind the comment the line ends. -/
theorem lineEnd (line : CommentLine d) {c : Cursor} (hr : c.rest = line.behind ++ rest) :
    ∃ m, c.lineEnd? = some m ∧ c.Reads line.behind m ∧ m.rest = rest := by
  have hskip {x : Char} {more : List Char} (hx : ¬ Text.isInlineBlank x = true)
      (hc : c.rest = line.trailing ++ x :: more) :
      c.Reads line.trailing (c.skip Text.isInlineBlank) ∧
        (c.skip Text.isInlineBlank).rest = x :: more := by
    have hreads := Cursor.reads_skip Text.isInlineBlank c
    have htake : (c.take Text.isInlineBlank).1 = line.trailing := by
      show c.rest.takeWhile _ = _
      rw [hc, List.takeWhile_append_of_pos line.trailing_inline,
        List.takeWhile_cons_of_neg hx, List.append_nil]
    rw [htake] at hreads
    exact ⟨hreads, List.append_cancel_left (hreads.1.symm.trans hc)⟩
  unfold behind at hr ⊢
  obtain he | he := line.ending_eq <;> rw [he, List.append_assoc] at hr <;> rw [he]
  · obtain ⟨hreads, hend⟩ := hskip (by decide) hr
    exact ⟨_, Cursor.lineEnd?_lineFeed hend, hreads.trans (Cursor.reads_past hend), rfl⟩
  · obtain ⟨hreads, hend⟩ := hskip (by decide) hr
    exact ⟨_, Cursor.lineEnd?_return hend, hreads.trans (Cursor.reads_past hend), rfl⟩

/-- **The step over the line** changes nothing but the place. -/
theorem step {s : Draft} (line : CommentLine d) (types : ContentTypes)
    (hsd : s.delimiters = d) (hd : d.Proper) (hl : s.lineStart = true)
    (hr : s.cursor.rest = line.text ++ rest) :
    s.step types = .ok { s with cursor := s.cursor.past line.text rest } := by
  subst hsd
  have hrest : s.cursor.rest = line.blanks ++
      (s.delimiters.start.toList ++ ('!' :: (line.inner ++ (line.behind ++ rest)))) := by
    rw [hr]
    simp only [text, List.append_assoc, List.cons_append]
  obtain ⟨tag, hblanks, htag⟩ : ∃ tag, s.cursor.Reads line.blanks tag ∧
      tag.rest = s.delimiters.start.toList ++ ('!' :: (line.inner ++ (line.behind ++ rest))) :=
    ⟨_, Cursor.reads_past hrest, rfl⟩
  have hstart : tag.Reads s.delimiters.start.toList _ := Cursor.reads_past htag
  obtain ⟨c, hread, hc, hcrest⟩ :=
    line.read types hstart (Eq.refl ('!' :: (line.inner ++ (line.behind ++ rest))))
  obtain ⟨m, hend, hm, hmrest⟩ := line.lineEnd hcrest
  have hplace : s.place line.blanks tag .comment c = .ok { s with cursor := m } := by
    show Except.ok (s.leave line.blanks c) = _
    unfold Draft.leave
    rw [if_pos hl, hend, ← hl]
  have hall : s.cursor.Reads line.text m := by
    have := hblanks.trans (hstart.trans (hc.trans hm))
    simpa only [text, List.append_assoc, List.cons_append] using this
  rw [Draft.step_of_start types hd (fun _ => hl) line.blanks_inline hblanks hstart, hread]
  show s.place line.blanks tag .comment c = _
  rw [hplace, hall.eq_past, hmrest]

/-- Behind the line only the place is another. -/
theorem edited {b : Draft} (line : CommentLine b.delimiters) {before : List Char}
    (hb : (Draft.start .standard (String.ofList before)).Leads types b)
    (hnil : b.cursor.rest = []) (rest : List Char) :
    (b.extend rest).Edited ⟨before, [], line.text, rest⟩ ((b.extend rest).changed [] [])
      (Text.utf8Length line.text)
      { b.extend (line.text ++ rest) with
        cursor := (b.extend (line.text ++ rest)).cursor.past line.text rest } := by
  have hb' : (Draft.start .standard (String.ofList (before ++ []))).Leads types b := by
    rwa [List.append_nil]
  have hgap : b.cursor.rest = [] ++ [] := hnil
  have hframes := hb'.edited (e := ⟨before, [] ++ [], [] ++ line.text, rest⟩)
    Delimiters.proper_standard hgap rfl rfl
  have hplace : (b.extend rest).Parallel
      { b.extend (line.text ++ rest) with
        cursor := (b.extend (line.text ++ rest)).cursor.past line.text rest } := ⟨rfl, rfl, rfl⟩
  refine hplace.edited ?_ ?_ hframes [] []
  · show Cursor.mk _ _ = Cursor.mk _ _
    simp [Draft.extend, hnil, Nat.add_comm]
  · show b.cursor.rest ++ rest <:+ rest
    rw [hnil]
    exact List.suffix_refl rest

end CommentLine

/-- **A comment line is invisible.** Wherever reading a template stands at the start of a line, in
the body of whatever tag, such a line can be put in: the template is still accepted, and its tokens
are the same but for what the sections around the place keep of the text. -/
theorem Token.parse_commentLine {types : ContentTypes} {source : String} {tokens : List Token}
    (h : Token.parse types source = .ok tokens) {s : Draft} {before : List Char}
    (hs : (Draft.start .standard source).Leads types s)
    (hsource : source.toList = before ++ s.cursor.rest) (hw : Text.Whole before)
    (line : CommentLine s.delimiters) :
    ∃ tokens', Token.parse types (String.ofList (before ++ (line.text ++ s.cursor.rest))) =
        .ok tokens' ∧
      ButOne (Token.Along (fun _ _ => False)
        (Edit.Encloses ⟨before, [], line.text, s.cursor.rest⟩)) tokens tokens' := by
  have hproper := Draft.proper_start Delimiters.proper_standard (String.ofList before)
  have hwhole : Text.Whole (Draft.start .standard (String.ofList before)).cursor.rest := by
    rw [Draft.start, Cursor.ofString, String.toList_ofList]
    exact hw
  obtain rfl : source = String.ofList (before ++ s.cursor.rest) := by
    rw [← hsource, String.ofList_toList]
  -- The text before the place is read alike, and the place is the start of a line.
  have hs' := hs
  rw [← Draft.start_extend] at hs'
  obtain ⟨b, hb, hbs, -⟩ := Draft.leads_of_extend hproper hwhole hs' le_rfl
  have hnil : b.cursor.rest = [] := by
    have hrest := congrArg (fun s : Draft => s.cursor.rest) hbs
    exact List.append_left_eq_self.mp hrest
  generalize s.cursor.rest = rest at *
  subst hbs
  obtain ⟨hleads, -, hline⟩ := hb.extend hproper hwhole (fun _ => rfl) (line.text ++ rest)
  have hrest : (b.extend (line.text ++ rest)).cursor.rest = line.text ++ rest := by
    show b.cursor.rest ++ _ = _
    rw [hnil, List.nil_append]
  have hstep := line.step (s := b.extend (line.text ++ rest)) types rfl
    (hb.proper hproper).1 (hline hnil) hrest
  have hne : (b.extend (line.text ++ rest)).cursor.rest ≠ [] := by
    rw [hrest]
    exact List.append_ne_nil_of_left_ne_nil (line.text_ne_nil) rest
  rw [Draft.start_extend] at hleads
  have hedited := CommentLine.edited (b := b) line hb hnil rest
  have hparsed := Token.parsedChange_of_edited (e := ⟨before, [], line.text, rest⟩)
    (Draft.unchanged_fixed _) hs (hleads.step hne hstep) hedited
  generalize htarget : Token.parse types (String.ofList (Edit.target _)) = parsed at hparsed
  have hsource : Token.parse types (String.ofList (Edit.source ⟨before, [], line.text, rest⟩)) =
      .ok tokens := h
  rw [hsource] at hparsed
  cases hparsed with
  | ok hwithin => exact ⟨_, htarget, hwithin.butOne (fun _ _ => False.elim) (.same [])⟩

/-- A comment between the lines of a section, in a template that ends in it. -/
theorem Token.parse_commentLine_section :
    ∃ (s : Draft) (line : CommentLine s.delimiters) (tokens' : List Token),
      Token.parse Config.builtIn.types "{{#s}}\nx\n{{/s}}" =
        .ok [.sectionTag (.plain "s") ⟨"x\n", .standard⟩ [.text "x\n"]] ∧
      (Draft.start .standard "{{#s}}\nx\n{{/s}}").Leads Config.builtIn.types s ∧
      Text.Whole "{{#s}}\n".toList ∧
      line.text = " {{! note }}\r\n".toList ∧
      Token.parse Config.builtIn.types "{{#s}}\n {{! note }}\r\nx\n{{/s}}" = .ok tokens' := by
  have hp : Token.parse Config.builtIn.types "{{#s}}\nx\n{{/s}}" =
      .ok [.sectionTag (.plain "s") ⟨"x\n", .standard⟩ [.text "x\n"]] := by
    cbv
  let f : Frame := ⟨.present (.plain "s"), 0, [], true, "x\n{{/s}}".toList, [], .standard⟩
  let opened : Draft := ⟨⟨7, "x\n{{/s}}".toList⟩, true, .standard, [], [f]⟩
  have hopen : (Draft.start .standard "{{#s}}\nx\n{{/s}}").step Config.builtIn.types =
      .ok opened := by
    cbv
  have hleads := Draft.Leads.step .refl (by decide) hopen
  have hw : Text.Whole "{{#s}}\n".toList := .inr ⟨"{{#s}}".toList, by decide⟩
  let line : CommentLine opened.delimiters :=
    { blanks := [' ']
      comment := " note ".toList
      trailing := []
      ending := ['\r', '\n']
      blanks_inline := List.forall_mem_singleton.mpr rfl
      comment_stops := by cbv
      trailing_inline := List.forall_mem_nil _
      ending_eq := .inr rfl }
  have htext : line.text = " {{! note }}\r\n".toList := by decide
  have hsource : String.ofList ("{{#s}}\n".toList ++ (" {{! note }}\r\n".toList ++
      "x\n{{/s}}".toList)) = "{{#s}}\n {{! note }}\r\nx\n{{/s}}" := by
    decide
  obtain ⟨tokens', htokens, -⟩ := Token.parse_commentLine hp hleads (by decide) hw line
  rw [htext, show opened.cursor.rest = "x\n{{/s}}".toList from rfl, hsource] at htokens
  exact ⟨opened, line, tokens', hp, hleads, hw, htext, htokens⟩

end Mustache
