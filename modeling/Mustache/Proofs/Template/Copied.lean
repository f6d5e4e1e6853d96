import Mustache.Proofs.Tag.Sigil
import Mustache.Proofs.Template.Passage

/-!
# Text within a line of tags

Text without a start delimiter is copied line by line. Where a tag follows, blanks at the start of
its line are held back; they are copied too if the tag does not stand alone.

* `Token.Copies`: texts that make up a text; `Draft.Copied`: a draft with them in addition;
* **`Draft.run_copied`**: the run over text up to a tag; `Draft.run_met`, `Draft.run_copied_met`:
  the tag that is met there;
* `Draft.run_enter`, `Draft.run_close_present`: a section that is opened and closed on a line with
  something else; **`Draft.run_copied_absent`**: an inverted section around text.
-/

namespace Mustache

/-- The tokens are texts that make up `text`, one after the other. -/
def Token.Copies (text : List Char) (tokens : List Token) : Prop :=
  ∃ parts : List (List Char), parts.flatten = text ∧
    tokens = parts.map fun part => .text (String.ofList part)

namespace Token.Copies

variable {text more : List Char} {tokens tokens' : List Token}

theorem nil : Copies [] [] := ⟨[], rfl, rfl⟩

theorem ofText (text : List Char) : Copies text (Token.ofText text) := by
  unfold Token.ofText
  split_ifs with h
  · rw [List.isEmpty_iff.mp h]
    exact nil
  · exact ⟨[text], by simp, rfl⟩

theorem append (h : Copies text tokens) (h' : Copies more tokens') :
    Copies (text ++ more) (tokens ++ tokens') := by
  obtain ⟨parts, rfl, rfl⟩ := h
  obtain ⟨parts', rfl, rfl⟩ := h'
  exact ⟨parts ++ parts', by simp, by simp⟩

end Token.Copies

namespace Draft

variable {types : ContentTypes} {s : Draft} {text : List Char}

/-- The draft `s'` has texts that make up a text in addition, and is otherwise that of before. -/
structure Copied (s : Draft) (text : List Char) (s' : Draft) : Prop where
  frames : s'.frames = s.frames
  delimiters : s'.delimiters = s.delimiters
  tokens : ∃ new, Token.Copies text new ∧ s'.tokens = new.reverse ++ s.tokens

theorem Copied.refl (s : Draft) : s.Copied [] s := ⟨rfl, rfl, [], .nil, rfl⟩

theorem Copied.trans {more : List Char} {s' next : Draft} (h : s.Copied text s')
    (h' : s'.Copied more next) : s.Copied (text ++ more) next := by
  obtain ⟨new, hnew, hn⟩ := h.tokens
  obtain ⟨new', hnew', hn'⟩ := h'.tokens
  refine ⟨h'.frames.trans h.frames, h'.delimiters.trans h.delimiters, _, hnew.append hnew', ?_⟩
  rw [hn', hn, List.reverse_append, List.append_assoc]

theorem copied_pushText (s : Draft) (text : List Char) (c : Cursor) (lineStart : Bool) :
    s.Copied text { s.pushText text with cursor := c, lineStart } := by
  rw [pushText_eq]
  refine ⟨rfl, rfl, _, .ofText text, ?_⟩
  unfold Token.ofText
  split_ifs <;> rfl

/-- What lies ahead is a part of the text up to the next tag. -/
theorem Ahead.exists_rest {blanks line : List Char} {stop tag inner : Cursor}
    (ha : s.Ahead blanks line stop) (hd : s.delimiters.Proper) (hr : s.cursor.Reads text tag)
    (hi : tag.Reads s.delimiters.start.toList inner) :
    ∃ rest, text = blanks ++ line ++ rest ∧ stop.Reads rest tag := by
  have hrest : ∃ rest, text = blanks ++ line ++ rest := by
    obtain ⟨beyond, hbeyond, htag⟩ | ⟨rest, htext, -⟩ :=
      List.append_eq_append_iff.mp (hr.1.symm.trans ha.reads.1)
    · -- What lies ahead does not go beyond the start delimiter.
      by_cases hne : beyond = []
      · exact ⟨[], by rw [hbeyond, hne, List.append_nil, List.append_nil]⟩
      · refine absurd ?_ (ha.unmet_front hd text beyond hbeyond hne)
        exact ⟨inner.rest, by rw [← htag, hi.1]⟩
    · exact ⟨rest, htext⟩
  obtain ⟨rest, rfl⟩ := hrest
  exact ⟨rest, rfl, hr.rest ha.reads⟩

/-- A line feed in front of a tag belongs to the text, since no start delimiter has one. -/
theorem exists_lineFeed {d : Delimiters} (hd : d.Proper) {stop tag inner : Cursor}
    {rest more : List Char} (hr : stop.Reads rest tag) (hi : tag.Reads d.start.toList inner)
    (hs : stop.rest = '\n' :: more) : ∃ after, rest = '\n' :: after := by
  rw [hr.1] at hs
  cases rest with
  | cons ch after => exact ⟨after, by rw [(List.cons.inj hs).1]⟩
  | nil =>
    obtain ⟨ch, after, he, hblank⟩ := hd.starts ⟨inner.rest, hi.1.symm⟩
    rw [List.nil_append, he] at hs
    rw [(List.cons.inj hs).1] at hblank
    nomatch hblank

/-- **The run over text up to a tag** copies the text, but for blanks in front of the tag. -/
theorem run_copied (types : ContentTypes) (hd : s.delimiters.Proper) {tag inner : Cursor}
    (hr : s.cursor.Reads text tag) (hi : tag.Reads s.delimiters.start.toList inner)
    (hu : Text.Unmet s.delimiters.start.toList text tag.rest) :
    ∃ s' front held, s.Copied front s' ∧ front ++ held = text ∧
      s.run types = (Tag.read types s.delimiters tag.offset inner).bind fun (t, c) =>
        (s'.place held tag t c).bind (run types) := by
  have htag : tag.rest ≠ [] := by
    rw [hi.1]
    simp [hd.start_ne_nil]
  -- The text gets shorter with every line of it.
  induction hn : text.length using Nat.strong_induction_on generalizing s text with
  | h n ih =>
    have hne : s.cursor.rest ≠ [] := by
      rw [hr.1]
      simp [htag]
    obtain ⟨blanks, line, stop, ha, ⟨hs, -⟩ | ⟨more, hs, hstep⟩ | ⟨next, s', held, hnext, hreach,
      hstep⟩⟩ := s.step_cases types
    all_goals obtain ⟨rest, rfl, hrest⟩ := ha.exists_rest hd hr hi
    · rw [hrest.1] at hs
      exact absurd (List.append_eq_nil_iff.mp hs).2 htag
    · -- The line ends before the tag: the rest of the text comes after it.
      obtain ⟨rest, rfl⟩ := exists_lineFeed hd hrest hi hs
      have hline := Cursor.reads_lineFeed hs
      have hcopied := s.copied_pushText (blanks ++ line ++ ['\n']) stop.tail true
      have hsplit : blanks ++ line ++ '\n' :: rest = blanks ++ line ++ ['\n'] ++ rest := by simp
      rw [hsplit] at hu
      obtain ⟨s', front, held, hcopied', rfl, hrun⟩ := ih rest.length (by simp [← hn]; omega)
        (hcopied.delimiters.symm ▸ hd) (hrest.rest hline) (hcopied.delimiters.symm ▸ hi)
        (hcopied.delimiters.symm ▸ (Text.unmet_append.mp hu).2) rfl
      refine ⟨s', _, held, hcopied.trans hcopied', by simp, ?_⟩
      rw [hcopied.delimiters] at hrun
      rw [run_eq hd.start_ne_nil hne, hstep]
      exact hrun
    · -- The tag is on this line, so nothing is left of the text.
      obtain rfl : rest = [] := by
        by_contra hne
        refine hu (blanks ++ line) rest rfl hne ⟨next.rest, ?_⟩
        rw [← hnext.1, hrest.1]
      obtain rfl := Cursor.reads_nil hrest
      obtain rfl : next = inner := by
        rw [hnext.eq_past, hi.eq_past, List.append_cancel_left (hnext.1.symm.trans hi.1)]
      have hrun : s.run types = (Tag.read types s.delimiters stop.offset next).bind fun (t, c) =>
          (s'.place held stop t c).bind (run types) := by
        rw [run_eq hd.start_ne_nil hne, hstep]
        cases Tag.read types s.delimiters stop.offset next <;> rfl
      obtain ⟨rfl, rfl, rfl⟩ | ⟨-, rfl, rfl⟩ := hreach
      · exact ⟨s', [], held, .refl s', by simp, hrun⟩
      · exact ⟨_, blanks ++ line, [], s.copied_pushText _ _ _, by simp, hrun⟩

/-! ## Tags on the line -/

section

variable {blanks used more : List Char} {c : Cursor} {t : Tag}

/-- A tag that is met in full is read wherever it stands, and leaves what comes behind it. -/
theorem read_met (hm : Tag.meet types .standard used = .ok (t, [])) {tag inner : Cursor}
    (hi : tag.Reads Delimiters.standard.start.toList inner) (hr : inner.rest = used ++ more) :
    ∃ c, Tag.read types .standard tag.offset inner = .ok (t, c) ∧ c.rest = more := by
  rw [← List.append_nil used] at hm
  have hmore := Tag.meet_local Delimiters.proper_standard.stop_ne_nil hm more
  rw [← hr] at hmore
  exact Tag.read_of_meet hi hmore

/-- **The run from a tag on.** -/
theorem run_met (hd : s.delimiters = .standard) (hm : Tag.meet types .standard used = .ok (t, []))
    (hr : s.cursor.rest = '{' :: '{' :: (used ++ more)) :
    ∃ c, c.rest = more ∧ s.run types = (s.place [] s.cursor t c).bind (run types) := by
  have hproper : s.delimiters.Proper := hd ▸ Delimiters.proper_standard
  have hi := reads_start hd hr
  obtain ⟨c, hread, hc⟩ := read_met hm (hd ▸ hi) rfl
  refine ⟨c, hc, ?_⟩
  rw [run_eq hproper.start_ne_nil (by rw [hr]; nofun),
    step_of_start types hproper (absurd rfl) nofun ⟨rfl, rfl⟩ hi, hd, hread]
  rfl

/-- **The run from text on** that a tag comes behind. -/
theorem run_copied_met (hd : s.delimiters = .standard) (ht : '{' ∉ text)
    (hm : Tag.meet types .standard used = .ok (t, []))
    (hr : s.cursor.rest = text ++ '{' :: '{' :: (used ++ more)) :
    ∃ s' front held tag c, s.Copied front s' ∧ front ++ held = text ∧ c.rest = more ∧
      s.run types = (s'.place held tag t c).bind (run types) := by
  have hproper : s.delimiters.Proper := hd ▸ Delimiters.proper_standard
  obtain ⟨tag, htext, htag⟩ : ∃ tag, s.cursor.Reads text tag ∧
      tag.rest = '{' :: '{' :: (used ++ more) := ⟨_, Cursor.reads_past hr, rfl⟩
  have hi := reads_start hd htag
  obtain ⟨s', front, held, hcopied, hfront, hrun⟩ :=
    run_copied types hproper htext hi (by rw [hd]; exact Text.unmet_of_head ht)
  obtain ⟨c, hread, hc⟩ := read_met hm (hd ▸ hi) rfl
  refine ⟨s', front, held, tag, c, hcopied, hfront, hc, ?_⟩
  rw [hrun, hd, hread]
  rfl

/-- A brace does not end a line. -/
theorem lineEnd?_of_brace (hc : c.rest = '{' :: more) : c.lineEnd? = none := by
  unfold Cursor.lineEnd? Cursor.skip Cursor.take
  rw [hc]
  rfl

/-- A tag that shares its line leaves the blanks before it. -/
theorem leave_inline (h : s.lineStart = true → c.lineEnd? = none) (blanks : List Char) :
    s.leave blanks c = { s.pushText blanks with cursor := c, lineStart := false } := by
  obtain ⟨hl, c', hc, -⟩ | ⟨-, he⟩ := s.leave_cases blanks c
  · rw [h hl] at hc
    nomatch hc
  · exact he

/-- A section that is opened on a line with something else. -/
theorem enter_inline (h : s.lineStart = true → c.lineEnd? = none) {o : Opening}
    (ho : ∀ target, o ≠ .parent target) (start : Nat) :
    s.enter [] start o c =
      { cursor := c, lineStart := false, delimiters := s.delimiters, tokens := []
        frames := ⟨o, start, [], false, c.rest, s.tokens, s.delimiters⟩ :: s.frames } := by
  unfold enter
  rw [leave_inline h]
  cases o with
  | parent target => exact absurd rfl (ho target)
  | present | absent | block => rfl

/-- **The run from a tag that opens a section** on a line with something else. -/
theorem run_enter (hd : s.delimiters = .standard) {o : Opening}
    (hm : Tag.meet types .standard used = .ok (.opening o, [])) (ho : ∀ target, o ≠ .parent target)
    (hr : s.cursor.rest = '{' :: '{' :: (used ++ more))
    (hl : s.lineStart = true → ∃ inner, more = '{' :: inner) :
    ∃ c f, c.rest = more ∧ f.opening = o ∧ f.outer = s.tokens ∧ f.delimiters = .standard ∧
      s.run types = run types ⟨c, false, .standard, [], f :: s.frames⟩ := by
  obtain ⟨c, hc, hrun⟩ := run_met hd hm hr
  have hinline : s.lineStart = true → c.lineEnd? = none := fun h =>
    have ⟨_, hinner⟩ := hl h
    lineEnd?_of_brace (hc.trans hinner)
  refine ⟨c, ⟨o, s.cursor.offset, [], false, c.rest, s.tokens, s.delimiters⟩, hc, rfl, rfl, hd, ?_⟩
  rw [hrun, place, enter_inline hinline ho, hd]
  rfl

/-- A section that is closed on a line with something else: the blanks before the close tag belong
to its body. -/
theorem place_close (h : s.lineStart = true → c.lineEnd? = none) {f : Frame} {outer : List Frame}
    (hf : s.frames = f :: outer) {e : Expression} (he : f.opening.closing = e)
    (blanks : List Char) (tag : Cursor) {t : String → Token}
    (ht : ∀ raw, Frame.tokens? f outer raw (s.pushText blanks).tokens.reverse false =
      some [t raw]) :
    ∃ raw, s.place blanks tag (.closing e) c =
      .ok ⟨c, false, f.delimiters, t raw :: f.outer, outer⟩ := by
  rw [place, close, hf, leave_inline h]
  dsimp only
  rw [if_neg (not_not.mpr he), ht]
  exact ⟨_, rfl⟩

/-- **The run from the close tag of a section** right behind something else. -/
theorem run_close_present (hd : s.delimiters = .standard) (hl : s.lineStart = false) {f : Frame}
    {outer : List Frame} (hf : s.frames = f :: outer) {e : Expression} (he : f.opening = .present e)
    (hm : Tag.meet types .standard used = .ok (.closing e, []))
    (hr : s.cursor.rest = '{' :: '{' :: (used ++ more)) :
    ∃ c raw, c.rest = more ∧
      s.run types =
        run types ⟨c, false, f.delimiters,
          .sectionTag e ⟨raw, f.delimiters⟩ s.tokens.reverse :: f.outer, outer⟩ := by
  obtain ⟨c, hc, hrun⟩ := run_met hd hm hr
  obtain ⟨raw, hplace⟩ := place_close (c := c) (fun h => absurd (hl.symm.trans h) nofun) hf
    (congrArg Opening.closing he) [] s.cursor
    (t := fun raw => .sectionTag e ⟨raw, f.delimiters⟩ s.tokens.reverse) fun raw => by
      rw [Frame.tokens?, he]
      rfl
  refine ⟨c, raw, hc, hrun.trans ?_⟩
  exact congrArg (Except.bind · (run types)) hplace

/-- **The run over an inverted section around text**, on a line with something else before and
after it. -/
theorem run_copied_absent (hd : s.delimiters = .standard) (hl : s.lineStart = false)
    {e : Expression} {used' : List Char}
    (hopen : Tag.meet types .standard used = .ok (.opening (.absent e), []))
    (hclose : Tag.meet types .standard used' = .ok (.closing e, [])) (ht : '{' ∉ text)
    (hr : s.cursor.rest =
      '{' :: '{' :: (used ++ (text ++ '{' :: '{' :: (used' ++ '{' :: more)))) :
    ∃ c raw texts, Token.Copies text texts ∧ c.rest = '{' :: more ∧
      s.run types =
        run types ⟨c, false, .standard, .invertedTag e ⟨raw, .standard⟩ texts :: s.tokens,
          s.frames⟩ := by
  obtain ⟨c, f, hc, hf, hfo, hfd, hrun⟩ :=
    run_enter hd hopen nofun hr fun h => absurd (hl.symm.trans h) nofun
  obtain ⟨s', front, held, tag, c', hcopied, rfl, hc', hrun'⟩ :=
    run_copied_met (s := ⟨c, false, .standard, [], f :: s.frames⟩) rfl ht hclose hc
  -- The blanks in front of the close tag are the end of the text.
  obtain ⟨texts, hcopies, htexts⟩ := (hcopied.trans (s'.copied_pushText held c' false)).tokens
  obtain ⟨raw, hplace⟩ := place_close (fun _ => lineEnd?_of_brace hc') hcopied.frames
    (congrArg Opening.closing hf) held tag
    (t := fun raw => .invertedTag e ⟨raw, .standard⟩ texts) fun raw => by
      rw [Frame.tokens?, hf, hfd]
      dsimp only at htexts ⊢
      rw [htexts, List.append_nil, List.reverse_reverse]
  refine ⟨c', raw, texts, hcopies, hc', ?_⟩
  rw [hrun, hrun', show Tag.closing e = .closing (Opening.absent e).closing from rfl, hplace, hfd,
    hfo]
  rfl

end

end Draft

end Mustache
