import Mustache.Proofs.Tag.Local
import Mustache.Proofs.Template.Bare
import Mustache.Proofs.Template.Outline

/-!
# From tag to tag

Reading passes over the text before a tag line by line. So it does not matter how it comes to a
tag: what it meets are the pieces of the source, one after the other.

* `Draft.step_shorter`, `Draft.run_eq`: every step makes the text shorter, and the rest of the run
  follows it;
* `Draft.Adds`: a draft with more text than another, and nothing else;
* `Draft.run_lines`, **`Draft.run_tag`**, **`Draft.run_text`**: the run up to the next tag, or to
  the end of the source;
* `Draft.Meets`: how the run meets the first piece; `Draft.Leaves`, **`Draft.Meets.place`**: how it
  goes on after it;
* **`Draft.pieces_induction`**: induction from tag to tag.
-/

namespace Mustache.Draft

variable {types : ContentTypes} {s s' next : Draft} {blanks text more held : List Char}
  {tag c : Cursor} {t : Tag}

/-! ## Steps one after the other -/

theorem reads_of_place (h : s.place held tag t c = .ok next) :
    ∃ used, c.Reads used next.cursor := by
  obtain ⟨-, hc⟩ | ⟨-, hc⟩ := place_cursor h
  · obtain ⟨blanks, stop, hr, -⟩ := Cursor.reads_lineEnd hc
    exact ⟨_, hr⟩
  · rw [hc]
    exact ⟨[], rfl, rfl⟩

/-- What a tag takes of its line comes right behind it. -/
theorem reads_leave (s : Draft) (blanks : List Char) (c : Cursor) :
    ∃ used, c.Reads used (s.leave blanks c).cursor :=
  reads_of_place (show s.place blanks c .comment c = .ok (s.leave blanks c) from rfl)

/-- Every step reads a part of the text. -/
theorem reads_of_step (hd : s.delimiters.start.toList ≠ []) (hne : s.cursor.rest ≠ [])
    (h : s.step types = .ok next) : ∃ used, used ≠ [] ∧ s.cursor.Reads used next.cursor := by
  cases moves_of_step h with
  | @finish blanks text tag ha hr =>
    refine ⟨_, fun hnil => hne ?_, ha.reads⟩
    rw [ha.reads.1, hnil, hr]
    rfl
  | @line blanks text rest tag ha hr =>
    have htail := Cursor.reads_lineFeed hr
    exact ⟨_, by simp, ha.reads.trans htail⟩
  | @tag s' _ blanks text held tag inner c t ha hi hread hr hp =>
    obtain ⟨used, hused⟩ := Tag.reads_of_read hread
    obtain ⟨front, hfront⟩ := reads_of_place hp
    exact ⟨_, by simp [hd], ha.reads.trans (hi.trans (hused.trans hfront))⟩

/-- **Every step makes the text shorter.** -/
theorem step_shorter (hd : s.delimiters.start.toList ≠ []) (hne : s.cursor.rest ≠ [])
    (h : s.step types = .ok next) : next.cursor.rest.length < s.cursor.rest.length := by
  obtain ⟨used, hused, hr⟩ := reads_of_step hd hne h
  have hlen := hr.length
  have hpos := List.length_pos_iff.mpr hused
  omega

theorem run_end (h : s.cursor.rest = []) :
    s.run types =
      if s.frames.isEmpty then .ok s else .error ⟨.unclosedSection, s.cursor.offset⟩ := by
  rw [run, if_pos (List.isEmpty_iff.mpr h)]

/-- **A run is a step and the run after it.** -/
theorem run_eq (hd : s.delimiters.start.toList ≠ []) (hne : s.cursor.rest ≠ []) :
    s.run types = (s.step types).bind (run types) := by
  rw [run, if_neg (mt List.isEmpty_iff.mp hne)]
  cases hs : s.step types with
  | error fault => rfl
  | ok next =>
    dsimp only
    rw [if_pos (step_shorter hd hne hs)]
    rfl

/-! ## Text -/

/-- The draft `s'` has the lines of a text in addition, and is otherwise that of before. -/
structure Adds (s : Draft) (text : List Char) (s' : Draft) : Prop where
  frames : s'.frames = s.frames
  delimiters : s'.delimiters = s.delimiters
  tokens : ∃ new, s'.tokens = new ++ s.tokens ∧ (∀ t ∈ new, ∃ content, t = .text content) ∧
    Token.bareAll new = ((Text.solidLines text).map fun line => .text (String.ofList line)).reverse

theorem Adds.scopes (h : s.Adds text s') : s'.scopes = s.scopes := by
  rw [Draft.scopes, h.frames, Draft.scopes]

theorem Proper.of_adds (h : s.Adds text s') (hs : s.Proper) : s'.Proper := by
  unfold Proper
  rwa [h.delimiters, h.scopes]

theorem Held.of_adds (h : s.Adds text s') (hs : s.Held) : s'.Held := by
  unfold Held
  rwa [h.frames]

theorem Adds.bare (h : s.Adds text s') : s'.bare = s.bare.addText text := by
  obtain ⟨new, hn, -, hb⟩ := h.tokens
  simp only [Draft.bare, addText, h.frames, h.delimiters, hn, Token.bareAll_append, hb]

theorem Adds.nothing {c : Cursor} {lineStart : Bool} (hb : ∀ ch ∈ blanks, Text.isBlank ch = true)
    (hn : '\n' ∉ blanks) : s.Adds blanks { s with cursor := c, lineStart } := by
  refine ⟨rfl, rfl, [], rfl, nofun, ?_⟩
  rw [Text.solidLines_last hn, if_pos (List.all_eq_true.mpr hb)]
  rfl

theorem adds_line (c : Cursor) (lineStart : Bool) (h : '\n' ∉ text) :
    s.Adds (text ++ ['\n']) { s.pushText (text ++ ['\n']) with cursor := c, lineStart } := by
  rw [pushText_eq]
  refine ⟨rfl, rfl, _, rfl, fun t ht => ⟨_, (Token.mem_ofText.mp ht).2⟩, ?_⟩
  rw [Token.bareAll_ofText, Text.solidLines_line h]
  split_ifs <;> rfl

theorem adds_last (c : Cursor) (lineStart : Bool) (h : '\n' ∉ text) :
    s.Adds text { s.pushText text with cursor := c, lineStart } := by
  rw [pushText_eq]
  refine ⟨rfl, rfl, _, rfl, fun t ht => ⟨_, (Token.mem_ofText.mp ht).2⟩, ?_⟩
  rw [Token.bareAll_ofText, Text.solidLines_last h]
  split_ifs <;> rfl

/-- Whole lines, and more text after them. -/
theorem Adds.trans (h : s.Adds text s') (hw : Text.Whole text) (h' : s'.Adds more next) :
    s.Adds (text ++ more) next := by
  obtain ⟨new, hn, ht, hb⟩ := h.tokens
  obtain ⟨new', hn', ht', hb'⟩ := h'.tokens
  refine ⟨h'.frames.trans h.frames, h'.delimiters.trans h.delimiters, new' ++ new, ?_,
    List.forall_mem_append.mpr ⟨ht', ht⟩, ?_⟩
  · rw [hn', hn, List.append_assoc]
  · rw [Token.bareAll_append, hb, hb', hw.solidLines_append, List.map_append, List.reverse_append]

/-! ## Up to the next tag -/

/-- A draft at the end of whole lines, where the next tag or the end of the source is on the same
line. -/
structure Passed (types : ContentTypes) (s : Draft) (lines : List Char) (s' : Draft) : Prop where
  adds : s.Adds lines s'
  whole : Text.Whole lines
  reads : s.cursor.Reads lines s'.cursor
  unmet : Text.Unmet s.delimiters.start.toList lines s'.cursor.rest
  run : s.run types = s'.run types

/-- **Lines are passed** until the next tag or the end of the source is on the same line. -/
theorem run_lines (types : ContentTypes) (hd : s.delimiters.Proper) :
    ∃ lines s' blanks text tag, Passed types s lines s' ∧ s'.Ahead blanks text tag ∧
      (tag.rest = [] ∧ s'.step types = .ok { s'.pushText (blanks ++ text) with cursor := tag } ∨
        ∃ inner next held, tag.Reads s'.delimiters.start.toList inner ∧
          s'.Reaches blanks text next held ∧
          s'.step types = (Tag.read types s'.delimiters tag.offset inner).bind
            fun (t, c) => next.place held tag t c) := by
  induction hn : s.cursor.rest.length using Nat.strong_induction_on generalizing s with
  | h n ih =>
    have here : Passed types s [] s :=
      ⟨⟨rfl, rfl, [], rfl, nofun, rfl⟩, .inl rfl, ⟨rfl, rfl⟩, Text.unmet_nil, rfl⟩
    obtain ⟨blanks, text, tag, ha, h | ⟨rest, hr, hs⟩ | h⟩ := s.step_cases types
    · exact ⟨[], s, blanks, text, tag, here, ha, .inl h⟩
    · have hmove := Cursor.reads_lineFeed hr
      have hreads := ha.reads.trans hmove
      have hne : s.cursor.rest ≠ [] := by
        rw [hreads.1]
        simp
      have hadds : s.Adds (blanks ++ text ++ ['\n']) _ :=
        adds_line tag.tail true ha.front_no_lineFeed
      have hwhole : Text.Whole (blanks ++ text ++ ['\n']) := .inr ⟨_, rfl⟩
      obtain ⟨lines, s', blanks', text', tag', hp, ha', hl⟩ :=
        ih _ (hn ▸ step_shorter hd.start_ne_nil hne hs) (hadds.delimiters.symm ▸ hd) rfl
      have hunmet : Text.Unmet s.delimiters.start.toList (blanks ++ text ++ ['\n'])
          (lines ++ s'.cursor.rest) := by
        rw [← hp.reads.1]
        refine Text.unmet_append.mpr ⟨?_, hd.unmet (List.forall_mem_singleton.mpr rfl)⟩
        have hu := ha.unmet_front hd
        rwa [hmove.1] at hu
      refine ⟨_, s', blanks', text', tag', ⟨hadds.trans hwhole hp.adds,
        Text.whole_append hwhole hp.whole, hreads.trans hp.reads,
        Text.unmet_append.mpr ⟨hunmet, hadds.delimiters ▸ hp.unmet⟩, ?_⟩, ha', hl⟩
      rw [run_eq hd.start_ne_nil hne, hs]
      exact hp.run
    · exact ⟨[], s, blanks, text, tag, here, ha, .inr h⟩

/-- Text before a tag, with the blanks that are held back. -/
theorem Reaches.adds (ha : s.Ahead blanks text tag) (hr : s.Reaches blanks text s' held) :
    s.Adds (blanks ++ text) s' ∧ ∀ ch ∈ held, Text.isInlineBlank ch = true := by
  have hn := ha.front_no_lineFeed
  obtain ⟨rfl, rfl, rfl⟩ | ⟨-, rfl, rfl⟩ := hr
  · rw [List.append_nil] at hn ⊢
    have hb := ha.blanks_inline
    exact ⟨.nothing (blank_of_inline hb) hn, hb⟩
  · exact ⟨adds_last _ _ hn, nofun⟩

section

variable {p : Piece} {pieces : List Piece} {last : List Char}

/-- What is on the line after lines that are passed, without regard to where they end. -/
theorem Passed.ahead {lines : List Char} (hp : Passed types s lines s')
    (ha : s'.Ahead blanks text tag) (hd : s.delimiters.Proper) :
    s.cursor.Reads (lines ++ (blanks ++ text)) tag ∧
      Text.Unmet s.delimiters.start.toList (lines ++ (blanks ++ text)) tag.rest := by
  have hd' : s'.delimiters.Proper := hp.adds.delimiters.symm ▸ hd
  refine ⟨hp.reads.trans ha.reads, Text.unmet_append.mpr ⟨?_, ?_⟩⟩
  · rw [← ha.reads.1]
    exact hp.unmet
  · rw [← hp.adds.delimiters]
    exact ha.unmet_front hd'

/-- How a run meets the tag of a piece: with the draft `s'` and the blanks `held` in front of it,
between the cursors `tag` and `c`. -/
structure Meets (types : ContentTypes) (s : Draft) (p : Piece) (after : List Piece × List Char)
    (s' : Draft) (held : List Char) (tag c : Cursor) : Prop where
  adds : s.Adds p.text s'
  held_inline : ∀ ch ∈ held, Text.isInlineBlank ch = true
  reads_text : s.cursor.Reads p.text tag
  reads_source : tag.Reads p.source c
  proper : ∀ found, p.tag = .delimiters found → found.Proper
  cut : Piece.cut? types (p.tag.scope s.scopes s.delimiters).1
    (p.tag.scope s.scopes s.delimiters).2 c = some after
  run : s.run types = (s'.place held tag p.tag c).bind (run types)

/-- **The run up to the next tag**, which is that of the first piece. -/
theorem run_tag (hd : s.delimiters.Proper)
    (hcut : Piece.cut? types s.scopes s.delimiters s.cursor = some (p :: pieces, last)) :
    ∃ s' held tag c, Meets types s p (pieces, last) s' held tag c := by
  obtain ⟨lines, s', blanks, text, tag, hp, ha, ⟨hr, -⟩ | ⟨inner, next, held, hi, hreach, hs⟩⟩ :=
    s.run_lines types hd
  · have hfront := hp.ahead ha hd
    rw [Piece.cut?_skip hfront.1 hfront.2, Piece.cut?_nil hd.start_ne_nil hr] at hcut
    cases hcut
  · obtain ⟨hreads, hunmet⟩ := hp.ahead ha hd
    have hstart : s'.delimiters.start.toList ≠ [] := hp.adds.delimiters.symm ▸ hd.start_ne_nil
    have hne : s'.cursor.rest ≠ [] := by
      rw [(ha.reads.trans hi).1]
      simp [hstart]
    have hrun := hp.run
    rw [run_eq hstart hne, hs] at hrun
    rw [hp.adds.delimiters] at hi hrun
    cases hread : Tag.read types s.delimiters tag.offset inner with
    | error fault =>
      rw [Piece.cut?_stuck hreads hunmet hi hread] at hcut
      cases hcut
    | ok r =>
      obtain ⟨t, c⟩ := r
      obtain ⟨used, hused⟩ := Tag.reads_of_read hread
      rw [Piece.cut?_tag hd.start_ne_nil hreads hunmet hi hread hused] at hcut
      obtain ⟨⟨after, l⟩, hafter, he⟩ := Option.map_eq_some_iff.mp hcut
      cases he
      obtain ⟨hadds, hheld⟩ := hreach.adds ha
      refine ⟨next, held, tag, c, hp.adds.trans hp.whole hadds, hheld, hreads, hi.trans hused, ?_,
        hafter, ?_⟩
      · rintro found rfl
        exact Delimiters.proper_of_read hread
      · rw [hrun, hread]
        rfl

/-- **The run to the end of the source**, where no tag is left. -/
theorem run_text (hd : s.delimiters.Proper)
    (hcut : Piece.cut? types s.scopes s.delimiters s.cursor = some ([], last)) :
    ∃ s', s.Adds last s' ∧ s.cursor.Reads last s'.cursor ∧ s'.cursor.rest = [] ∧
      s.run types = s'.run types := by
  obtain ⟨lines, s', blanks, text, tag, hp, ha, ⟨hr, hs⟩ | ⟨inner, next, held, hi, -⟩⟩ :=
    s.run_lines types hd
  · obtain ⟨hreads, hunmet⟩ := hp.ahead ha hd
    rw [Piece.cut?_skip hreads hunmet, Piece.cut?_nil hd.start_ne_nil hr] at hcut
    obtain rfl : lines ++ (blanks ++ text) = last := by
      cases hcut
      exact (List.append_nil _).symm
    have hrun : s'.run types = run types { s'.pushText (blanks ++ text) with cursor := tag } := by
      by_cases he : s'.cursor.rest = []
      · have hread := ha.reads
        obtain ⟨hnil, -⟩ := List.append_eq_nil_iff.mp (hread.1.symm.trans he)
        rw [hnil] at hread ⊢
        rw [← Cursor.reads_nil hread]
        rfl
      · rw [run_eq (hp.adds.delimiters.symm ▸ hd.start_ne_nil) he, hs]
        rfl
    exact ⟨{ s'.pushText (blanks ++ text) with cursor := tag },
      hp.adds.trans hp.whole (adds_last _ _ ha.front_no_lineFeed), hreads, hr, hp.run.trans hrun⟩
  · obtain ⟨hreads, hunmet⟩ := hp.ahead ha hd
    rw [hp.adds.delimiters] at hi
    have hthrough := Piece.through?_of_reads hreads hi hunmet
    rw [Piece.cut?_eq, hthrough] at hcut
    dsimp only at hcut
    split at hcut
    · cases hcut
    · split_ifs at hcut
      obtain ⟨_, -, he⟩ := Option.map_eq_some_iff.mp hcut
      cases he

end

/-! ## After a tag -/

/-- Up to the end of a line there are only blanks. -/
theorem reads_silent {c' : Cursor} (h : c.lineEnd? = some c') :
    ∃ front, c.Reads front c' ∧ (∀ ch ∈ front, Text.isBlank ch = true) ∧
      (Text.Silent front ∨ c'.rest = []) := by
  obtain ⟨blanks, stop, hr, hb, hstop⟩ := Cursor.reads_lineEnd h
  have hblank := blank_of_inline hb
  have hn : '\n' ∉ blanks := fun hm => absurd (hb _ hm) (by decide)
  have hreturn : ∀ ch ∈ blanks ++ ['\r'], Text.isBlank ch = true :=
    List.forall_mem_append.mpr ⟨hblank, List.forall_mem_singleton.mpr rfl⟩
  have hfeed : ∀ ch ∈ ['\n'], Text.isBlank ch = true := List.forall_mem_singleton.mpr rfl
  obtain ⟨rfl, he⟩ | rfl | rfl := hstop
  · rw [List.append_nil] at hr
    exact ⟨blanks, hr, hblank, .inr he⟩
  · exact ⟨_, hr, List.forall_mem_append.mpr ⟨hblank, hfeed⟩, .inl (.inr ⟨_, rfl, hn, hblank⟩)⟩
  · have hsplit : blanks ++ ['\r', '\n'] = blanks ++ ['\r'] ++ ['\n'] := by simp
    rw [hsplit] at hr
    refine ⟨_, hr, List.forall_mem_append.mpr ⟨hreturn, hfeed⟩, .inl (.inr ⟨_, rfl, ?_, hreturn⟩)⟩
    simpa using hn

/-- What a tag takes of its line is blank. -/
theorem silent_of_place (h : s.place held tag t c = .ok next) :
    ∃ front, c.Reads front next.cursor ∧ (∀ ch ∈ front, Text.isBlank ch = true) ∧
      (Text.Silent front ∨ next.cursor.rest = []) := by
  obtain ⟨-, hc⟩ | ⟨-, hc⟩ := place_cursor h
  · exact reads_silent hc
  · rw [hc]
    exact ⟨[], ⟨rfl, rfl⟩, nofun, .inl (.inl rfl)⟩

/-- How reading goes on with the draft `next` after a tag that ends at the cursor `c`: the text
`front` is passed over, and the pieces `after` are left. -/
structure Leaves (types : ContentTypes) (c : Cursor) (pieces : List Piece × List Char)
    (next : Draft) (front : List Char) (after : List Piece × List Char) : Prop where
  proper : next.Proper
  reads : c.Reads front next.cursor
  blank : ∀ ch ∈ front, Text.isBlank ch = true
  silent : Text.Silent front ∨ next.cursor.rest = []
  cut : Piece.cut? types next.scopes next.delimiters next.cursor = some after
  prepend : Piece.prepend front after = pieces

/-- **The pieces after a tag** are those from where reading goes on, with the end of the line in
front if the tag stands alone. -/
theorem Meets.place {p : Piece} {pieces : List Piece × List Char}
    (h : Meets types s p pieces s' held tag c) (hs : s.Proper)
    (hp : s'.place held tag p.tag c = .ok next) :
    ∃ front after, Leaves types c pieces next front after := by
  have hscope := place_scope hp
  rw [h.adds.scopes, h.adds.delimiters] at hscope
  have hproper := scope_keeps (P := Delimiters.Proper) hs h.proper
  have hcut := h.cut
  rw [hscope] at hproper hcut
  obtain ⟨front, hr, hb, hsilent⟩ := silent_of_place hp
  rw [Piece.cut?_skip hr (hproper.1.unmet hb)] at hcut
  obtain ⟨after, hafter, he⟩ := Option.map_eq_some_iff.mp hcut
  exact ⟨front, after, hproper, hr, hb, hsilent, hafter, he⟩

/-- **Induction from tag to tag.** What holds at the end of a source, and before a tag if it holds
where reading goes on after it, holds wherever the rest of the source can be cut into pieces. -/
theorem pieces_induction {motive : Draft → List Piece × List Char → Prop}
    (text : ∀ s s' last, s.Adds last s' → s.cursor.Reads last s'.cursor → s'.cursor.rest = [] →
      s.run types = s'.run types → motive s ([], last))
    (tag : ∀ s p after s' held tag c, s.Proper →
      Piece.cut? types s.scopes s.delimiters s.cursor = some (p :: after.1, after.2) →
      Meets types s p after s' held tag c →
      (∀ next, s'.place held tag p.tag c = .ok next →
        ∃ front left, Leaves types c after next front left ∧ motive next left) →
      motive s (p :: after.1, after.2))
    (hs : s.Proper) {r : List Piece × List Char}
    (hcut : Piece.cut? types s.scopes s.delimiters s.cursor = some r) : motive s r := by
  obtain ⟨pieces, last⟩ := r
  -- Text in front changes the first piece only, so there is one piece less after each tag.
  induction hn : pieces.length generalizing s pieces last with
  | zero =>
    rw [List.length_eq_zero_iff] at hn
    subst hn
    obtain ⟨s', hadds, hreads, hr, hrun⟩ := run_text hs.1 hcut
    exact text s s' last hadds hreads hr hrun
  | succ n ih =>
    cases pieces with
    | nil => cases hn
    | cons p pieces =>
      obtain ⟨s', held, mark, c, hm⟩ := run_tag hs.1 hcut
      refine tag s p (pieces, last) s' held mark c hs hcut hm fun next hp => ?_
      obtain ⟨front, left, hl⟩ := hm.place hs hp
      have hlength : left.1.length = n := by
        rw [← Piece.length_prepend front, hl.prepend]
        simpa using hn
      exact ⟨front, left, hl, ih hl.proper left.1 left.2 hl.cut hlength⟩

end Mustache.Draft
