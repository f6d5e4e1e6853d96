import Mathlib
import Mustache.Config.Basic
import Mustache.Proofs.Delimiters
import Mustache.Proofs.Template.Law
import Mustache.Proofs.Template.Marks
import Mustache.Proofs.Text.Lines

/-!
# The text of a template is the source without its tags

Reading decides in one pass, from a flag and the blanks it holds back, which tags stand alone. The
pieces of the source tell the same line by line. Each step of reading moves text and marks from the
pieces that are left to the draft, so that both together stay what they are.

* `Draft.Follows`: a draft after a part of the source; its flag tells whether a line starts there;
* `Draft.Outlined`: the marks of a draft and those of the pieces that are left;
* **`Draft.Outlined.step`**: a step keeps them together;
* **`Token.outline_of_parse`**.
-/

namespace Mustache

/-! ## Last lines -/

namespace Text

theorem lastLine_lineFeed (cs : List Char) : lastLine (cs ++ ['\n']) = [] := by
  simp [lastLine]

/-- A text that ends with something else than a blank has it on its last line. -/
theorem lastLine_not_blank {cs : List Char} {c : Char} (hc : isBlank c = false) :
    (lastLine (cs ++ [c])).all isInlineBlank = false := by
  have hn : c ≠ '\n' := by
    rintro rfl
    exact absurd hc (by decide)
  have hi := isInlineBlank_of_not_isBlank hc
  rw [lastLine_append (by simpa using hn.symm), List.all_append]
  simp [hi]

/-! ## Ends of lines -/

theorem afterLineEnd?_blanks {blanks : List Char} (hb : ∀ c ∈ blanks, isInlineBlank c = true) :
    afterLineEnd? blanks = some [] := by
  have hn : blanks.dropWhile isInlineBlank = [] := List.dropWhile_eq_nil_iff.mpr hb
  rw [afterLineEnd?, hn]

theorem afterLineEnd?_lineFeed {blanks : List Char} (hb : ∀ c ∈ blanks, isInlineBlank c = true)
    (rest : List Char) : afterLineEnd? (blanks ++ '\n' :: rest) = some rest := by
  rw [afterLineEnd?, List.dropWhile_append_of_pos hb]
  rfl

theorem afterLineEnd?_return {blanks : List Char} (hb : ∀ c ∈ blanks, isInlineBlank c = true)
    (rest : List Char) : afterLineEnd? (blanks ++ '\r' :: '\n' :: rest) = some rest := by
  rw [afterLineEnd?, List.dropWhile_append_of_pos hb]
  rfl

end Text

/-- A cursor finds the end of a line where there is one. -/
theorem Cursor.isSome_lineEnd? (c : Cursor) :
    c.lineEnd?.isSome = (Text.afterLineEnd? c.rest).isSome := by
  unfold lineEnd? Text.afterLineEnd? skip take past
  dsimp only
  split <;> rename_i h <;> simp only [h, Option.isSome_some, Option.isSome_none]

namespace Piece

variable {types : ContentTypes} {outer : List Delimiters} {d : Delimiters}

/-- **The end of a line after a tag that stands alone**: the pieces from the tag on leave what the
pieces from the next line on do. -/
theorem outline_lineEnd (hd : d.Proper) {c next : Cursor} (h : c.lineEnd? = some next)
    {pieces : List Piece × List Char} (hcut : cut? types outer d next = some pieces) :
    ∃ front, cut? types outer d c = some (prepend front pieces) ∧
      ∀ before, outline before true (prepend front pieces).1 (prepend front pieces).2 =
          outline (before ++ front) false pieces.1 pieces.2 ∧
        (Text.lastLine (before ++ front) = [] ∨ next.rest = []) := by
  obtain ⟨blanks, stop, hr, hb, hstop⟩ := Cursor.reads_lineEnd h
  have hblank : ∀ ch ∈ blanks ++ stop, Text.isBlank ch = true := by
    intro ch hc
    obtain hc | hc := List.mem_append.mp hc
    · exact Text.isBlank_of_isInlineBlank (hb ch hc)
    · obtain ⟨rfl, -⟩ | rfl | rfl := hstop
      · nomatch hc
      · rw [List.mem_singleton.mp hc]; rfl
      · simp only [List.mem_cons, List.not_mem_nil, or_false] at hc
        obtain rfl | rfl := hc <;> rfl
  have hskip : cut? types outer d c = some (prepend (blanks ++ stop) pieces) := by
    rw [cut?_skip hr (hd.unmet hblank), hcut]
    rfl
  refine ⟨blanks ++ stop, hskip, fun before => ?_⟩
  obtain ⟨rfl, hn⟩ | rfl | rfl := hstop
  · rw [cut?_nil hd.start_ne_nil hn] at hcut
    cases hcut
    refine ⟨?_, .inr hn⟩
    simp [prepend, outline, kept, Text.afterLineEnd?_blanks hb]
  · refine ⟨outline_skip (fun text => ?_) (fun text => ?_), .inl ?_⟩
    · rw [List.append_assoc]
      exact Text.afterLineEnd?_lineFeed hb text
    · rw [List.append_assoc]
      exact blanksAtEnd_line blanks text
    · rw [← List.append_assoc]
      exact Text.lastLine_lineFeed _
  · refine ⟨outline_skip (fun text => ?_) (fun text => ?_), .inl ?_⟩
    · rw [List.append_assoc]
      exact Text.afterLineEnd?_return hb text
    · simpa using blanksAtEnd_line (blanks ++ ['\r']) text
    · simpa using Text.lastLine_lineFeed (before ++ blanks ++ ['\r'])

/-- The piece is not the start of a parent. -/
def NoParent (p : Piece) : Prop := ∀ target, p.tag ≠ .opening (.parent target)

theorem noParent_prepend {front : List Char} {pieces : List Piece × List Char}
    (h : ∀ p ∈ (prepend front pieces).1, p.NoParent) : ∀ p ∈ pieces.1, p.NoParent := by
  obtain ⟨pieces, last⟩ := pieces
  cases pieces with
  | nil => exact h
  | cons p pieces =>
    obtain ⟨hp, hps⟩ := List.forall_mem_cons.mp h
    exact List.forall_mem_cons.mpr ⟨hp, hps⟩

end Piece

/-! ## Steps -/

namespace Draft

/-- The draft stands after the part `before` of the source, outside of all parents. Where a line
starts, nothing of it has been read; elsewhere something other than blanks has been. -/
structure Follows (s : Draft) (before : List Char) : Prop where
  atStart : s.lineStart = true → Text.lastLine before = [] ∨ s.cursor.rest = []
  inside : s.lineStart = false → (Text.lastLine before).all Text.isInlineBlank = false
  noParent : NoParent s.frames

/-- The marks are those of the draft and of the pieces that are left. -/
def Outlined (types : ContentTypes) (marks : List Mark) (s : Draft) : Prop :=
  ∃ pieces, Piece.cut? types s.scopes s.delimiters s.cursor = some pieces ∧
    ∀ before, s.Follows before → (∀ p ∈ pieces.1, p.NoParent) →
      marks = s.outline ++ Piece.outline before false pieces.1 pieces.2

/-- All delimiters that a draft may come to use are proper. -/
def Proper (s : Draft) : Prop := s.delimiters.Proper ∧ ∀ d ∈ s.scopes, d.Proper

variable {types : ContentTypes} {marks : List Mark} {s next : Draft}
  {blanks text : List Char} {tag : Cursor}

/-- At the start of a source nothing is open. -/
theorem proper_start {d : Delimiters} (hd : d.Proper) (source : String) :
    (start d source).Proper := ⟨hd, by simp [start, scopes]⟩

/-- No start delimiter begins in the text up to a tag, nor in the blanks before the text. -/
theorem Ahead.unmet_front (ha : s.Ahead blanks text tag) (hd : s.delimiters.Proper) :
    Text.Unmet s.delimiters.start.toList (blanks ++ text) tag.rest :=
  Text.unmet_append.mpr
    ⟨hd.unmet fun ch hc => Text.isBlank_of_isInlineBlank (ha.blanks_inline ch hc), ha.unmet⟩

/-- Where no line starts, none starts after more text of the line either. -/
theorem Follows.inside_append {before more : List Char} (h : s.Follows before)
    (hl : s.lineStart = false) (hm : '\n' ∉ more) :
    (Text.lastLine (before ++ more)).all Text.isInlineBlank = false := by
  rw [Text.lastLine_append hm, List.all_append, h.inside hl, Bool.false_and]

/-- The text to the end of the source. -/
theorem Outlined.finish (ha : s.Ahead blanks text tag) (hr : tag.rest = [])
    (hd : s.delimiters.Proper)
    (h : Outlined types marks { s.pushText (blanks ++ text) with cursor := tag }) :
    Outlined types marks s := by
  obtain ⟨pieces, hcut, hm⟩ := h
  have hout := s.outline_pushText (blanks ++ text)
  rw [pushText_eq] at hcut hm hout
  rw [Piece.cut?_nil hd.start_ne_nil hr] at hcut
  cases hcut
  have hskip : Piece.cut? types s.scopes s.delimiters s.cursor = some ([], blanks ++ text) := by
    rw [Piece.cut?_skip ha.reads (ha.unmet_front hd), Piece.cut?_nil hd.start_ne_nil hr]
    simp [Piece.prepend]
  refine ⟨_, hskip, fun before hf _ => ?_⟩
  have hnext := hm (before ++ (blanks ++ text)) ⟨fun _ => .inr hr,
    fun hl => hf.inside_append hl ha.front_no_lineFeed, hf.noParent⟩
    fun _ hp => absurd hp List.not_mem_nil
  rw [hnext]
  have e : Piece.outline (before ++ (blanks ++ text)) false [] [] = [] := rfl
  rw [e, List.append_nil]
  exact hout

/-- A line of text. -/
theorem Outlined.line {rest : List Char} (ha : s.Ahead blanks text tag)
    (hr : tag.rest = '\n' :: rest) (hd : s.delimiters.Proper)
    (h : Outlined types marks
      { s.pushText (blanks ++ text ++ ['\n']) with cursor := tag.tail, lineStart := true }) :
    Outlined types marks s := by
  obtain ⟨pieces, hcut, hm⟩ := h
  have hout := s.outline_pushText (blanks ++ text ++ ['\n'])
  rw [pushText_eq] at hcut hm hout
  have hreads : s.cursor.Reads (blanks ++ text ++ ['\n']) tag.tail :=
    ha.reads.trans (Cursor.reads_tail (by rw [hr]; rfl))
  have htail : tag.rest = ['\n'] ++ tag.tail.rest := (Cursor.reads_tail (by rw [hr]; rfl)).1
  have hunmet : Text.Unmet s.delimiters.start.toList (blanks ++ text ++ ['\n']) tag.tail.rest :=
    Text.unmet_append.mpr ⟨htail ▸ ha.unmet_front hd, hd.unmet (List.forall_mem_singleton.mpr rfl)⟩
  have hskip : Piece.cut? types s.scopes s.delimiters s.cursor =
      some (Piece.prepend (blanks ++ text ++ ['\n']) pieces) := by
    rw [Piece.cut?_skip hreads hunmet]
    exact congrArg _ hcut
  refine ⟨_, hskip, fun before hf hp => ?_⟩
  have hstart : Text.lastLine (before ++ (blanks ++ text ++ ['\n'])) = [] := by
    rw [← List.append_assoc]
    exact Text.lastLine_lineFeed _
  have hnext := hm (before ++ (blanks ++ text ++ ['\n']))
    ⟨fun _ => .inl hstart, nofun, hf.noParent⟩ (Piece.noParent_prepend hp)
  rw [hnext, Piece.outline_line, ← List.append_assoc s.outline]
  exact congrArg (· ++ Piece.outline _ false pieces.1 pieces.2) hout

section

variable {s' : Draft} {held : List Char} {inner c : Cursor} {t : Tag} {before : List Char}

/-- On the way to a tag no body is opened or closed. -/
theorem Reaches.scope (hr : s.Reaches blanks text s' held) :
    s'.scopes = s.scopes ∧ s'.delimiters = s.delimiters ∧ s'.frames = s.frames := by
  obtain ⟨-, rfl, -⟩ | ⟨-, rfl, -⟩ := hr
  · exact ⟨rfl, rfl, rfl⟩
  · rw [pushText_eq]
    exact ⟨rfl, rfl, rfl⟩

/-- A tag is reached where a line starts if and only if the line has nothing but blanks before
it. -/
theorem Reaches.lineStart (hr : s.Reaches blanks text s' held) (ha : s.Ahead blanks text tag)
    (hf : s.Follows before) (hne : s.cursor.rest ≠ []) :
    s'.lineStart = (Text.lastLine (before ++ (blanks ++ text))).all Text.isInlineBlank := by
  cases hl : s.lineStart with
  | false =>
    rw [hf.inside_append hl ha.front_no_lineFeed]
    obtain ⟨-, rfl, -⟩ | ⟨-, rfl, -⟩ := hr
    · exact hl
    · rfl
  | true =>
    have hb : blanks.all Text.isInlineBlank = true := List.all_eq_true.mpr ha.blanks_inline
    rw [Text.lastLine_append ha.front_no_lineFeed, (hf.atStart hl).resolve_right hne,
      List.nil_append, List.all_append, hb, Bool.true_and]
    obtain ⟨rfl, rfl, -⟩ | ⟨hne, rfl, -⟩ := hr
    · exact hl
    · obtain ⟨ch, more, rfl⟩ := List.exists_cons_of_ne_nil hne
      rw [List.all_cons, ha.head_not_blank hl ch more rfl, Bool.false_and]

/-- Text and blanks before a tag: what is added to the draft is what is kept of the piece. -/
theorem Reaches.outline (hr : s.Reaches blanks text s' held) (ha : s.Ahead blanks text tag)
    {alone : Bool} (hl : alone = true → s'.lineStart = true) :
    s'.outline ++ (if alone then [] else held.map .char) =
        s.outline ++ (Piece.kept false alone (blanks ++ text)).map .char ∧
      (alone = true → Piece.blanksAtEnd (blanks ++ text) = held) := by
  have hb : ∀ ch ∈ blanks.reverse, Text.isInlineBlank ch = true :=
    fun ch hc => ha.blanks_inline ch (List.mem_reverse.mp hc)
  obtain ⟨rfl, rfl, rfl⟩ | ⟨-, rfl, rfl⟩ := hr
  · rw [List.append_nil]
    cases alone with
    | false => exact ⟨rfl, nofun⟩
    | true =>
      have hkept : Piece.kept false true held = [] := by
        simp only [Piece.kept, Bool.false_eq_true, if_false, if_true, Text.trimEndWhile,
          List.dropWhile_eq_nil_iff.mpr hb, List.reverse_nil]
      have hend : Piece.blanksAtEnd held = held := by
        rw [Piece.blanksAtEnd, List.takeWhile_eq_self_iff.mpr hb, List.reverse_reverse]
      rw [hkept]
      exact ⟨rfl, fun _ => hend⟩
  · cases alone with
    | true => exact absurd (hl rfl) (by simp)
    | false => exact ⟨(List.append_nil _).trans (s.outline_pushText _), nofun⟩

/-- **After a tag**: the pieces from there, given those from where reading goes on. What lies
between is the end of the line of a tag that stands alone. -/
theorem place_pieces (hp : s.place held tag t c = .ok next) (hn : next.delimiters.Proper)
    {pieces : List Piece × List Char}
    (hcut : Piece.cut? types next.scopes next.delimiters next.cursor = some pieces) :
    ∃ front after, Piece.cut? types next.scopes next.delimiters c = some after ∧
      ((∀ p ∈ after.1, p.NoParent) → ∀ p ∈ pieces.1, p.NoParent) ∧
      (s.standsAlone t c = false → front = []) ∧
      ∀ before, Piece.outline before (s.standsAlone t c) after.1 after.2 =
          Piece.outline (before ++ front) false pieces.1 pieces.2 ∧
        (s.standsAlone t c = true →
          Text.lastLine (before ++ front) = [] ∨ next.cursor.rest = []) := by
  obtain ⟨ha, hc⟩ | ⟨ha, hc⟩ := place_cursor hp
  · obtain ⟨front, hfront, hout⟩ := Piece.outline_lineEnd hn hc hcut
    rw [ha]
    exact ⟨front, _, hfront, Piece.noParent_prepend, nofun,
      fun before => ⟨(hout before).1, fun _ => (hout before).2⟩⟩
  · rw [ha]
    refine ⟨[], pieces, hc ▸ hcut, id, fun _ => rfl, fun before => ?_⟩
    rw [List.append_nil]
    exact ⟨rfl, nofun⟩

/-- A tag has something other than blanks on its line, its end delimiter. -/
theorem not_blank_after_tag {d : Delimiters} (hd : d.Proper) (before used : List Char) :
    (Text.lastLine (before ++ (d.start.toList ++ (used ++ d.stop.toList)))).all
      Text.isInlineBlank = false := by
  have hlast := hd.stop_no_blank _ (List.getLast_mem hd.stop_ne_nil)
  rw [← List.dropLast_concat_getLast hd.stop_ne_nil]
  simp only [← List.append_assoc]
  exact Text.lastLine_not_blank hlast

/-- Whether a tag stands alone, told from the draft that reaches it and from the source. -/
theorem Reaches.isAlone (hr : s.Reaches blanks text s' held) (ha : s.Ahead blanks text tag)
    (hf : s.Follows before) (hne : s.cursor.rest ≠ []) {outer : List Delimiters} {d : Delimiters}
    {pieces : List Piece} {last : List Char}
    (hcut : Piece.cut? types outer d c = some (pieces, last)) :
    t.isAlone (before ++ (blanks ++ text)) (Piece.flatten pieces last) = s'.standsAlone t c := by
  rw [Tag.isAlone, standsAlone, Piece.flatten_of_cut? hcut, hr.lineStart ha hf hne,
    Cursor.isSome_lineEnd?]

/-- A tag, with the text before it. -/
theorem Outlined.place (ha : s.Ahead blanks text tag)
    (hi : tag.Reads s.delimiters.start.toList inner)
    (hread : Tag.read types s.delimiters tag.offset inner = .ok (t, c))
    (hr : s.Reaches blanks text s' held) (hp : s'.place held tag t c = .ok next)
    (hd : s.delimiters.Proper) (hn : next.delimiters.Proper) (h : Outlined types marks next) :
    Outlined types marks s := by
  obtain ⟨pieces, hcut, hm⟩ := h
  obtain ⟨used, hused⟩ := Tag.reads_of_read hread
  have hne : s.cursor.rest ≠ [] := by
    rw [ha.reads.1, hi.1]
    simp [hd.start_ne_nil]
  obtain ⟨front, ⟨rest, last⟩, hcutAfter, hparents, hfront, hout⟩ := place_pieces hp hn hcut
  have hpiece : Piece.cut? types s.scopes s.delimiters s.cursor = _ :=
    Piece.cut?_tag hd.start_ne_nil ha.reads (ha.unmet_front hd) hi hread hused
  have hscope : t.scope s.scopes s.delimiters = (next.scopes, next.delimiters) := by
    rw [← place_scope hp, hr.scope.1, hr.scope.2.1]
  rw [hscope, hcutAfter] at hpiece
  refine ⟨_, hpiece, fun before hf hparent => ?_⟩
  obtain ⟨hpt, hps⟩ := List.forall_mem_cons.mp hparent
  have hframes : NoParent s'.frames := by
    rw [hr.scope.2.2]
    exact hf.noParent
  have hstart : s'.standsAlone t c = true → s'.lineStart = true := fun h => by
    simp only [standsAlone, Bool.and_eq_true] at h
    exact h.1.2
  obtain ⟨hkept, hblanks⟩ := hr.outline ha hstart
  obtain ⟨hnoParent, hline, hplace⟩ := place_outline hframes hpt hp
  -- The draft after the tag follows the tag, and the end of its line if it stands alone.
  obtain ⟨hrest, hlineStart⟩ := hout (before ++ (blanks ++ text) ++
    (s.delimiters.start.toList ++ (used ++ s.delimiters.stop.toList)))
  have hnext := hm _ ⟨fun hl => hlineStart (hline ▸ hl), fun hl => by
    rw [hfront (hline ▸ hl), List.append_nil]
    exact not_blank_after_tag hd _ used, hnoParent⟩ (hparents hps)
  have hmarks : (if s'.standsAlone t c then indentation? (Piece.blanksAtEnd (blanks ++ text))
      else none) = if s'.standsAlone t c then indentation? held else none := by
    split_ifs with h
    · rw [hblanks h]
    · rfl
  rw [hnext, hplace, hkept, Piece.outline, hr.isAlone ha hf hne hcutAfter, hrest, Piece.marks]
  dsimp only
  rw [hmarks]
  simp only [List.append_assoc]

end

/-- What holds of the delimiters around and here holds of them behind a tag too. -/
theorem scope_keeps {P : Delimiters → Prop} {t : Tag} {outer : List Delimiters} {d : Delimiters}
    (hd : P d ∧ ∀ e ∈ outer, P e) (ht : ∀ found, t = .delimiters found → P found) :
    P (t.scope outer d).2 ∧ ∀ e ∈ (t.scope outer d).1, P e := by
  cases t with
  | opening => exact ⟨hd.1, List.forall_mem_cons.mpr hd⟩
  | closing =>
    cases outer with
    | nil => exact hd
    | cons e outer => exact List.forall_mem_cons.mp hd.2
  | delimiters found => exact ⟨ht found rfl, hd.2⟩
  | interpolation | comment | inclusion | pragma => exact hd

/-- What holds of all delimiters that a tag may set holds of those of a draft from one step to the
next. -/
theorem step_keeps_delimiters {P : Delimiters → Prop}
    (hread : ∀ {d found start c c'}, Tag.read types d start c = .ok (.delimiters found, c') →
      P found)
    (hs : s.step types = .ok next) (h : P s.delimiters ∧ ∀ d ∈ s.scopes, P d) :
    P next.delimiters ∧ ∀ d ∈ next.scopes, P d := by
  cases moves_of_step hs with
  | finish | line =>
    rw [pushText_eq]
    exact h
  | @tag s' _ _ _ held tag inner c t ha hi hr hreach hp =>
    have hscope : t.scope s.scopes s.delimiters = (next.scopes, next.delimiters) := by
      rw [← place_scope hp, hreach.scope.1, hreach.scope.2.1]
    have hfound : ∀ found, t = .delimiters found → P found := by
      rintro found rfl
      exact hread hr
    have hnext := scope_keeps h hfound
    rw [hscope] at hnext
    exact hnext

theorem Proper.step (hs : s.step types = .ok next) (hd : s.Proper) : next.Proper :=
  step_keeps_delimiters Delimiters.proper_of_read hs hd

/-- **A step keeps the marks of a draft and of what is left together.** -/
theorem Outlined.step (hs : s.step types = .ok next) (hd : s.Proper)
    (h : Outlined types marks next) : Outlined types marks s := by
  cases moves_of_step hs with
  | finish ha hr => exact h.finish ha hr hd.1
  | line ha hr => exact h.line ha hr hd.1
  | tag ha hi hread hr hp => exact h.place ha hi hread hr hp hd.1 (hd.step hs).1

/-- The marks of the draft at the end. -/
theorem outlined_of_run {final : Draft} (hr : s.run types = .ok final) (hd : s.Proper) :
    Outlined types final.outline s := by
  fun_induction run types s with
  | case1 s he hf =>
    cases hr
    refine ⟨_, Piece.cut?_nil hd.1.start_ne_nil (List.isEmpty_iff.mp he), fun _ _ _ => ?_⟩
    exact (List.append_nil _).symm
  | case2 => cases hr
  | case3 => cases hr
  | case4 s _ next hs _ ih => exact (ih hr (hd.step hs)).step hs hd
  | case5 => cases hr

end Draft

/-- **The text of a template is its source without the tags**, and without the blanks and the line
ends around those that stand alone; partials and blocks that stand alone keep the blanks before
them as their indentation. This holds of every source without parents that is read, and the pieces
that it is cut into are the whole of it. -/
theorem Token.outline_of_parse {types : ContentTypes} {source : String} {tokens : List Token}
    (h : Token.parse types source = .ok tokens) :
    ∃ pieces last,
      Piece.cut? types [] .standard (.ofString source) = some (pieces, last) ∧
      Piece.flatten pieces last = source.toList ∧
      ((∀ p ∈ pieces, p.NoParent) →
        Token.outlineAll tokens = Piece.outline [] false pieces last) := by
  obtain ⟨final, hr, rfl⟩ := Token.parseWith_eq_ok.mp h
  have hproper : (Draft.start .standard source).Proper :=
    ⟨Delimiters.proper_standard, by simp [Draft.start, Draft.scopes]⟩
  obtain ⟨⟨pieces, last⟩, hcut, hm⟩ := Draft.outlined_of_run hr hproper
  refine ⟨pieces, last, hcut, Piece.flatten_of_cut? hcut, fun hp => ?_⟩
  have hfollows : (Draft.start .standard source).Follows [] :=
    ⟨fun _ => .inl rfl, fun hl => (by cases hl), Draft.noParent_nil⟩
  have hfinal : final.outline = Token.outlineAll final.tokens.reverse := by
    have hf := (Draft.run_keeps (P := fun _ => True) (fun _ _ _ _ => trivial) trivial hr).2.1
    rw [Draft.outline, hf]
    rfl
  rw [← hfinal]
  exact hm [] hfollows hp

/-- A section with a partial on a line of its own, and one beside its close tag. -/
theorem Token.outline_of_parse_section :
    ∃ tokens pieces last,
      Token.parse Config.builtIn.types "{{#s}}\r\n  {{>p}} \n{{/s}} {{>q}}" = .ok tokens ∧
      Piece.cut? Config.builtIn.types [] .standard
        (.ofString "{{#s}}\r\n  {{>p}} \n{{/s}} {{>q}}") = some (pieces, last) ∧
      (∀ p ∈ pieces, p.NoParent) ∧
      Token.outlineAll tokens = Piece.outline [] false pieces last ∧
      Token.outlineAll tokens =
        [.inclusion ⟨"p", false⟩ (some "  "), .char ' ', .inclusion ⟨"q", false⟩ none] := by
  have hp : Token.parse Config.builtIn.types "{{#s}}\r\n  {{>p}} \n{{/s}} {{>q}}" = .ok
      [.sectionTag (.plain "s") ⟨"  {{>p}} \n", .standard⟩
        [.partialTag ⟨"p", false⟩ (some "  ")], .text " ", .partialTag ⟨"q", false⟩ none] := by
    cbv
  have hc : Piece.cut? Config.builtIn.types [] .standard
      (.ofString "{{#s}}\r\n  {{>p}} \n{{/s}} {{>q}}") = some
        ([⟨[], .opening (.present (.plain "s")), "{{#s}}".toList⟩,
          ⟨"\r\n  ".toList, .inclusion ⟨"p", false⟩, "{{>p}}".toList⟩,
          ⟨" \n".toList, .closing (.plain "s"), "{{/s}}".toList⟩,
          ⟨" ".toList, .inclusion ⟨"q", false⟩, "{{>q}}".toList⟩], []) := by
    cbv
  obtain ⟨pieces, last, hcut, -, ho⟩ := Token.outline_of_parse hp
  rw [hc] at hcut
  cases hcut
  have hparent : ∀ p ∈ [
      (⟨[], .opening (.present (.plain "s")), "{{#s}}".toList⟩ : Piece),
      ⟨"\r\n  ".toList, .inclusion ⟨"p", false⟩, "{{>p}}".toList⟩,
      ⟨" \n".toList, .closing (.plain "s"), "{{/s}}".toList⟩,
      ⟨" ".toList, .inclusion ⟨"q", false⟩, "{{>q}}".toList⟩], p.NoParent := by
    simp [Piece.NoParent]
  exact ⟨_, _, _, hp, hc, hparent, ho hparent, rfl⟩

end Mustache
