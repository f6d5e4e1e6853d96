import Mustache.Proofs.Delimiters
import Mustache.Template.Draft

/-!
# What a step of reading a template does

* `Draft.Ahead`: what lies between a draft and the next line feed or tag;
* `Draft.step_text`, `Draft.step_line`, `Draft.step_tag`: the three ways of a step;
  **`Draft.step_cases`**;
* `Draft.Moves`, `Draft.moves_of_step`: how a step succeeds;
* `Draft.leave_cases`, `Draft.close_spec`: whether a tag stands alone, and how it is closed;
* **`Draft.run_keeps`**: what every step keeps holds when the text is read, and then no tag is
  open.
-/

namespace Mustache

/-- The tokens of a text: none if it is empty. -/
def Token.ofText (text : List Char) : List Token :=
  if text.isEmpty then [] else [.text (String.ofList text)]

theorem Token.mem_ofText {t : Token} {text : List Char} :
    t ∈ ofText text ↔ text ≠ [] ∧ t = .text (String.ofList text) := by
  unfold ofText
  cases text <;> simp

namespace Draft

/-! ## Fields -/

@[simp] theorem push_delimiters (s : Draft) (t : Token) :
    (s.push t).delimiters = s.delimiters := rfl

@[simp] theorem push_frames (s : Draft) (t : Token) : (s.push t).frames = s.frames := rfl
@[simp] theorem push_tokens (s : Draft) (t : Token) : (s.push t).tokens = t :: s.tokens := rfl

theorem pushText_eq (s : Draft) (text : List Char) :
    s.pushText text = { s with tokens := Token.ofText text ++ s.tokens } := by
  unfold pushText Token.ofText
  split_ifs <;> rfl

@[simp] theorem pushText_delimiters (s : Draft) (text : List Char) :
    (s.pushText text).delimiters = s.delimiters := by rw [pushText_eq]

@[simp] theorem pushText_frames (s : Draft) (text : List Char) :
    (s.pushText text).frames = s.frames := by rw [pushText_eq]

@[simp] theorem pushText_tokens (s : Draft) (text : List Char) :
    (s.pushText text).tokens = Token.ofText text ++ s.tokens := by rw [pushText_eq]

/-! ## Ahead of a draft -/

/-- What lies between a draft and the next line feed or tag: blanks if a line starts here, and
text. -/
structure Ahead (s : Draft) (blanks text : List Char) (tag : Cursor) : Prop where
  reads : s.cursor.Reads (blanks ++ text) tag
  blanks_inline : ∀ ch ∈ blanks, Text.isInlineBlank ch = true
  blanks_eq_nil : s.lineStart = false → blanks = []
  head_not_blank : s.lineStart = true → ∀ ch rest, text = ch :: rest → Text.isInlineBlank ch = false
  no_lineFeed : '\n' ∉ text
  unmet : Text.Unmet s.delimiters.start.toList text tag.rest
  stop : ∀ ch rest, tag.rest = ch :: rest → ch = '\n' ∨ s.delimiters.start.toList <+: ch :: rest

theorem ahead_spec (s : Draft) : s.Ahead s.ahead.1 s.ahead.2.1 s.ahead.2.2 := by
  have line (c : Cursor) := Cursor.splitLine_spec s.delimiters.start.toList c.rest
  unfold ahead
  cases hl : s.lineStart with
  | false =>
    obtain ⟨h1, h2, h3, h4⟩ := line s.cursor
    exact ⟨Cursor.reads_line _ _, by simp, fun _ => rfl,
      fun h => absurd (hl.symm.trans h) (by simp), h2, h3, h4⟩
  | true =>
    obtain ⟨h1, h2, h3, h4⟩ := line (s.cursor.take Text.isInlineBlank).2
    refine ⟨(Cursor.reads_take _ _).trans (Cursor.reads_line _ _), fun ch hc =>
      List.mem_takeWhile_imp hc, fun h => absurd (hl.symm.trans h) (by simp), ?_, h2, h3, h4⟩
    intro _ ch rest he
    have hd : s.cursor.rest.dropWhile Text.isInlineBlank = ch :: rest ++ _ := he ▸ h1.symm
    have := List.head?_dropWhile_not Text.isInlineBlank s.cursor.rest
    rw [hd] at this
    simpa using this

/-- Where neither a line nor the text ends, a tag starts. -/
theorem Ahead.reads_start {s : Draft} {blanks text : List Char} {tag : Cursor}
    (ha : s.Ahead blanks text tag) (hne : tag.rest ≠ []) (hl : ∀ rest, tag.rest ≠ '\n' :: rest) :
    ∃ inner, tag.Reads s.delimiters.start.toList inner := by
  obtain ⟨ch, rest, hr⟩ := List.exists_cons_of_ne_nil hne
  have hp : s.delimiters.start.toList <+: tag.rest := by
    rw [hr]
    exact (ha.stop ch rest hr).resolve_left fun e => hl rest (by rw [hr, e])
  obtain ⟨after, hafter⟩ := hp
  exact ⟨_, Cursor.reads_past hafter.symm⟩

/-- Blanks and a start delimiter: the tag lies ahead. -/
theorem ahead_of_start {s : Draft} {blanks : List Char} {tag inner : Cursor}
    (hl : blanks ≠ [] → s.lineStart = true) (hb : ∀ ch ∈ blanks, Text.isInlineBlank ch = true)
    (hr : s.cursor.Reads blanks tag) (hi : tag.Reads s.delimiters.start.toList inner) :
    s.Ahead blanks [] tag where
  reads := by rwa [List.append_nil]
  blanks_inline := hb
  blanks_eq_nil h := by
    by_contra hne
    rw [hl hne] at h
    nomatch h
  head_not_blank := nofun
  no_lineFeed := List.not_mem_nil
  unmet := Text.unmet_nil
  stop ch rest he := .inr ⟨inner.rest, hi.1.symm.trans he⟩

/-- **What lies ahead** is determined by where the next line feed or tag is. -/
theorem Ahead.eq {s : Draft} {blanks text : List Char} {tag : Cursor}
    (ha : s.Ahead blanks text tag) (hd : s.delimiters.Proper) :
    s.ahead = (blanks, text, tag) := by
  have hline {c : Cursor} (hr : c.Reads text tag) :
      c.line s.delimiters.start.toList = (text, tag) := by
    unfold Cursor.line
    rw [hr.1, Cursor.splitLine_append ha.no_lineFeed ha.unmet ha.stop]
    dsimp only
    rw [← hr.eq_past]
  unfold ahead
  cases hl : s.lineStart with
  | false =>
    have hb := ha.blanks_eq_nil hl
    have hr := ha.reads
    rw [hb, List.nil_append] at hr
    simp only [Bool.false_eq_true, if_false, hline hr, hb]
  | true =>
    -- Behind the blanks comes something else: text, the end of a line, or a start delimiter.
    have hhead : ∀ ch more, text ++ tag.rest = ch :: more → ¬ Text.isInlineBlank ch = true := by
      intro ch more he
      cases text with
      | cons x text =>
        obtain ⟨rfl, -⟩ := List.cons.inj he
        simp [ha.head_not_blank hl x text rfl]
      | nil =>
        obtain rfl | hs := ha.stop ch more he
        · decide
        · obtain ⟨m, mark, hm, hblank⟩ := hd.starts hs
          obtain ⟨rfl, -⟩ := List.cons.inj hm
          simp [Text.isInlineBlank_of_not_isBlank hblank]
    have hrest : s.cursor.rest = blanks ++ (text ++ tag.rest) := by
      rw [ha.reads.1, List.append_assoc]
    have hnil : (text ++ tag.rest).takeWhile Text.isInlineBlank = [] ∧
        (text ++ tag.rest).dropWhile Text.isInlineBlank = text ++ tag.rest := by
      cases he : text ++ tag.rest with
      | nil => exact ⟨rfl, rfl⟩
      | cons ch more =>
        exact ⟨List.takeWhile_cons_of_neg (hhead ch more he),
          List.dropWhile_cons_of_neg (hhead ch more he)⟩
    have htake : s.cursor.take Text.isInlineBlank =
        (blanks, s.cursor.past blanks (text ++ tag.rest)) := by
      unfold Cursor.take
      rw [hrest, List.takeWhile_append_of_pos ha.blanks_inline,
        List.dropWhile_append_of_pos ha.blanks_inline, hnil.1, hnil.2, List.append_nil]
    have hr : (s.cursor.past blanks (text ++ tag.rest)).Reads text tag :=
      ha.reads.rest (Cursor.reads_past hrest)
    simp only [if_true, htake, hline hr]

/-! ## Steps -/

/-- A tag is reached with the draft `s'` and the blanks `held` in front of it: text before it is
added with its blanks, otherwise they are held back. -/
def Reaches (s : Draft) (blanks text : List Char) (s' : Draft) (held : List Char) : Prop :=
  (text = [] ∧ s' = s ∧ held = blanks) ∨
    (text ≠ [] ∧ s' = { s.pushText (blanks ++ text) with lineStart := false } ∧ held = [])

/-- **How a step succeeds**: it reads up to the end of the text, a line, or up to a tag and the
tag. -/
inductive Moves (types : ContentTypes) (s : Draft) : Draft → Prop
  | finish {blanks text : List Char} {tag : Cursor} (ha : s.Ahead blanks text tag)
      (hr : tag.rest = []) :
    Moves types s { s.pushText (blanks ++ text) with cursor := tag }
  | line {blanks text rest : List Char} {tag : Cursor} (ha : s.Ahead blanks text tag)
      (hr : tag.rest = '\n' :: rest) :
    Moves types s
      { s.pushText (blanks ++ text ++ ['\n']) with cursor := tag.tail, lineStart := true }
  | tag {s' next : Draft} {blanks text held : List Char} {tag inner c : Cursor} {t : Tag}
      (ha : s.Ahead blanks text tag) (hi : tag.Reads s.delimiters.start.toList inner)
      (hread : Tag.read types s.delimiters tag.offset inner = .ok (t, c))
      (hs : s.Reaches blanks text s' held) (hp : s'.place held tag t c = .ok next) :
    Moves types s next

variable {types : ContentTypes} {s next : Draft}

theorem step_text (h : s.ahead.2.2.rest = []) :
    s.step types =
      .ok { s.pushText (s.ahead.1 ++ s.ahead.2.1) with cursor := s.ahead.2.2 } := by
  rw [step]
  dsimp only
  rw [h]

theorem step_line {rest : List Char} (h : s.ahead.2.2.rest = '\n' :: rest) :
    s.step types =
      .ok { s.pushText (s.ahead.1 ++ s.ahead.2.1 ++ ['\n']) with
        cursor := s.ahead.2.2.tail
        lineStart := true } := by
  rw [step]
  dsimp only
  rw [h]
  rfl

/-- The draft with which the next tag is reached, and the blanks that are held back. -/
def reached (s : Draft) : Draft × List Char :=
  if s.ahead.2.1.isEmpty then (s, s.ahead.1)
  else ({ s.pushText (s.ahead.1 ++ s.ahead.2.1) with lineStart := false }, [])

theorem reaches_reached (s : Draft) :
    s.Reaches s.ahead.1 s.ahead.2.1 s.reached.1 s.reached.2 := by
  unfold reached
  split_ifs with h
  · exact .inl ⟨List.isEmpty_iff.mp h, rfl, rfl⟩
  · exact .inr ⟨mt List.isEmpty_iff.mpr h, rfl, rfl⟩

theorem step_tag {inner : Cursor} (hne : s.ahead.2.2.rest ≠ [])
    (hl : ∀ rest, s.ahead.2.2.rest ≠ '\n' :: rest)
    (hi : s.ahead.2.2.Reads s.delimiters.start.toList inner) :
    s.step types = (Tag.read types s.delimiters s.ahead.2.2.offset inner).bind
      fun (t, c) => s.reached.1.place s.reached.2 s.ahead.2.2 t c := by
  have hc : s.ahead.2.2.after? s.delimiters.start.toList = some inner := by
    rw [Cursor.after?, hi.1, Text.after?_append, Option.map_some, ← hi.eq_past]
  rw [step]
  dsimp only
  split
  · rename_i h
    exact absurd h hne
  · rename_i rest h
    exact absurd h (hl rest)
  · rw [hc, Option.getD_some]
    cases Tag.read types s.delimiters s.ahead.2.2.offset inner with
    | error fault => rfl
    | ok r =>
      dsimp only [Except.bind, reached]
      split_ifs <;> rfl

/-- **A step up to a tag** reads it. -/
theorem Ahead.step {blanks text : List Char} {tag inner : Cursor} (ha : s.Ahead blanks text tag)
    (hd : s.delimiters.Proper)    (hi : tag.Reads s.delimiters.start.toList inner) :
    s.step types = (Tag.read types s.delimiters tag.offset inner).bind
      fun (t, c) => s.reached.1.place s.reached.2 tag t c := by
  have htag : s.ahead.2.2 = tag := by rw [ha.eq hd]
  subst htag
  obtain ⟨ch, rest, hr, hblank⟩ := hd.starts ⟨inner.rest, hi.1.symm⟩
  refine step_tag (by rw [hr]; nofun) (fun more he => ?_) hi
  rw [hr] at he
  rw [(List.cons.inj he).1] at hblank
  nomatch hblank

/-- **A step where a tag starts**, perhaps after blanks that start a line. -/
theorem step_of_start (types : ContentTypes) {blanks : List Char} {tag inner : Cursor}
    (hd : s.delimiters.Proper) (hl : blanks ≠ [] → s.lineStart = true)
    (hb : ∀ ch ∈ blanks, Text.isInlineBlank ch = true) (hr : s.cursor.Reads blanks tag)
    (hi : tag.Reads s.delimiters.start.toList inner) :
    s.step types = (Tag.read types s.delimiters tag.offset inner).bind
      fun (t, c) => s.place blanks tag t c := by
  have ha := ahead_of_start hl hb hr hi
  have hreached : s.reached = (s, blanks) := by
    unfold reached
    rw [ha.eq hd]
    rfl
  rw [ha.step hd hi, hreached]

/-- A tag with the standard delimiters. -/
theorem reads_start {tag : Cursor} {rest : List Char} (hd : s.delimiters = .standard)
    (hr : tag.rest = '{' :: '{' :: rest) :
    tag.Reads s.delimiters.start.toList (tag.past ['{', '{'] rest) := by
  rw [hd]
  exact Cursor.reads_past hr

/-- **What a step does**, whether or not it succeeds: it reads up to the end of the text, a line, or
a tag, on which the result depends. -/
theorem step_cases (types : ContentTypes) (s : Draft) :
    ∃ blanks text tag, s.Ahead blanks text tag ∧
      (tag.rest = [] ∧ s.step types = .ok { s.pushText (blanks ++ text) with cursor := tag } ∨
        (∃ rest, tag.rest = '\n' :: rest ∧ s.step types = .ok
          { s.pushText (blanks ++ text ++ ['\n']) with cursor := tag.tail, lineStart := true }) ∨
        ∃ inner s' held, tag.Reads s.delimiters.start.toList inner ∧
          s.Reaches blanks text s' held ∧
          s.step types = (Tag.read types s.delimiters tag.offset inner).bind
            fun (t, c) => s'.place held tag t c) := by
  have ha := s.ahead_spec
  refine ⟨s.ahead.1, s.ahead.2.1, s.ahead.2.2, ha, ?_⟩
  by_cases hne : s.ahead.2.2.rest = []
  · exact .inl ⟨hne, step_text hne⟩
  by_cases hl : ∃ rest, s.ahead.2.2.rest = '\n' :: rest
  · obtain ⟨rest, hr⟩ := hl
    exact .inr (.inl ⟨rest, hr, step_line hr⟩)
  · rw [not_exists] at hl
    obtain ⟨inner, hi⟩ := ha.reads_start hne hl
    exact .inr (.inr ⟨inner, _, _, hi, s.reaches_reached, step_tag hne hl hi⟩)

theorem moves_of_step (h : s.step types = .ok next) : Moves types s next := by
  obtain ⟨blanks, text, tag, ha, ⟨hr, hs⟩ | ⟨rest, hr, hs⟩ | ⟨inner, s', held, hi, hr, hs⟩⟩ :=
    s.step_cases types
  · cases hs.symm.trans h
    exact .finish ha hr
  · cases hs.symm.trans h
    exact .line ha hr
  · rw [hs] at h
    cases hread : Tag.read types s.delimiters tag.offset inner with
    | error fault => rw [hread] at h; cases h
    | ok r => rw [hread] at h; exact .tag ha hi hread hr h

/-- A tag stands alone if a line starts before it and ends after it. -/
theorem leave_cases (s : Draft) (blanks : List Char) (c : Cursor) :
    (s.lineStart = true ∧ ∃ c', c.lineEnd? = some c' ∧
      s.leave blanks c = { s with cursor := c', lineStart := true }) ∨
    ((s.lineStart = true → c.lineEnd? = none) ∧
      s.leave blanks c = { s.pushText blanks with cursor := c, lineStart := false }) := by
  unfold leave
  cases s.lineStart with
  | false => exact .inr ⟨by simp, rfl⟩
  | true =>
    cases hc : c.lineEnd? with
    | none => exact .inr ⟨fun _ => rfl, rfl⟩
    | some c' => exact .inl ⟨rfl, c', rfl, rfl⟩

@[simp] theorem leave_frames (s : Draft) (blanks : List Char) (c : Cursor) :
    (s.leave blanks c).frames = s.frames := by
  obtain ⟨-, c', -, h⟩ | ⟨-, h⟩ := s.leave_cases blanks c <;> simp [h]

@[simp] theorem leave_delimiters (s : Draft) (blanks : List Char) (c : Cursor) :
    (s.leave blanks c).delimiters = s.delimiters := by
  obtain ⟨-, c', -, h⟩ | ⟨-, h⟩ := s.leave_cases blanks c <;> simp [h]

/-- **How a tag is closed**: the body becomes the tokens that stand for it in the body around. -/
theorem close_spec {blanks : List Char} {tag c : Cursor} {expr : Expression}
    (h : s.close blanks tag expr c = .ok next) :
    ∃ f outer tokens, s.frames = f :: outer ∧ f.opening.closing = expr ∧
      Frame.tokens? f outer (String.ofList (f.body.take (f.body.length - tag.rest.length)))
        (s.leave blanks c).tokens.reverse (s.leave blanks c).lineStart = some tokens ∧
      next = { s.leave blanks c with
        tokens := tokens ++ f.outer
        frames := outer
        delimiters := f.delimiters } := by
  unfold close at h
  split at h
  · cases h
  · rename_i f outer hf
    split_ifs at h with hclosing
    dsimp only at h
    split at h
    · cases h
    · rename_i tokens ht
      cases h
      exact ⟨f, outer, tokens, hf, not_not.mp hclosing, ht, rfl⟩

/-! ## Runs -/

/-- **What every step keeps holds at the end**, where all tags are closed. -/
theorem run_keeps {P : Draft → Prop} (hstep : ∀ s next, P s → s.step types = .ok next → P next)
    {final : Draft} (h : P s) (hr : s.run types = .ok final) :
    P final ∧ final.frames = [] ∧ final.cursor.rest = [] := by
  fun_induction run types s with
  | case1 s he hf =>
    cases hr
    exact ⟨h, List.isEmpty_iff.mp hf, List.isEmpty_iff.mp he⟩
  | case2 => cases hr
  | case3 => cases hr
  | case4 s _ next hs _ ih => exact ih (hstep s next h hs) hr
  | case5 => cases hr

end Draft

/-- The draft at the end of a template that is read. -/
theorem Token.parseWith_eq_ok {d : Delimiters} {types : ContentTypes} {source : String}
    {tokens : List Token} :
    parseWith d types source = .ok tokens ↔
      ∃ final, (Draft.start d source).run types = .ok final ∧ final.tokens.reverse = tokens := by
  unfold parseWith
  cases (Draft.start d source).run types with
  | error e => simp
  | ok final => simp

theorem Token.parseWith_eq_error {d : Delimiters} {types : ContentTypes} {source : String}
    {e : ParseError} :
    parseWith d types source = .error e ↔
      ∃ fault, (Draft.start d source).run types = .error fault ∧ .locate source fault = e := by
  unfold parseWith
  cases (Draft.start d source).run types with
  | error fault => simp
  | ok final => simp

end Mustache
