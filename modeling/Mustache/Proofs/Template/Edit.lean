import Mustache.Proofs.Template.Atop
import Mustache.Proofs.Template.Extend
import Mustache.Proofs.Template.Retrace
import Mustache.Proofs.Token.Change

/-!
# Behind a change of the text

A text is changed at one place, and behind this place reading goes on with the same tokens, but for
those that the place itself has added. From there on the same tags are met. Where a tag is closed
that was opened before the place, its body is the one that has changed.

* `Edit`: a change of a text; `Edit.Encloses`: the sources of a section around the place;
* `Draft.fronts`: the tokens in front of the open tags; `Draft.changed`: a change behind the tokens
  of a draft;
* `Frame.Edited`, `Draft.Stacked`, `Draft.Edited`: two drafts behind the place;
* `Draft.Parallel`: drafts at the same place of both texts; `Draft.Parallel.edited`;
* `Draft.Leads.edited`: the tags that are open at the place;
* `Draft.tokens?_edited`, `Draft.Edited.leave`, **`Draft.Edited.place`**: a tag;
* **`Draft.Edited.step`**, **`Draft.Edited.run`**, `Draft.Edited.run_cases`;
* **`Token.parsedChange_of_edited`**, `Token.along_of_edited`.
-/

namespace Mustache

/-- A change of a text: between `before` and `after` it has `new` instead of `old`. -/
structure Edit where
  before : List Char
  old : List Char
  new : List Char
  after : List Char

namespace Edit

/-- The text before the change. -/
def source (e : Edit) : List Char := e.before ++ (e.old ++ e.after)

/-- The text after the change. -/
def target (e : Edit) : List Char := e.before ++ (e.new ++ e.after)

/-- The sources of a section around the place, in both texts. -/
def Encloses (e : Edit) (src src' : Source) : Prop :=
  src.delimiters = src'.delimiters ∧ ∃ x y, x <:+ e.before ∧ y <+: e.after ∧
    src.raw.toList = x ++ (e.old ++ y) ∧ src'.raw.toList = x ++ (e.new ++ y)

end Edit

variable {e : Edit} {change : Token.Change} {types : ContentTypes}

/-- The same tag is open, and the place is in its body. -/
structure Frame.Edited (e : Edit) (f f' : Frame) : Prop where
  opening : f.opening = f'.opening
  blanks : f.blanks = f'.blanks
  alone : f.alone = f'.alone
  outer : f.outer = f'.outer
  delimiters : f.delimiters = f'.delimiters
  body : ∃ x, x <:+ e.before ∧ f.body = x ++ (e.old ++ e.after) ∧
    f'.body = x ++ (e.new ++ e.after)

/-- The text of a section whose body has the place in it. -/
theorem Frame.Edited.encloses {f f' : Frame} (hf : f.Edited e f') {rest : List Char}
    (hr : rest <:+ e.after) :
    e.Encloses ⟨String.ofList (f.body.take (f.body.length - rest.length)), f.delimiters⟩
      ⟨String.ofList (f'.body.take (f'.body.length - rest.length)), f'.delimiters⟩ := by
  obtain ⟨x, hx, hbody, hbody'⟩ := hf.body
  obtain ⟨y, hy⟩ := hr
  have raw (middle : List Char) : (x ++ (middle ++ e.after)).take
      ((x ++ (middle ++ e.after)).length - rest.length) = x ++ (middle ++ y) := by
    rw [← hy]
    have hsplit : x ++ (middle ++ (y ++ rest)) = x ++ (middle ++ y) ++ rest := by
      simp only [List.append_assoc]
    rw [hsplit, List.length_append, Nat.add_sub_cancel, List.take_left]
  refine ⟨hf.delimiters, x, y, hx, ⟨rest, hy⟩, ?_, ?_⟩
  · rw [String.toList_ofList, hbody, raw]
  · rw [String.toList_ofList, hbody', raw]

namespace Draft

/-- The tokens in front of open tags, from the outermost inwards. -/
def fronts (frames : List Frame) : List (List Token) :=
  (frames.map fun f => f.outer.reverse).reverse

theorem fronts_cons (f : Frame) (outer : List Frame) :
    fronts (f :: outer) = fronts outer ++ [f.outer.reverse] :=
  List.reverse_cons

/-- Behind the tokens of a draft there are `new` instead of `old`. -/
def changed (s : Draft) (old new : List Token) : Token.Change :=
  ⟨fronts s.frames, s.tokens.reverse, old, new⟩

theorem unchanged_fixed (s : Draft) : (s.changed [] []).Fixed := ButOne.same []

/-- The tokens of the innermost body and the open tags, in both texts: the tags that were opened
behind the place are the same, those below them have the place in their bodies, and the tokens in
between have it within the tags that have been closed since. -/
inductive Stacked (e : Edit) (change : Token.Change) :
    List Token → List Frame → List Token → List Frame → Prop
  | here {tokens tokens' : List Token} {frames frames' : List Frame} {inner : List (List Token)}
      (hi : change.outer = fronts frames ++ inner)
      (ht : change.Within e.Encloses inner tokens.reverse tokens'.reverse)
      (hf : List.Forall₂ (Frame.Edited e) frames frames') :
    Stacked e change tokens frames tokens' frames'
  | above {tokens tokens' : List Token} {f f' : Frame} {outer outer' : List Frame}
      (ht : tokens' = tokens) (hf : f' = { f with start := f'.start, outer := f'.outer })
      (h : Stacked e change f.outer outer f'.outer outer') :
    Stacked e change tokens (f :: outer) tokens' (f' :: outer')

/-- Both drafts have the same text left, which is behind the place. -/
structure Edited (e : Edit) (change : Token.Change) (k : ℕ) (s s' : Draft) : Prop where
  cursor : s'.cursor = s.cursor.shift k
  rest : s.cursor.rest <:+ e.after
  lineStart : s'.lineStart = s.lineStart
  delimiters : s'.delimiters = s.delimiters
  stacked : Stacked e change s.tokens s.frames s'.tokens s'.frames

/-- Both results are drafts behind the place, or faults of the same cause. -/
inductive StepEdited (e : Edit) (change : Token.Change) (k : ℕ) :
    Except Fault Draft → Except Fault Draft → Prop
  | ok {next next' : Draft} (h : next.Edited e change k next') :
    StepEdited e change k (.ok next) (.ok next')
  | error {fault fault' : Fault} (h : fault.cause = fault'.cause) :
    StepEdited e change k (.error fault) (.error fault')

/-- The drafts stand at the same place of two texts: the lines and bodies that they are in have
started alike. -/
structure Parallel (s u : Draft) : Prop where
  lineStart : u.lineStart = s.lineStart
  delimiters : u.delimiters = s.delimiters
  tokens : u.tokens = s.tokens

variable {k : ℕ} {s s' next next' : Draft} {tokens tokens' : List Token}
  {frames frames' : List Frame} {tag c : Cursor} {t : Tag} {held : List Char}

/-! ## Tokens and open tags -/

/-- **Tokens are added at the place**, in each of the texts its own. -/
theorem Parallel.edited (h : s.Parallel s') (hc : s'.cursor = s.cursor.shift k)
    (hr : s.cursor.rest <:+ e.after) (hf : List.Forall₂ (Frame.Edited e) s.frames s'.frames)
    (old new : List Token) :
    ({ s with tokens := old.reverse ++ s.tokens } : Draft).Edited e (s.changed old new) k
      { s' with tokens := new.reverse ++ s'.tokens } where
  cursor := hc
  rest := hr
  lineStart := h.lineStart
  delimiters := h.delimiters
  stacked := by
    refine .here (List.append_nil _).symm ⟨[], ?_, ?_⟩ hf
    · rw [List.reverse_append, List.reverse_reverse, List.append_nil]
      rfl
    · rw [List.reverse_append, List.reverse_reverse, List.append_nil, h.tokens]
      rfl

theorem Stacked.append (h : Stacked e change tokens frames tokens' frames') (new : List Token) :
    Stacked e change (new ++ tokens) frames (new ++ tokens') frames' := by
  cases h with
  | here hi ht hf =>
    refine .here hi ?_ hf
    rw [List.reverse_append, List.reverse_append]
    exact ht.append new.reverse
  | above ht hf h => exact .above (congrArg (new ++ ·) ht) hf h

theorem insideParent_cons {f f' : Frame} (ho : f.opening = f'.opening) (outer outer' : List Frame) :
    insideParent (f' :: outer') = insideParent (f :: outer) := by
  obtain ⟨opening, _⟩ := f
  obtain ⟨opening', _⟩ := f'
  obtain rfl : opening = opening' := ho
  cases opening <;> rfl

theorem insideParent_edited (h : List.Forall₂ (Frame.Edited e) frames frames') :
    insideParent frames' = insideParent frames := by
  cases h with
  | nil => rfl
  | cons hf _ => exact insideParent_cons hf.opening _ _

theorem Stacked.insideParent (h : Stacked e change tokens frames tokens' frames') :
    insideParent frames' = insideParent frames := by
  cases h with
  | here _ _ hf => exact insideParent_edited hf
  | above _ hf _ => exact insideParent_cons (by rw [hf]) _ _

theorem Stacked.opening {f f' : Frame}
    (h : Stacked e change tokens (f :: frames) tokens' (f' :: frames')) :
    f'.opening = f.opening := by
  cases h with
  | here _ _ hf => exact (List.forall₂_cons.mp hf).1.opening.symm
  | above _ hf _ => rw [hf]

theorem Stacked.frames_eq_nil_iff (h : Stacked e change tokens frames tokens' frames') :
    frames' = [] ↔ frames = [] := by
  cases h with
  | here _ _ hf => cases hf <;> simp
  | above => simp

/-- With nothing open, the tokens are those before and after the change. -/
theorem Stacked.within (h : Stacked e change tokens [] tokens' []) :
    change.Within e.Encloses change.outer tokens.reverse tokens'.reverse := by
  cases h with
  | here hi ht _ =>
    rw [hi]
    exact ht

/-- **The tags that are open at the place**, with the text behind it before and after the change.
Both texts behind may start with the same characters. -/
theorem Leads.edited {d : Delimiters} {lead gap old new : List Char} {b : Draft}
    (h : (start d (String.ofList (e.before ++ lead))).Leads types b) (hd : d.Proper)
    (hr : b.cursor.rest = gap ++ lead) (ho : e.old = lead ++ old) (hn : e.new = lead ++ new) :
    List.Forall₂ (Frame.Edited e) (b.extend (old ++ e.after)).frames
      (b.extend (new ++ e.after)).frames := by
  have hbehind := h.behind (proper_start hd _) nofun
  have hsuffix := h.body_suffix hd
  rw [String.toList_ofList] at hsuffix
  refine List.forall₂_map_left_iff.mpr (List.forall₂_map_right_iff.mpr
    (List.forall₂_same.mpr fun f hf => ⟨rfl, rfl, rfl, rfl, rfl, ?_⟩))
  obtain ⟨y, hy⟩ := hbehind f hf
  obtain ⟨z, hz⟩ := hsuffix f hf
  have hbody : f.body = y ++ gap ++ lead := by
    rw [← hy, hr, List.append_assoc]
  have hplace : z ++ (y ++ gap) ++ lead = e.before ++ lead := by
    rw [← hz, hbody, List.append_assoc z]
  refine ⟨y ++ gap, ⟨z, List.append_cancel_right hplace⟩, ?_, ?_⟩
  · show f.body ++ _ = _
    rw [hbody, ho]
    simp only [List.append_assoc]
  · show f.body ++ _ = _
    rw [hbody, hn]
    simp only [List.append_assoc]

/-- **A tag is closed that was opened before the place**: there is the same tag around both bodies,
perhaps behind the blanks that it held back. -/
theorem tokens?_edited (hfixed : change.Fixed) {f f' : Frame} {outer outer' : List Frame}
    {raw raw' : String} {inner : List (List Token)} {body body' : List Token} (hf : f.Edited e f')
    (ho : insideParent outer' = insideParent outer)
    (hs : e.Encloses ⟨raw, f.delimiters⟩ ⟨raw', f'.delimiters⟩)
    (hb : change.Within e.Encloses inner body body') (closedAlone : Bool) :
    Option.Rel (fun new new' => ∃ blanks t t',
        Token.Around (change.Within e.Encloses inner) e.Encloses t t' ∧
          new = t :: Token.ofText blanks ∧ new' = t' :: Token.ofText blanks)
      (Frame.tokens? f outer raw body closedAlone)
      (Frame.tokens? f' outer' raw' body' closedAlone) := by
  obtain ⟨opening, start, blanks, alone, front, before, d⟩ := f
  obtain ⟨opening', start', blanks', alone', front', before', d'⟩ := f'
  obtain rfl : opening = opening' := hf.opening
  obtain rfl : blanks = blanks' := hf.blanks
  obtain rfl : alone = alone' := hf.alone
  cases opening with
  | present expr => exact .some ⟨[], _, _, .sectionTag expr hs hb, rfl, rfl⟩
  | absent expr => exact .some ⟨[], _, _, .invertedTag expr hs hb, rfl, rfl⟩
  | block name =>
    simp only [Frame.tokens?, ho]
    split_ifs
    · exact .some ⟨[], _, _, .definitionTag name hb, rfl, rfl⟩
    · exact .some ⟨[], _, _, .blockTag name _ hb, rfl, rfl⟩
    · exact .some ⟨[], _, _, .blockTag name _ hb, rfl, rfl⟩
  | parent target =>
    simp only [Frame.tokens?]
    obtain ⟨hc, hc'⟩ | ⟨overrides, overrides', hc, hc'⟩ := hb.collect hfixed <;> rw [hc, hc']
    · exact .none
    refine .some ?_
    dsimp only
    have around (indentation : Option String) : Token.Around _ e.Encloses _ _ :=
      .parentTag target indentation hb hc hc'
    cases alone || closedAlone with
    | true => exact ⟨[], _, _, around _, rfl, rfl⟩
    | false => exact ⟨blanks, _, _, around none, rfl, rfl⟩

/-- A tag is closed that was opened behind the place. -/
theorem tokens?_above {f f' : Frame} (hf : f' = { f with start := f'.start, outer := f'.outer })
    {outer outer' : List Frame} (ho : insideParent outer' = insideParent outer) (raw : String)
    (body : List Token) (closedAlone : Bool) :
    Frame.tokens? f' outer' raw body closedAlone = Frame.tokens? f outer raw body closedAlone := by
  rw [hf]
  obtain ⟨opening, _⟩ := f
  cases opening with
  | block name => simp only [Frame.tokens?, ho]
  | present | absent | parent => rfl

/-! ## Tags -/

theorem Edited.pushText (h : s.Edited e change k s') (text : List Char) :
    (s.pushText text).Edited e change k (s'.pushText text) := by
  rw [pushText_eq, pushText_eq]
  exact { h with stacked := h.stacked.append _ }

theorem Edited.push (h : s.Edited e change k s') (t : Token) :
    (s.push t).Edited e change k (s'.push t) :=
  { h with stacked := h.stacked.append [t] }

/-- The drafts at another place of the text. -/
theorem Edited.on (h : s.Edited e change k s') (hc : c.rest <:+ e.after) (lineStart : Bool) :
    ({ s with cursor := c, lineStart } : Draft).Edited e change k
      { s' with cursor := c.shift k, lineStart } :=
  { h with cursor := rfl, rest := hc, lineStart := rfl }

/-- **Going on after a tag.** -/
theorem Edited.leave (h : s.Edited e change k s') (hc : c.rest <:+ e.after) (blanks : List Char) :
    (s.leave blanks c).Edited e change k (s'.leave blanks (c.shift k)) := by
  have stay : ({ s.pushText blanks with cursor := c, lineStart := false } : Draft).Edited e change k
      { s'.pushText blanks with cursor := c.shift k, lineStart := false } :=
    (h.pushText blanks).on hc false
  unfold Draft.leave
  rw [lineEnd_shift, h.lineStart]
  cases s.lineStart with
  | false => exact stay
  | true =>
    cases hend : c.lineEnd? with
    | none => exact stay
    | some m =>
      obtain ⟨blanks, stop, hreads, -⟩ := Cursor.reads_lineEnd hend
      exact h.on (List.IsSuffix.trans ⟨_, hreads.1.symm⟩ hc) true

/-- **A tag is opened**, and it is the same in both texts. -/
theorem Edited.enter (h : s.Edited e change k s') (hc : c.rest <:+ e.after) (blanks : List Char)
    (start start' : ℕ) (o : Opening) :
    (s.enter blanks start o c).Edited e change k (s'.enter blanks start' o (c.shift k)) := by
  have hleave := h.leave hc blanks
  have hbody : (s'.leave blanks (c.shift k)).cursor.rest = (s.leave blanks c).cursor.rest := by
    rw [hleave.cursor]
    rfl
  have hstack := hleave.stacked
  rw [leave_frames, leave_frames] at hstack
  refine ⟨hleave.cursor, hleave.rest, ?_, hleave.delimiters, .above rfl ?_ ?_⟩
  · cases o with
    | parent => exact h.lineStart
    | present | absent | block => exact hleave.lineStart
  · rw [hleave.lineStart, hbody, h.delimiters]
  · cases o with
    | parent => exact h.stacked
    | present | absent | block => exact hstack

/-- **A close tag.** -/
theorem Edited.close (hfixed : change.Fixed) (h : s.Edited e change k s')
    (htag : tag.rest <:+ e.after) (hc : c.rest <:+ e.after) (blanks : List Char)
    (expr : Expression) :
    StepEdited e change k (s.close blanks tag expr c)
      (s'.close blanks (tag.shift k) expr (c.shift k)) := by
  have hleave := h.leave hc blanks
  have hstack := hleave.stacked
  rw [leave_frames, leave_frames] at hstack
  have closed {f f' : Frame} {outer outer' : List Frame} {new new' : List Token}
      (hd : f'.delimiters = f.delimiters)
      (hst : Stacked e change (new ++ f.outer) outer (new' ++ f'.outer) outer') :
      StepEdited e change k
        (.ok { s.leave blanks c with
          tokens := new ++ f.outer, frames := outer, delimiters := f.delimiters })
        (.ok { s'.leave blanks (c.shift k) with
          lineStart := (s.leave blanks c).lineStart
          tokens := new' ++ f'.outer, frames := outer', delimiters := f'.delimiters }) :=
    .ok ⟨hleave.cursor, hleave.rest, rfl, hd, hst⟩
  unfold Draft.close
  cases hframes : s.frames with
  | nil =>
    rw [hframes] at hstack
    rw [hstack.frames_eq_nil_iff.mpr rfl]
    exact .error rfl
  | cons f outer =>
    rw [hframes] at hstack
    cases hframes' : s'.frames with
    | nil =>
      rw [hframes'] at hstack
      nomatch hstack.frames_eq_nil_iff.mp rfl
    | cons f' outer' =>
      rw [hframes'] at hstack
      have hopening : f'.opening = f.opening := hstack.opening
      dsimp only
      rw [hopening, hleave.lineStart, Cursor.shift_rest]
      by_cases he : f.opening.closing ≠ expr
      · rw [if_pos he, if_pos he]
        exact .error rfl
      rw [if_neg he, if_neg he]
      cases hstack with
      | @here _ _ _ _ inner hi ht hf =>
        obtain ⟨hf, ho⟩ := List.forall₂_cons.mp hf
        have htokens := tokens?_edited hfixed hf (insideParent_edited ho) (hf.encloses htag) ht
          (s.leave blanks c).lineStart
        revert htokens
        generalize Frame.tokens? f outer _ _ _ = r, Frame.tokens? f' outer' _ _ _ = r'
        intro htokens
        cases htokens with
        | none => exact .error rfl
        | some hnew =>
          obtain ⟨held, t, t', ht, rfl, rfl⟩ := hnew
          rw [fronts_cons, List.append_assoc] at hi
          refine closed hf.delimiters.symm (.here hi ⟨held, t, t', [], ht, ?_, ?_⟩ ho)
          · rw [List.reverse_append, List.reverse_cons, Token.reverse_ofText]
          · rw [← hf.outer, List.reverse_append, List.reverse_cons, Token.reverse_ofText]
      | above ht hf hst =>
        have hbody : f'.body = f.body := by rw [hf]
        rw [hbody, ht, tokens?_above hf hst.insideParent]
        generalize Frame.tokens? f outer _ _ _ = r
        cases r with
        | none => exact .error rfl
        | some new => exact closed (by rw [hf]) (hst.append new)

/-- **What a tag adds.** -/
theorem Edited.place (hfixed : change.Fixed) (h : s.Edited e change k s')
    (htag : tag.rest <:+ e.after) (hc : c.rest <:+ e.after) (blanks : List Char) (t : Tag) :
    StepEdited e change k (s.place blanks tag t c)
      (s'.place blanks (tag.shift k) t (c.shift k)) := by
  have hleave := h.leave hc blanks
  unfold Draft.place
  cases t with
  | interpolation verbatim expr => exact .ok (((h.pushText blanks).push _).on hc false)
  | opening o => exact .ok (h.enter hc blanks _ _ o)
  | closing expr => exact h.close hfixed htag hc blanks expr
  | comment => exact .ok hleave
  | inclusion target =>
    dsimp only
    rw [hleave.lineStart]
    exact .ok (hleave.push _)
  | delimiters d => exact .ok { hleave with delimiters := rfl }
  | pragma id => exact .ok (hleave.push _)

/-! ## Steps and runs -/

theorem Edited.ahead (h : s.Edited e change k s') :
    s'.ahead = (s.ahead.1, s.ahead.2.1, s.ahead.2.2.shift k) := by
  unfold Draft.ahead
  rw [h.lineStart, h.cursor, h.delimiters]
  cases s.lineStart <;>
    simp only [Cursor.shift_take, line_shift, if_true, if_false, Bool.false_eq_true]

theorem Edited.reached (h : s.Edited e change k s') :
    s.reached.1.Edited e change k s'.reached.1 ∧ s'.reached.2 = s.reached.2 := by
  unfold Draft.reached
  rw [h.ahead]
  dsimp only
  split_ifs
  · exact ⟨h, rfl⟩
  · have hpush := h.pushText (s.ahead.1 ++ s.ahead.2.1)
    exact ⟨{ hpush with lineStart := rfl }, rfl⟩

/-- **From one step to the next**, behind the place. -/
theorem Edited.step (types : ContentTypes) (hfixed : change.Fixed) (h : s.Edited e change k s') :
    StepEdited e change k (s.step types) (s'.step types) := by
  have ha := s.ahead_spec
  have hahead := h.ahead
  have htag : s.ahead.2.2.rest <:+ e.after :=
    List.IsSuffix.trans ⟨_, ha.reads.1.symm⟩ h.rest
  have hrest : s'.ahead.2.2.rest = s.ahead.2.2.rest := by
    rw [hahead]
    rfl
  by_cases hne : s.ahead.2.2.rest = []
  · rw [step_text hne, step_text (hrest.trans hne), hahead]
    have hpush := h.pushText (s.ahead.1 ++ s.ahead.2.1)
    exact .ok { hpush with cursor := rfl, rest := htag }
  by_cases hl : ∃ rest, s.ahead.2.2.rest = '\n' :: rest
  · obtain ⟨rest, hr⟩ := hl
    rw [step_line hr, step_line (hrest.trans hr), hahead]
    dsimp only
    rw [Cursor.shift_tail]
    have hfeed := Cursor.reads_lineFeed hr
    exact .ok ((h.pushText _).on (List.IsSuffix.trans ⟨_, hfeed.1.symm⟩ htag) true)
  rw [not_exists] at hl
  obtain ⟨inner, hi⟩ := ha.reads_start hne hl
  have hi' : s'.ahead.2.2.Reads s'.delimiters.start.toList (inner.shift k) := by
    rw [hahead, h.delimiters]
    exact ⟨hi.1, by rw [Cursor.shift_offset, hi.2, Cursor.shift_offset, Nat.add_assoc]⟩
  rw [step_tag hne hl hi, step_tag (hrest ▸ hne) (hrest ▸ hl) hi', h.delimiters, hahead,
    Cursor.shift_offset, Tag.read_shift]
  cases hread : Tag.read types s.delimiters s.ahead.2.2.offset inner with
  | error fault => exact .error rfl
  | ok r =>
    obtain ⟨t, c⟩ := r
    obtain ⟨used, hused⟩ := Tag.reads_of_read hread
    have hc : c.rest <:+ e.after :=
      List.IsSuffix.trans ⟨_, (hi.trans hused).1.symm⟩ htag
    obtain ⟨hreached, hheld⟩ := h.reached
    show StepEdited e change k (s.reached.1.place s.reached.2 s.ahead.2.2 t c)
      (s'.reached.1.place s'.reached.2 (s.ahead.2.2.shift k) t (c.shift k))
    rw [hheld]
    exact hreached.place hfixed htag hc s.reached.2 t

/-- **The runs behind the place.** -/
theorem Edited.run (types : ContentTypes) (hfixed : change.Fixed) (hs : s.Proper)
    (h : s.Edited e change k s') : StepEdited e change k (s.run types) (s'.run types) := by
  induction hn : s.cursor.rest.length using Nat.strong_induction_on generalizing s s' with
  | h n ih =>
    have hrest : s'.cursor.rest = s.cursor.rest := by
      rw [h.cursor]
      rfl
    have hempty : s'.frames.isEmpty = s.frames.isEmpty := by
      rw [Bool.eq_iff_iff, List.isEmpty_iff, List.isEmpty_iff]
      exact h.stacked.frames_eq_nil_iff
    by_cases hne : s.cursor.rest = []
    · rw [run_end hne, run_end (hrest.trans hne), hempty]
      split_ifs
      · exact .ok h
      · exact .error rfl
    · rw [run_eq hs.1.start_ne_nil hne,
        run_eq (h.delimiters ▸ hs.1.start_ne_nil) (hrest ▸ hne)]
      have hstep := h.step types hfixed
      cases hnext : s.step types with
      | error fault =>
        rw [hnext] at hstep
        generalize s'.step types = r' at hstep ⊢
        cases hstep with
        | error hc => exact .error hc
      | ok next =>
        rw [hnext] at hstep
        generalize s'.step types = r' at hstep ⊢
        cases hstep with
        | ok hs' =>
          have hshorter := step_shorter hs.1.start_ne_nil hne hnext
          exact ih _ (hn ▸ hshorter) (hs.step hnext) hs' rfl

/-- Both runs come to tokens that differ by the change, or to faults of the same cause. -/
theorem Edited.run_cases (types : ContentTypes) (hfixed : change.Fixed) (hs : s.Proper)
    (h : s.Edited e change k s') :
    (∃ final final', s.run types = .ok final ∧ s'.run types = .ok final' ∧
      change.Within e.Encloses change.outer final.tokens.reverse final'.tokens.reverse) ∨
    ∃ fault fault', s.run types = .error fault ∧ s'.run types = .error fault' ∧
      fault.cause = fault'.cause := by
  have hrun := h.run types hfixed hs
  cases hr : s.run types with
  | error fault =>
    rw [hr] at hrun
    generalize s'.run types = r' at hrun ⊢
    cases hrun with
    | error hc => exact .inr ⟨_, _, rfl, rfl, hc⟩
  | ok final =>
    rw [hr] at hrun
    have hend := (leads_of_run hr).2.1
    generalize s'.run types = r' at hrun ⊢
    cases hrun with
    | @ok _ final' hfinal =>
      have hstack := hfinal.stacked
      rw [hend] at hstack
      rw [hstack.frames_eq_nil_iff.mpr rfl] at hstack
      exact .inl ⟨_, _, rfl, rfl, hstack.within⟩

end Draft

section

variable {s s' : Draft} {k : ℕ}

/-- **Both texts** have tokens that differ by the change, or faults of the same cause, if reading
gets behind the place in both. -/
theorem Token.parsedChange_of_edited (hfixed : change.Fixed)
    (hs : (Draft.start .standard (String.ofList e.source)).Leads types s)
    (hs' : (Draft.start .standard (String.ofList e.target)).Leads types s')
    (h : s.Edited e change k s') :
    ParsedChange change e.Encloses (parse types (String.ofList e.source))
      (parse types (String.ofList e.target)) := by
  have hproper (source : String) := Draft.proper_start Delimiters.proper_standard source
  unfold parse parseWith
  rw [hs.run (hproper _), hs'.run (hproper _)]
  obtain ⟨final, final', hr, hr', hwithin⟩ | ⟨fault, fault', hr, hr', hcause⟩ :=
    h.run_cases types hfixed (hs.proper (hproper _))
  · rw [hr, hr']
    exact .ok hwithin
  · rw [hr, hr']
    exact .error hcause

/-- Reading on from a draft comes to the tokens of the other text, but for the sources of sections
around the place, if this is read on from there with the same tokens before it. -/
theorem Token.along_of_edited (hs : s.Proper)
    (hs' : (Draft.start .standard (String.ofList e.target)).Leads types s')
    (h : s.Edited e (s.changed [] []) k s') {tokens : List Token}
    (hp : parse types (String.ofList e.target) = .ok tokens) :
    ∃ final, s.run types = .ok final ∧
      ButOne (Along (fun _ _ => False) e.Encloses) final.tokens.reverse tokens := by
  unfold parse parseWith at hp
  rw [hs'.run (Draft.proper_start Delimiters.proper_standard _)] at hp
  obtain ⟨final, final', hr, hr', hwithin⟩ | ⟨fault, fault', hr, hr', hcause⟩ :=
    h.run_cases types s.unchanged_fixed hs
  · rw [hr'] at hp
    cases hp
    exact ⟨final, hr, hwithin.butOne (fun _ _ => False.elim) (.same [])⟩
  · rw [hr'] at hp
    cases hp

end

end Mustache
