import Mustache.Proofs.Template.Follow

/-!
# The body of an open tag, read on its own

While a tag is open, the text of its body that has been read so far can be cut into pieces on its
own, and following these pieces from the start of the body leads to the tokens and frames that the
draft has on top of the tag. Only the end of a line that the tag takes with it may be in front.

* `Piece.cut?_replay`: a tag is met alike in every text that goes on with the same characters;
* `Draft.Replays`: the body of an open tag so far, read on its own;
* `Draft.replays_enter`, **`Draft.Replays.step`**: when a tag is opened, and after another tag;
* **`Draft.Replays.parseWith`**: when the tag is closed, the text of its body is a template with the
  same bare tokens.
-/

namespace Mustache

/-! ## Pieces in other texts -/

namespace Piece

variable {types : ContentTypes} {outer : List Delimiters} {d : Delimiters} {c c' next : Cursor}
  {p : Piece} {pieces : List Piece} {last : List Char}

/-- The first piece is a tag that can be read. -/
theorem cut?_cons (h : cut? types outer d c = some (p :: pieces, last)) :
    ∃ tag inner next used, c.Reads p.text tag ∧ Text.Unmet d.start.toList p.text tag.rest ∧
      tag.Reads d.start.toList inner ∧ Tag.read types d tag.offset inner = .ok (p.tag, next) ∧
      inner.Reads used next ∧ p.source = d.start.toList ++ used := by
  rw [cut?_eq] at h
  split at h
  · cases h
  · rename_i text inner hthrough
    obtain ⟨hreads, hunmet⟩ := Cursor.reads_through hthrough
    split at h
    · cases h
    · rename_i t next hread
      split_ifs at h
      obtain ⟨r, -, he⟩ := Option.map_eq_some_iff.mp h
      cases he
      obtain ⟨used, hused⟩ := Tag.reads_of_read hread
      refine ⟨_, inner, next, _, hreads.past, hunmet, hreads.rest hreads.past, hread, hused, ?_⟩
      rw [hused.take]

/-- **A tag is met alike** in every text that goes on with the same characters. -/
theorem cut?_replay (hd : d.Proper) (h : cut? types outer d c = some (p :: pieces, last))
    (hr : c'.Reads (p.text ++ p.source) next) (outer' : List Delimiters) :
    cut? types outer' d c' =
      (cut? types (p.tag.scope outer' d).1 (p.tag.scope outer' d).2 next).map
        fun (pieces, last) => (p :: pieces, last) := by
  obtain ⟨tag, inner, after, used, hreads, hunmet, hi, hread, hused, hsource⟩ := cut?_cons h
  rw [hsource] at hr
  have htag := hr.rest hr.past
  have hinner := htag.rest htag.past
  have hunmet' : Text.Unmet d.start.toList p.text
      (d.start.toList ++ used ++ next.rest) := by
    rw [hi.1] at hunmet
    rw [List.append_assoc]
    exact hunmet.before_mark _
  have hread' := Tag.read_local hd.stop_ne_nil hread hused hinner
    (c'.past p.text (d.start.toList ++ used ++ next.rest)).offset
  rw [cut?_tag hd.start_ne_nil hr.past hunmet' htag.past hread' hinner, ← hsource]

end Piece

namespace Draft

/-! ## The body so far -/

/-- The bare draft at the start of a body. -/
def bareStart (d : Delimiters) : Draft := ⟨⟨0, []⟩, false, d, [], []⟩

/-- A bare draft that has only frames. -/
def around (frames : List Frame) : Draft :=
  ⟨⟨0, []⟩, false, .standard, [], frames.map Frame.bare⟩

/-- **The body of an open tag so far, read on its own**: its text `read` has the given pieces, the
text `front` belongs to the next one, and following the pieces leads to the bare draft `b`. -/
structure Replays (types : ContentTypes) (s : Draft) (f : Frame) (outer : List Frame)
    (read : List Char) (pieces : List Piece) (front : List Char) (b : Draft) : Prop where
  body : f.body = read ++ s.cursor.rest
  cut : ∀ rest, Piece.cut? types [] f.delimiters ⟨0, read ++ rest⟩ =
    (Piece.cut? types b.scopes b.delimiters ⟨Text.utf8Length read, rest⟩).map fun r =>
      (pieces ++ (Piece.prepend front r).1, (Piece.prepend front r).2)
  silent : Text.Silent front ∨ s.cursor.rest = []
  follow : (bareStart f.delimiters).follow? pieces = some b
  bare : s.bare = (around (f :: outer)).atop b

variable {types : ContentTypes} {s s' next b : Draft} {f : Frame} {outer : List Frame}
  {read front held : List Char} {pieces : List Piece} {p : Piece}
  {after : List Piece × List Char} {tag c : Cursor}

theorem Replays.length (h : Replays types s f outer read pieces front b) :
    s.frames.length = b.frames.length + (f :: outer).length := by
  have hl : s.bare.frames.length = (((around (f :: outer)).atop b).frames).length := by rw [h.bare]
  have hs : s.bare.frames.length = s.frames.length := List.length_map _
  have ha : ((around (f :: outer)).atop b).frames.length =
      b.frames.length + ((f :: outer).map Frame.bare).length := length_framesAtop _ _
  rw [hs, ha, List.length_map] at hl
  exact hl

theorem Replays.delimiters (h : Replays types s f outer read pieces front b) :
    s.delimiters = b.delimiters := by
  have hd := congrArg Draft.delimiters h.bare
  exact hd

/-- When a tag is opened, nothing of its body has been read. -/
theorem replays_enter (types : ContentTypes) (s : Draft) (blanks : List Char) (start : Nat)
    (opening : Opening) (c : Cursor) :
    ∃ f, (s.enter blanks start opening c).frames = f :: s.frames ∧
      Replays types (s.enter blanks start opening c) f s.frames [] [] []
        (bareStart f.delimiters) := by
  refine ⟨_, rfl, rfl, fun rest => ?_, .inl (.inl rfl), rfl, ?_⟩
  · have hid : (fun r : List Piece × List Char =>
        ([] ++ (Piece.prepend [] r).1, (Piece.prepend [] r).2)) = id := by
      funext r
      obtain ⟨_ | ⟨p, pieces⟩, last⟩ := r <;> rfl
    rw [hid, Option.map_id]
    rfl
  · simp only [enter, Draft.bare, atop, bareStart, around, framesAtop, tokensAtop, List.map_cons,
      leave_delimiters]
    rfl

/-- A tag whose start delimiter is not empty is met before the end of the source. -/
theorem Meets.rest_ne_nil (hm : Meets types s p after s' held tag c) (hp : p.source ≠ []) :
    s.cursor.rest ≠ [] := by
  rw [(hm.reads_text.trans hm.reads_source).1]
  simp [hp]

theorem insideParent_around (hf : ∀ target, f.opening ≠ .parent target) (outer : List Frame) :
    insideParent (around (f :: outer)).frames = false := by
  obtain ⟨opening, _⟩ := f
  cases opening with
  | parent target => exact absurd rfl (hf target)
  | present | absent | block => rfl

/-- The pieces up to another tag, with the blanks that reading passes over after it. -/
theorem Replays.cut_step (h : Replays types s f outer read pieces front b)
    (hd : s.delimiters.Proper)
    (hcut : Piece.cut? types s.scopes s.delimiters s.cursor = some (p :: after.1, after.2))
    {b' : Draft} (hb' : (b.addText p.text).add? p.tag = some b') {blanks : List Char}
    (hblank : ∀ ch ∈ blanks, Text.isBlank ch = true) (hproper : b'.delimiters.Proper)
    (rest : List Char) :
    Piece.cut? types [] f.delimiters ⟨0, read ++ (p.text ++ p.source ++ blanks) ++ rest⟩ =
      (Piece.cut? types b'.scopes b'.delimiters
          ⟨Text.utf8Length (read ++ (p.text ++ p.source ++ blanks)), rest⟩).map fun r =>
        (pieces ++ [{ p with text := front ++ p.text }] ++ (Piece.prepend blanks r).1,
          (Piece.prepend blanks r).2) := by
  have hscope : p.tag.scope b.scopes b.delimiters = (b'.scopes, b'.delimiters) :=
    add_scope (s := b.addText p.text) hb'
  have htag : Cursor.Reads ⟨Text.utf8Length read, p.text ++ p.source ++ (blanks ++ rest)⟩
      (p.text ++ p.source)
      ⟨Text.utf8Length read + Text.utf8Length (p.text ++ p.source), blanks ++ rest⟩ := ⟨rfl, rfl⟩
  have hblanks : Cursor.Reads
      ⟨Text.utf8Length read + Text.utf8Length (p.text ++ p.source), blanks ++ rest⟩ blanks
      ⟨Text.utf8Length (read ++ (p.text ++ p.source ++ blanks)), rest⟩ := by
    refine ⟨rfl, ?_⟩
    simp only [Text.utf8Length_append, Nat.add_assoc]
  have hreplay := Piece.cut?_replay hd hcut htag b.scopes
  rw [h.delimiters, hscope, Piece.cut?_skip hblanks (hproper.unmet hblank)] at hreplay
  have hbody := h.cut (p.text ++ p.source ++ (blanks ++ rest))
  rw [hreplay] at hbody
  have hassoc : read ++ (p.text ++ p.source ++ blanks) ++ rest =
      read ++ (p.text ++ p.source ++ (blanks ++ rest)) := by
    simp only [List.append_assoc]
  rw [hassoc, hbody, Option.map_map, Option.map_map]
  refine Option.map_congr fun r _ => ?_
  simp [Piece.prepend]

/-- **After another tag**, which does not close the tag itself, its body is read further. -/
theorem Replays.step (h : Replays types s f outer read pieces front b)
    (hf : ∀ target, f.opening ≠ .parent target) (hs : s.Proper) (hheld : s.Held)
    (hcut : Piece.cut? types s.scopes s.delimiters s.cursor = some (p :: after.1, after.2))
    (hm : Meets types s p after s' held tag c) (hp : s'.place held tag p.tag c = .ok next)
    (hopen : b.frames = [] → ∀ e, p.tag ≠ .closing e) :
    ∃ read pieces front b, Replays types next f outer read pieces front b := by
  obtain ⟨blanks, _, hl⟩ := hm.place hs hp
  obtain ⟨_, _, _, used, -, -, -, -, -, hsource⟩ := Piece.cut?_cons hcut
  have hne : s.cursor.rest ≠ [] := hm.rest_ne_nil (by simp [hsource, hs.1.start_ne_nil])
  have hquiet : Text.Silent front := h.silent.resolve_right hne
  have hreads := (hm.reads_text.trans hm.reads_source).trans hl.reads
  -- What the tag adds to the draft, it adds to what is on top of the open tag.
  have hadd := add_bare (.of_adds hm.adds hheld) hm.held_inline p.tag tag c
  have hbare : s'.bare = (around (f :: outer)).atop (b.addText p.text) := by
    rw [hm.adds.bare, h.bare, addText_atop]
  rw [hp, hbare] at hadd
  obtain ⟨b', hb', hnext⟩ :=
    add_atop (s := b.addText p.text) (insideParent_around hf outer) rfl hopen hadd
  have hdelim : next.delimiters = b'.delimiters := by
    have hd := congrArg Draft.delimiters hnext
    exact hd.symm
  refine ⟨read ++ (p.text ++ p.source ++ blanks), pieces ++ [{ p with text := front ++ p.text }],
    blanks, b', ?_, h.cut_step hs.1 hcut hb' hl.blank (hdelim ▸ hl.proper.1), hl.silent, ?_,
    hnext.symm⟩
  · rw [h.body, hreads.1, ← List.append_assoc]
  · rw [follow?_append, h.follow]
    simp only [Option.bind_some, follow?, addText_silent hquiet, hb']

/-- **When the tag is closed**, the text of its body is a template with the same bare tokens. -/
theorem Replays.parseWith (h : Replays types s f outer read pieces front b)
    (hb : b.frames = []) (hs : s.Proper) (hd : f.delimiters.Proper)
    (hcut : Piece.cut? types s.scopes s.delimiters s.cursor = some (p :: after.1, after.2))
    (hm : Meets types s p after s' held tag c) :
    ∃ again, Token.parseWith f.delimiters types
        (String.ofList (f.body.take (f.body.length - tag.rest.length))) = .ok again ∧
      Token.bareAll again = (Token.bareAll s'.tokens).reverse := by
  obtain ⟨_, _, _, used, hreads, hunmet, hi, -, -, hsource⟩ := Piece.cut?_cons hcut
  have hne : s.cursor.rest ≠ [] := hm.rest_ne_nil (by simp [hsource, hs.1.start_ne_nil])
  have hquiet : Text.Silent front := h.silent.resolve_right hne
  have hraw : f.body.take (f.body.length - tag.rest.length) = read ++ p.text := by
    have hbody : f.body = read ++ p.text ++ tag.rest := by
      rw [h.body, hm.reads_text.1, List.append_assoc]
    rw [hbody, List.length_append, Nat.add_sub_cancel, List.take_left]
  -- No start delimiter begins in the text before the close tag, so it is the end of the body.
  have hend : Piece.cut? types b.scopes b.delimiters ⟨Text.utf8Length read, p.text⟩ =
      some ([], p.text) := by
    have hunmet : Text.Unmet s.delimiters.start.toList p.text ([] ++ _) := hunmet
    have htext : Cursor.Reads ⟨Text.utf8Length read, p.text⟩ p.text
        ⟨Text.utf8Length read + Text.utf8Length p.text, []⟩ := ⟨(List.append_nil _).symm, rfl⟩
    rw [← h.delimiters, Piece.cut?_skip htext hunmet.of_append,
      Piece.cut?_nil hs.1.start_ne_nil rfl, Option.map_some, Piece.prepend, List.append_nil]
  have hcutBody : Piece.cut? types [] f.delimiters (.ofString (String.ofList (read ++ p.text))) =
      some (pieces, front ++ p.text) := by
    rw [Cursor.ofString, String.toList_ofList, h.cut, hend, Option.map_some, Piece.prepend,
      List.append_nil]
  have hfollow : (bareStart f.delimiters).followAll? (pieces, front ++ p.text) =
      some (b.addText p.text) := by
    rw [followAll?, h.follow, Option.map_some, addText_silent hquiet]
  obtain ⟨final, hrun, hbare⟩ := run_of_followAll? (proper_start hd _) (List.forall_mem_nil _)
    hcutBody hfollow hb
  refine ⟨_, Token.parseWith_eq_ok.mpr ⟨final, hraw ▸ hrun, rfl⟩, ?_⟩
  have hfinal : Token.bareAll final.tokens = (b.addText p.text).tokens := congrArg tokens hbare
  have hbody : Token.bareAll s'.tokens = (b.addText p.text).tokens := by
    have hsame := hm.adds.bare
    rw [h.bare, addText_atop] at hsame
    have htokens := congrArg tokens hsame
    change Token.bareAll s'.tokens =
      (around (f :: outer)).tokensAtop (b.addText p.text).tokens b.frames at htokens
    rw [htokens, hb]
    exact List.append_nil _
  rw [Token.bareAll_reverse, hfinal, hbody]

end Draft

end Mustache
