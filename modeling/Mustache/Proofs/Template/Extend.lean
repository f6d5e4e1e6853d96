import Mustache.Proofs.Template.Passage

/-!
# A draft with more text behind it

Reading looks ahead: to the next line feed or tag, and behind a tag to the end of its line. As long
as it finds these before the end of the text, more text behind it changes nothing.

* `Text.Unmet.extend`, `Cursor.Settled.lineEnd_extend`: what is found before the end of a text;
* `Draft.extend`: a draft with more text behind it; `Draft.Ahead.eq`, `Draft.Ahead.extend`,
  `Draft.Ahead.of_extend`: what lies ahead of it;
* `Draft.close_extend`, **`Draft.place_extend`**: a tag;
* **`Draft.step_extend_of`**, **`Draft.step_of_extend_of`**: a step with the text behind it, and
  without.
-/

namespace Mustache

/-! ## Before the end of a text -/

namespace Text

variable {mark front rest : List Char}

/-- A literal without a line feed does not reach beyond the end of a line. -/
theorem Unmet.before_lineFeed (hm : '\n' ∉ mark) (h : Unmet mark front ('\n' :: rest))
    (other : List Char) : Unmet mark front ('\n' :: other) := by
  intro a b hf hb hp
  obtain hshort | hlong := List.prefix_or_prefix_of_prefix hp
    (show b ++ ['\n'] <+: b ++ '\n' :: other from ⟨other, by simp⟩)
  · obtain hb' | he := List.prefix_concat_iff.mp hshort |>.symm
    · exact h a b hf hb (hb'.trans (List.prefix_append _ _))
    · exact hm (he ▸ List.mem_append_right b (List.mem_singleton.mpr rfl))
  · exact hm (hlong.subset (List.mem_append_right b (List.mem_singleton.mpr rfl)))

/-- **A literal that does not start before a place** where a line ends, or where it starts itself,
does not start there with more text behind. -/
theorem Unmet.extend (hm : '\n' ∉ mark) (h : Unmet mark front rest) (hne : rest ≠ [])
    (hs : ∀ ch more, rest = ch :: more → ch = '\n' ∨ mark <+: ch :: more) (more : List Char) :
    Unmet mark front (rest ++ more) := by
  obtain ⟨ch, left, rfl⟩ := List.exists_cons_of_ne_nil hne
  obtain rfl | ⟨behind, hr⟩ := hs ch left rfl
  · exact h.before_lineFeed hm _
  · rw [← hr, List.append_assoc]
    rw [← hr] at h
    exact h.before_mark _

end Text

namespace Cursor

variable {c : Cursor} {p : Char → Bool} {more : List Char}

/-- A run of a class that ends before the end of the text. -/
theorem skip_extend (h : (c.skip p).rest ≠ []) (more : List Char) :
    (c.extend more).skip p = (c.skip p).extend more := by
  obtain ⟨x, rest, hr⟩ := List.exists_cons_of_ne_nil h
  have hx : p x = false := by
    have hd := List.head?_dropWhile_not p c.rest
    have hdrop : c.rest.dropWhile p = x :: rest := hr
    rw [hdrop] at hd
    simpa using hd
  have hc : c.rest = c.rest.takeWhile p ++ x :: rest := by
    rw [← hr]
    exact List.takeWhile_append_dropWhile.symm
  have hrun : ∀ ch ∈ c.rest.takeWhile p, p ch = true := fun ch hch => List.mem_takeWhile_imp hch
  have hmore : (c.extend more).rest = c.rest.takeWhile p ++ x :: (rest ++ more) := by
    rw [extend_rest]
    conv_lhs => rw [hc]
    rw [List.append_assoc, List.cons_append]
  have hnot : ¬ p x = true := by simp [hx]
  have htake : (c.extend more).rest.takeWhile p = c.rest.takeWhile p := by
    rw [hmore, List.takeWhile_append_of_pos hrun, List.takeWhile_cons_of_neg hnot,
      List.append_nil]
  have hdrop : (c.extend more).rest.dropWhile p = c.rest.dropWhile p ++ more := by
    rw [hmore, List.dropWhile_append_of_pos hrun, List.dropWhile_cons_of_neg hnot]
    show _ = (c.skip p).rest ++ more
    rw [hr, List.cons_append]
  show (c.extend more).past _ _ = _
  rw [htake, hdrop, extend_past]
  rfl

/-- Whether the line ends behind blanks is decided before the end of the text: something comes
behind the blanks, and not just a carriage return. -/
def Settled (c : Cursor) : Prop :=
  (c.skip Text.isInlineBlank).rest ≠ [] ∧ (c.skip Text.isInlineBlank).rest ≠ ['\r']

/-- **The end of a line** that is settled is found with any text behind. -/
theorem Settled.lineEnd_extend (h : c.Settled) (more : List Char) :
    (c.extend more).lineEnd? = c.lineEnd?.map (extend more) := by
  have hskip := skip_extend h.1 more
  obtain ⟨x, rest, hr⟩ := List.exists_cons_of_ne_nil h.1
  have hr' : ((c.extend more).skip Text.isInlineBlank).rest = x :: (rest ++ more) := by
    rw [hskip, extend_rest, hr, List.cons_append]
  by_cases hx : x = '\n'
  · subst hx
    rw [lineEnd?_lineFeed hr, lineEnd?_lineFeed hr', hskip]
    rfl
  · by_cases hx' : x = '\r'
    · subst hx'
      cases rest with
      | nil => exact absurd hr h.2
      | cons y rest =>
        by_cases hy : y = '\n'
        · subst hy
          rw [lineEnd?_return hr, lineEnd?_return hr', hskip]
          rfl
        · rw [lineEnd?_eq_none hr hx fun _ _ e => hy (List.cons.inj e).1,
            lineEnd?_eq_none hr' hx fun _ _ e => hy (List.cons.inj e).1, Option.map_none]
    · rw [lineEnd?_eq_none hr hx fun e => absurd e hx',
        lineEnd?_eq_none hr' hx fun e => absurd e hx', Option.map_none]

end Cursor

theorem Delimiters.Proper.start_lineFeed {d : Delimiters} (hd : d.Proper) :
    '\n' ∉ d.start.toList := fun h => absurd (hd.start_no_blank _ h) (by decide)

theorem Delimiters.Proper.stop_lineFeed {d : Delimiters} (hd : d.Proper) :
    '\n' ∉ d.stop.toList := fun h => absurd (hd.stop_no_blank _ h) (by decide)

/-! ## Drafts with more text behind them -/

/-- The open tag with more text behind its body. -/
def Frame.extend (more : List Char) (f : Frame) : Frame := { f with body := f.body ++ more }

namespace Draft

/-- The draft with more text behind it. -/
def extend (more : List Char) (s : Draft) : Draft :=
  { s with cursor := s.cursor.extend more, frames := s.frames.map (Frame.extend more) }

variable {s next : Draft} {blanks text left more : List Char} {tag c : Cursor}
  {types : ContentTypes}

theorem start_extend (d : Delimiters) (front more : List Char) :
    (start d (String.ofList front)).extend more = start d (String.ofList (front ++ more)) := by
  simp [start, extend, Cursor.ofString, Cursor.extend]

theorem pushText_extend (s : Draft) (text more : List Char) :
    (s.extend more).pushText text = (s.pushText text).extend more := by
  rw [pushText_eq, pushText_eq]
  rfl

theorem insideParent_extend (more : List Char) (frames : List Frame) :
    insideParent (frames.map (Frame.extend more)) = insideParent frames := by
  cases frames with
  | nil => rfl
  | cons f outer =>
    obtain ⟨opening, _⟩ := f
    cases opening <;> rfl

theorem tokens?_extend (f : Frame) (outer : List Frame) (raw : String) (body : List Token)
    (closedAlone : Bool) :
    Frame.tokens? (f.extend more) (outer.map (Frame.extend more)) raw body closedAlone =
      Frame.tokens? f outer raw body closedAlone := by
  obtain ⟨opening, _⟩ := f
  cases opening with
  | block name =>
    dsimp only [Frame.tokens?, Frame.extend]
    rw [insideParent_extend]
  | present | absent | parent => rfl

theorem proper_extend (hs : s.Proper) (more : List Char) : (s.extend more).Proper := by
  have hscopes : (s.extend more).scopes = s.scopes := by
    unfold scopes extend
    rw [List.map_map]
    rfl
  exact ⟨hs.1, hscopes ▸ hs.2⟩

/-- The text of a section ends at its close tag. -/
theorem take_body_extend (body rest more : List Char) :
    (body ++ more).take ((body ++ more).length - (rest ++ more).length) =
      body.take (body.length - rest.length) := by
  rw [List.length_append, List.length_append, Nat.add_sub_add_right,
    List.take_append_of_le_length (Nat.sub_le _ _)]

section

variable (hc : c.Settled)

include hc

theorem leave_extend (s : Draft) (blanks : List Char) :
    (s.extend more).leave blanks (c.extend more) = (s.leave blanks c).extend more := by
  have hl : (s.extend more).lineStart = s.lineStart := rfl
  unfold leave
  rw [hc.lineEnd_extend, pushText_extend, hl]
  cases s.lineStart with
  | false => rfl
  | true => cases c.lineEnd? <;> rfl

theorem close_extend (s : Draft) (blanks : List Char) (tag : Cursor) (expr : Expression) :
    (s.extend more).close blanks (tag.extend more) expr (c.extend more) =
      (s.close blanks tag expr c).map (extend more) := by
  unfold close
  rw [leave_extend hc]
  cases hf : s.frames with
  | nil =>
    have hframes : (s.extend more).frames = [] := by rw [extend, hf]; rfl
    rw [hframes]
    rfl
  | cons f outer =>
    have hframes : (s.extend more).frames =
        f.extend more :: outer.map (Frame.extend more) := by rw [extend, hf]; rfl
    rw [hframes]
    dsimp only
    rw [tokens?_extend]
    have hbody : (f.extend more).body = f.body ++ more := rfl
    rw [hbody, Cursor.extend_rest, take_body_extend]
    by_cases he : f.opening.closing ≠ expr
    · rw [if_pos he]
      exact if_pos he
    · rw [if_neg he]
      refine (if_neg he).trans ?_
      have hleave : (Draft.extend more (s.leave blanks c)).tokens = (s.leave blanks c).tokens := rfl
      have hline :
          (Draft.extend more (s.leave blanks c)).lineStart = (s.leave blanks c).lineStart := rfl
      rw [hleave, hline]
      cases Frame.tokens? f outer
          (String.ofList (f.body.take (f.body.length - tag.rest.length)))
          (s.leave blanks c).tokens.reverse (s.leave blanks c).lineStart <;> rfl

/-- **A tag with more text behind it.** -/
theorem place_extend (s : Draft) (blanks : List Char) (tag : Cursor) (t : Tag) :
    (s.extend more).place blanks (tag.extend more) t (c.extend more) =
      (s.place blanks tag t c).map (extend more) := by
  have hleave : (s.extend more).leave blanks (c.extend more) = (s.leave blanks c).extend more :=
    leave_extend hc s blanks
  unfold place
  cases t with
  | interpolation verbatim expr =>
    dsimp only
    rw [pushText_extend]
    rfl
  | opening opening =>
    dsimp only [enter]
    rw [hleave]
    cases opening <;> rfl
  | closing expr => exact close_extend hc s blanks tag expr
  | comment => exact congrArg Except.ok hleave
  | inclusion | delimiters | pragma =>
    dsimp only
    rw [hleave]
    rfl

end

/-! ## What lies ahead -/

/-- What lies ahead with more text behind. -/
theorem Ahead.extend (ha : s.Ahead blanks text tag) (hd : s.delimiters.Proper)
    (hne : tag.rest ≠ []) (more : List Char) :
    (s.extend more).Ahead blanks text (tag.extend more) where
  reads := ha.reads.extend more
  blanks_inline := ha.blanks_inline
  blanks_eq_nil := ha.blanks_eq_nil
  head_not_blank := ha.head_not_blank
  no_lineFeed := ha.no_lineFeed
  unmet := ha.unmet.extend hd.start_lineFeed hne ha.stop more
  stop := by
    obtain ⟨x, rest, hr⟩ := List.exists_cons_of_ne_nil hne
    intro ch rest' he
    rw [Cursor.extend_rest, hr, List.cons_append] at he
    obtain ⟨rfl, rfl⟩ := List.cons.inj he
    refine (ha.stop x rest hr).imp_right fun hs => ?_
    exact hs.trans ⟨more, rfl⟩

/-- What lies ahead without the text behind, if a line ends or a tag starts before it. -/
theorem Ahead.of_extend (ha : (s.extend more).Ahead blanks text (tag.extend more))
    (hs : ∀ ch rest, tag.rest = ch :: rest →
      ch = '\n' ∨ s.delimiters.start.toList <+: ch :: rest) : s.Ahead blanks text tag where
  reads := ha.reads.of_extend
  blanks_inline := ha.blanks_inline
  blanks_eq_nil := ha.blanks_eq_nil
  head_not_blank := ha.head_not_blank
  no_lineFeed := ha.no_lineFeed
  unmet := ha.unmet.of_append
  stop := hs

section

variable (hd : s.delimiters.Proper) (hne : s.ahead.2.2.rest ≠ [])

include hd hne

theorem ahead_extend (more : List Char) :
    (s.extend more).ahead = (s.ahead.1, s.ahead.2.1, s.ahead.2.2.extend more) :=
  (s.ahead_spec.extend hd hne more).eq hd

theorem reached_extend (more : List Char) :
    (s.extend more).reached = (s.reached.1.extend more, s.reached.2) := by
  unfold reached
  rw [ahead_extend hd hne]
  dsimp only
  split_ifs
  · rfl
  · rw [pushText_extend]
    rfl

/-! ## Steps -/

/-- A step over the end of a line. -/
theorem step_line_extend {rest : List Char} (hr : s.ahead.2.2.rest = '\n' :: rest)
    (more : List Char) : (s.extend more).step types = (s.step types).map (extend more) := by
  have hahead := ahead_extend hd hne more
  have hrest : (s.extend more).ahead.2.2.rest = '\n' :: (rest ++ more) := by
    rw [hahead, Cursor.extend_rest, hr]
    rfl
  have htail : (s.ahead.2.2.extend more).tail = s.ahead.2.2.tail.extend more := by
    unfold Cursor.tail
    rw [Cursor.extend_rest, hr]
    rfl
  rw [step_line hr, step_line hrest, hahead]
  dsimp only
  rw [pushText_extend, htail]
  rfl

/-- What a step over a tag does with more text behind. -/
theorem step_tag_extend (hl : ∀ rest, s.ahead.2.2.rest ≠ '\n' :: rest) {inner : Cursor}
    (hi : s.ahead.2.2.Reads s.delimiters.start.toList inner) (more : List Char) :
    (s.extend more).step types =
      (Tag.read types s.delimiters s.ahead.2.2.offset (inner.extend more)).bind fun (t, c) =>
        (s.reached.1.extend more).place s.reached.2 (s.ahead.2.2.extend more) t c := by
  have hahead := ahead_extend hd hne more
  have hix : (s.extend more).ahead.2.2.Reads s.delimiters.start.toList (inner.extend more) := by
    rw [hahead]
    exact hi.extend more
  have hnilx : (s.extend more).ahead.2.2.rest ≠ [] := by
    rw [hahead]
    exact List.append_ne_nil_of_left_ne_nil hne more
  have hlx (rest : List Char) : (s.extend more).ahead.2.2.rest ≠ '\n' :: rest := by
    obtain ⟨ch, left, hr⟩ := List.exists_cons_of_ne_nil hne
    rw [hahead, Cursor.extend_rest, hr]
    intro he
    exact hl left (by rw [hr, (List.cons.inj he).1])
  rw [step_tag hnilx hlx hix, reached_extend hd hne, hahead]
  rfl

end

/-- Behind a tag that lies ahead, if reading goes on with `left`, it is settled where the line
ends. -/
def Settles (s : Draft) (left : List Char) : Prop :=
  ∀ inner c, s.ahead.2.2.Reads s.delimiters.start.toList inner →
    Tag.Ends s.delimiters.stop.toList inner c → left <:+ c.rest → c.Settled

section

variable (hd : s.delimiters.Proper) (hne : s.ahead.2.2.rest ≠ [])

include hd hne

/-- **A step that ends before the text behind it** is the same with this text. -/
theorem step_extend_of (hs : s.Settles next.cursor.rest) (h : s.step types = .ok next)
    (more : List Char) : (s.extend more).step types = .ok (next.extend more) := by
  by_cases hl : ∃ rest, s.ahead.2.2.rest = '\n' :: rest
  · obtain ⟨rest, hr⟩ := hl
    rw [step_line_extend hd hne hr, h]
    rfl
  · rw [not_exists] at hl
    obtain ⟨inner, hi⟩ := s.ahead_spec.reads_start hne hl
    rw [step_tag hne hl hi] at h
    cases hread : Tag.read types s.delimiters s.ahead.2.2.offset inner with
    | error fault =>
      rw [hread] at h
      nomatch h
    | ok r =>
      obtain ⟨t, c⟩ := r
      rw [hread] at h
      have hp : s.reached.1.place s.reached.2 s.ahead.2.2 t c = .ok next := h
      have hends := Tag.reads_of_read hread
      obtain ⟨used, hused⟩ := hends
      obtain ⟨front, hfront⟩ := reads_of_place hp
      have hc : c.Settled := hs inner c hi ⟨used, hused⟩ ⟨front, hfront.1.symm⟩
      have hreadx :=
        Tag.read_local hd.stop_ne_nil hread hused (hused.extend more) s.ahead.2.2.offset
      rw [step_tag_extend hd hne hl hi, hreadx]
      dsimp only [Except.bind]
      rw [place_extend hc, hp]
      rfl

/-- **A step that does not reach the text behind** is a step without this text. -/
theorem step_of_extend_of (hs : s.Settles left) (h : (s.extend more).step types = .ok next)
    (hr : next.cursor.rest = left ++ more) :
    ∃ next', s.step types = .ok next' ∧ next'.extend more = next := by
  by_cases hl : ∃ rest, s.ahead.2.2.rest = '\n' :: rest
  · obtain ⟨rest, hrest⟩ := hl
    rw [step_line_extend hd hne hrest, step_line hrest] at h
    exact ⟨_, step_line hrest, Except.ok.inj h⟩
  · rw [not_exists] at hl
    obtain ⟨inner, hi⟩ := s.ahead_spec.reads_start hne hl
    rw [step_tag_extend hd hne hl hi] at h
    cases hread : Tag.read types s.delimiters s.ahead.2.2.offset (inner.extend more) with
    | error fault =>
      rw [hread] at h
      nomatch h
    | ok r =>
      obtain ⟨t, c⟩ := r
      rw [hread] at h
      change (s.reached.1.extend more).place s.reached.2 (s.ahead.2.2.extend more) t c = _ at h
      obtain ⟨used, hused⟩ := Tag.reads_of_read hread
      obtain ⟨front, hfront⟩ := reads_of_place h
      -- The tag ends before the text behind.
      obtain ⟨offset, crest⟩ := c
      obtain rfl : crest = front ++ left ++ more := by
        rw [List.append_assoc, ← hr]
        exact hfront.1
      have hinner : inner.Reads (used ++ s.delimiters.stop.toList) ⟨offset, front ++ left⟩ :=
        Cursor.Reads.of_extend hused
      have hc : Cursor.Settled ⟨offset, front ++ left⟩ :=
        hs inner _ hi ⟨used, hinner⟩ (List.suffix_append front left)
      have hread' := Tag.read_local hd.stop_ne_nil hread hused hinner s.ahead.2.2.offset
      have hplace : (s.reached.1.extend more).place s.reached.2 (s.ahead.2.2.extend more) t
          ⟨offset, front ++ left ++ more⟩ =
            (s.reached.1.place s.reached.2 s.ahead.2.2 t ⟨offset, front ++ left⟩).map
              (Draft.extend more) :=
        place_extend hc s.reached.1 s.reached.2 s.ahead.2.2 t
      rw [h] at hplace
      rw [step_tag hne hl hi, hread']
      cases hp : s.reached.1.place s.reached.2 s.ahead.2.2 t ⟨offset, front ++ left⟩ with
      | error fault =>
        rw [hp] at hplace
        nomatch hplace
      | ok next' =>
        rw [hp] at hplace
        exact ⟨next', hp, (Except.ok.inj hplace).symm⟩

end

end Draft

end Mustache
