import Mustache.Proofs.Tag.Local
import Mustache.Proofs.Template.Step

/-!
# Reading behind other drafts

What has been read before, and what is open around, does not matter to reading: its tokens stay
below those that are added, its frames below those that are opened, and all offsets are larger.

* `Draft.atop`: a draft behind another one, whose tokens and frames are below its own;
* `Draft.place_atop`, **`Draft.step_atop_or`**, `Draft.step_atop`: a tag and a step behind another
  draft;
* **`Draft.run_atop`**: the run behind a draft in which no tag is open.
-/

namespace Mustache

namespace Draft

/-- The tokens of a body: those of the outermost one follow the tokens of the other draft. -/
def tokensAtop (base : Draft) (tokens : List Token) : List Frame → List Token
  | [] => tokens ++ base.tokens
  | _ :: _ => tokens

/-- The frames with those of the other draft below them. -/
def framesAtop (base : Draft) : List Frame → List Frame
  | [] => base.frames
  | f :: outer =>
    { f with
      start := base.cursor.offset + f.start
      outer := base.tokensAtop f.outer outer } :: framesAtop base outer

/-- The draft behind another one, whose tokens and frames are below its own. -/
def atop (base s : Draft) : Draft :=
  { cursor := s.cursor.shift base.cursor.offset
    lineStart := s.lineStart
    delimiters := s.delimiters
    tokens := base.tokensAtop s.tokens s.frames
    frames := base.framesAtop s.frames }

/-- A result behind a draft. -/
def atopResult (base : Draft) : Except Fault Draft → Except Fault Draft
  | .error fault => .error (fault.shift base.cursor.offset)
  | .ok next => .ok (base.atop next)

variable {base s : Draft} {t : Tag}

theorem tokensAtop_append (new tokens : List Token) (frames : List Frame) :
    base.tokensAtop (new ++ tokens) frames = new ++ base.tokensAtop tokens frames := by
  cases frames with
  | nil => exact List.append_assoc new tokens base.tokens
  | cons f outer => rfl

theorem length_framesAtop (base : Draft) (frames : List Frame) :
    (base.framesAtop frames).length = frames.length + base.frames.length := by
  induction frames with
  | nil => rw [framesAtop, List.length_nil, Nat.zero_add]
  | cons f outer ih => rw [framesAtop, List.length_cons, List.length_cons, ih, Nat.add_right_comm]

theorem insideParent_atop (hb : insideParent base.frames = false) (frames : List Frame) :
    insideParent (base.framesAtop frames) = insideParent frames := by
  cases frames with
  | nil => exact hb
  | cons f outer =>
    obtain ⟨opening, _⟩ := f
    cases opening <;> rfl

theorem pushText_atop (s : Draft) (text : List Char) :
    (base.atop s).pushText text = base.atop (s.pushText text) := by
  rw [pushText_eq, pushText_eq]
  simp only [atop, tokensAtop_append]

theorem push_atop (s : Draft) (t : Token) : (base.atop s).push t = base.atop (s.push t) := by
  have h : base.tokensAtop ([t] ++ s.tokens) s.frames = [t] ++ base.tokensAtop s.tokens s.frames :=
    tokensAtop_append [t] s.tokens s.frames
  rw [List.singleton_append, List.singleton_append] at h
  simp only [atop, push, h]

/-! ## A tag -/

theorem lineEnd_shift (k : Nat) (c : Cursor) :
    (c.shift k).lineEnd? = c.lineEnd?.map (Cursor.shift k) := by
  unfold Cursor.lineEnd?
  rw [Cursor.shift_skip]
  dsimp only [Cursor.shift_rest]
  split <;> simp only [Option.map_some, Option.map_none, Cursor.shift_past]

theorem leave_atop (s : Draft) (blanks : List Char) (c : Cursor) :
    (base.atop s).leave blanks (c.shift base.cursor.offset) = base.atop (s.leave blanks c) := by
  have hl : (base.atop s).lineStart = s.lineStart := rfl
  unfold leave
  rw [lineEnd_shift, pushText_atop, hl]
  cases s.lineStart with
  | false => rfl
  | true => cases c.lineEnd? <;> rfl

theorem enter_atop (s : Draft) (blanks : List Char) (start : Nat) (opening : Opening) (c : Cursor) :
    (base.atop s).enter blanks (base.cursor.offset + start) opening (c.shift base.cursor.offset) =
      base.atop (s.enter blanks start opening c) := by
  have hf := s.leave_frames blanks c
  unfold enter
  rw [leave_atop]
  cases opening <;>
    simp only [atop, framesAtop, tokensAtop, Cursor.shift_rest, hf, if_true, if_false,
      Bool.false_eq_true]

/-- A closed tag, with the same tags around it. -/
theorem tokens?_atop (hb : insideParent base.frames = false) (f : Frame) (outer : List Frame)
    (raw : String) (body : List Token) (closedAlone : Bool) (start : Nat) (before : List Token) :
    Frame.tokens? { f with start, outer := before } (base.framesAtop outer) raw body
      closedAlone = Frame.tokens? f outer raw body closedAlone := by
  obtain ⟨opening, _⟩ := f
  cases opening with
  | block name => simp only [Frame.tokens?, insideParent_atop hb]
  | present | absent | parent => rfl

/-- A close tag behind a draft closes what is open after it, or, if nothing is open in both, is at
fault. -/
theorem close_atop (hb : insideParent base.frames = false)
    (hopen : s.frames = [] → base.frames = []) (blanks : List Char) (tag : Cursor)
    (expr : Expression) (c : Cursor) :
    (base.atop s).close blanks (tag.shift base.cursor.offset) expr (c.shift base.cursor.offset) =
      base.atopResult (s.close blanks tag expr c) := by
  unfold close
  rw [leave_atop]
  cases hf : s.frames with
  | nil =>
    have hframes : (base.atop s).frames = [] := by
      simp only [atop, hf, framesAtop, hopen hf]
    rw [hframes]
    rfl
  | cons f outer =>
    have hframes : (base.atop s).frames = base.framesAtop (f :: outer) := by
      simp only [atop, hf]
    have hleave : (s.leave blanks c).frames = f :: outer := (s.leave_frames blanks c).trans hf
    have htokens : (base.atop (s.leave blanks c)).tokens = (s.leave blanks c).tokens := by
      simp only [atop, hleave, tokensAtop]
    have hline : (base.atop (s.leave blanks c)).lineStart = (s.leave blanks c).lineStart := rfl
    rw [hframes, framesAtop]
    dsimp only
    rw [tokens?_atop hb, htokens, hline, Cursor.shift_rest]
    by_cases he : f.opening.closing ≠ expr
    · rw [if_pos he, if_pos he]
      rfl
    · rw [if_neg he, if_neg he]
      cases Frame.tokens? f outer
          (String.ofList (f.body.take (f.body.length - tag.rest.length)))
          (s.leave blanks c).tokens.reverse (s.leave blanks c).lineStart with
      | none => rfl
      | some tokens => simp only [atopResult, atop, tokensAtop_append]

/-- **A tag behind a draft.** -/
theorem place_atop (hb : insideParent base.frames = false)
    (hopen : s.frames = [] → base.frames = [] ∨ ∀ e, t ≠ .closing e) (blanks : List Char)
    (tag c : Cursor) :
    (base.atop s).place blanks (tag.shift base.cursor.offset) t (c.shift base.cursor.offset) =
      base.atopResult (s.place blanks tag t c) := by
  have hleave : (base.atop s).leave blanks (c.shift base.cursor.offset) =
      base.atop (s.leave blanks c) := leave_atop s blanks c
  unfold place
  cases t with
  | interpolation verbatim expr =>
    dsimp only
    rw [pushText_atop, push_atop]
    rfl
  | opening opening => exact congrArg Except.ok (enter_atop s blanks tag.offset opening c)
  | closing expr =>
    exact close_atop hb (fun hf => (hopen hf).resolve_right fun h => h expr rfl) blanks tag expr c
  | comment => exact congrArg Except.ok hleave
  | inclusion target =>
    dsimp only
    rw [hleave, push_atop]
    rfl
  | delimiters d =>
    dsimp only
    rw [hleave]
    rfl
  | pragma id =>
    dsimp only
    rw [hleave, push_atop]
    rfl

/-! ## Steps -/

theorem line_shift (k : Nat) (mark : List Char) (c : Cursor) :
    (c.shift k).line mark = ((c.line mark).1, (c.line mark).2.shift k) := by
  simp only [Cursor.line, Cursor.shift_rest, Cursor.shift_past]

theorem ahead_atop (s : Draft) :
    (base.atop s).ahead = (s.ahead.1, s.ahead.2.1, s.ahead.2.2.shift base.cursor.offset) := by
  have hl : (base.atop s).lineStart = s.lineStart := rfl
  have hc : (base.atop s).cursor = s.cursor.shift base.cursor.offset := rfl
  have hd : (base.atop s).delimiters = s.delimiters := rfl
  unfold ahead
  rw [hl, hc, hd]
  cases s.lineStart <;>
    simp only [Cursor.shift_take, line_shift, if_true, if_false, Bool.false_eq_true]

variable {types : ContentTypes}

/-- **A step behind a draft** that is not directly inside a parent: the same step behind it, or one
that closes the innermost tag that is open there. -/
theorem step_atop_or (types : ContentTypes) (hb : insideParent base.frames = false) (s : Draft) :
    (base.atop s).step types = base.atopResult (s.step types) ∨
      s.frames = [] ∧ base.frames ≠ [] ∧
        ∀ next, (base.atop s).step types = .ok next → next.frames = base.frames.tail := by
  have hd : (base.atop s).delimiters = s.delimiters := rfl
  unfold step
  rw [ahead_atop, hd]
  obtain ⟨blanks, text, tag⟩ := s.ahead
  dsimp only
  rw [Cursor.shift_rest]
  split
  · rw [pushText_atop]
    exact .inl rfl
  · rw [pushText_atop, Cursor.shift_tail]
    exact .inl rfl
  · have hafter : ((tag.shift base.cursor.offset).after? s.delimiters.start.toList).getD
        (tag.shift base.cursor.offset) =
          ((tag.after? s.delimiters.start.toList).getD tag).shift base.cursor.offset := by
      rw [Cursor.shift_after]
      cases tag.after? s.delimiters.start.toList <;> rfl
    rw [hafter, Cursor.shift_offset, Tag.read_shift]
    cases Tag.read types s.delimiters tag.offset
        ((tag.after? s.delimiters.start.toList).getD tag) with
    | error fault => exact .inl rfl
    | ok r =>
      obtain ⟨t, c⟩ := r
      dsimp only [Tag.shiftResult]
      -- Reaching the tag changes neither the frames of the draft nor those around it.
      have place (s' : Draft) (hf : s'.frames = s.frames) (held : List Char) :
          (base.atop s').place held (tag.shift base.cursor.offset) t
              (c.shift base.cursor.offset) = base.atopResult (s'.place held tag t c) ∨
            s.frames = [] ∧ base.frames ≠ [] ∧ ∀ next,
              (base.atop s').place held (tag.shift base.cursor.offset) t
                (c.shift base.cursor.offset) = .ok next → next.frames = base.frames.tail := by
        by_cases hopen : s'.frames = [] → base.frames = [] ∨ ∀ e, t ≠ .closing e
        · exact .inl (place_atop hb hopen held tag c)
        · simp only [not_forall, not_or, not_not] at hopen
          obtain ⟨hs', hne, e, rfl⟩ := hopen
          refine .inr ⟨hf ▸ hs', hne, fun next hp => ?_⟩
          obtain ⟨f, outer, tokens, hframes, -, -, rfl⟩ := close_spec hp
          have hall : base.frames = f :: outer := by
            rw [← hframes]
            simp only [atop, hs', framesAtop]
          rw [hall]
          rfl
      by_cases ht : text.isEmpty
      · rw [if_pos ht, if_pos ht]
        exact place s rfl blanks
      · rw [if_neg ht, if_neg ht, pushText_atop]
        exact place { s.pushText (blanks ++ text) with lineStart := false }
          (pushText_frames s (blanks ++ text)) []

/-- A step behind a draft in which no tag is open. -/
theorem step_atop (hb : base.frames = []) (s : Draft) :
    (base.atop s).step types = base.atopResult (s.step types) :=
  (step_atop_or types (by rw [hb]; rfl) s).resolve_right fun h => h.2.1 hb

/-- **A run behind a draft** in which no tag is open: its tokens follow, and its fault is further
back. -/
theorem run_atop (hb : base.frames = []) (s : Draft) :
    (base.atop s).run types = base.atopResult (s.run types) := by
  have hframes (s : Draft) : (base.atop s).frames.isEmpty = s.frames.isEmpty := by
    cases hf : s.frames <;> simp [atop, hf, framesAtop, hb]
  have hrest (s : Draft) : (base.atop s).cursor.rest = s.cursor.rest := rfl
  fun_induction run types s with
  | case1 s he hf => rw [run, hrest, if_pos he, hframes, if_pos hf, atopResult]
  | case2 s he hf =>
    rw [run, hrest, if_pos he, hframes, if_neg hf]
    rfl
  | case3 s he fault hs =>
    rw [run, hrest, if_neg he, step_atop hb, hs]
    rfl
  | case4 s he next hs hlt ih =>
    rw [run, hrest, if_neg he, step_atop hb, hs]
    exact (if_pos hlt).trans ih
  | case5 s he next hs hlt =>
    rw [run, hrest, if_neg he, step_atop hb, hs]
    exact if_neg hlt

end Draft

end Mustache
