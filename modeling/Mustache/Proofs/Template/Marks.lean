import Mustache.Proofs.Template.Pieces
import Mustache.Proofs.Template.Step

/-!
# The marks of a template that is read

* `Token.outline`, `Token.outlineAll`: the marks of tokens, in the order of the source;
* `Draft.outline`: those of a draft, the open bodies one after the other;
* `Draft.leave_outline`, **`Draft.place_outline`**: what a tag adds to them;
* `Draft.place_cursor`, `Draft.place_scope`: where reading goes on after a tag, and with which
  delimiters.

Parents are left out: what fills in a block is no part of the outline.
-/

namespace Mustache

/-! ## Tokens -/

mutual

/-- The marks of a token, down into the bodies of sections and the contents of blocks. -/
def Token.outline : Token → List Mark
  | .text content => content.toList.map .char
  | .sectionTag _ _ body => Token.outlineAll body
  | .invertedTag _ _ body => Token.outlineAll body
  | .blockTag name default indentation => .block name indentation :: Token.outlineAll default
  | .partialTag target indentation => [.inclusion target indentation]
  | _ => []

/-- The marks of tokens in order. -/
def Token.outlineAll : List Token → List Mark
  | [] => []
  | t :: tokens => Token.outline t ++ Token.outlineAll tokens

end

namespace Token

theorem outlineAll_append (tokens more : List Token) :
    outlineAll (tokens ++ more) = outlineAll tokens ++ outlineAll more := by
  induction tokens with
  | nil => rfl
  | cons t tokens ih => rw [List.cons_append, outlineAll, outlineAll, ih, List.append_assoc]

theorem outlineAll_singleton (t : Token) : outlineAll [t] = t.outline := by
  rw [outlineAll, outlineAll, List.append_nil]

theorem outlineAll_ofText (text : List Char) :
    outlineAll (ofText text).reverse = text.map .char := by
  unfold ofText
  split_ifs with h
  · rw [List.isEmpty_iff.mp h]
    rfl
  · rw [List.reverse_singleton, outlineAll_singleton, outline, String.toList_ofList]

end Token

/-! ## Drafts -/

namespace Draft

/-- The marks before the body of an open tag, among them that of the tag itself. -/
def outlineFrames : List Frame → List Mark
  | [] => []
  | f :: outer => outlineFrames outer ++ Token.outlineAll f.outer.reverse ++
    (Tag.opening f.opening).marks (if f.alone then indentation? f.blanks else none)

/-- The marks of what has been read. -/
def outline (s : Draft) : List Mark := outlineFrames s.frames ++ Token.outlineAll s.tokens.reverse

/-- No parent is open. -/
def NoParent (frames : List Frame) : Prop := ∀ f ∈ frames, ∀ target, f.opening ≠ .parent target

variable {s next : Draft} {blanks : List Char} {tag c : Cursor} {t : Tag}

theorem noParent_nil : NoParent [] := fun _ h => absurd h List.not_mem_nil

theorem not_insideParent {frames : List Frame} (h : NoParent frames) :
    insideParent frames = false := by
  unfold insideParent
  split
  · exact absurd rfl (h _ (.head _) _)
  · rfl

theorem outline_push (s : Draft) (t : Token) : (s.push t).outline = s.outline ++ t.outline := by
  rw [outline, outline, push_frames, push_tokens, List.reverse_cons, Token.outlineAll_append,
    Token.outlineAll_singleton, List.append_assoc]

theorem outline_pushText (s : Draft) (text : List Char) :
    (s.pushText text).outline = s.outline ++ text.map .char := by
  rw [outline, outline, pushText_frames, pushText_tokens, List.reverse_append,
    Token.outlineAll_append, Token.outlineAll_ofText, List.append_assoc]

/-- Whether a tag that is reached with the draft stands alone, given what follows the tag. -/
def standsAlone (s : Draft) (t : Tag) (c : Cursor) : Bool :=
  !t.isInterpolation && s.lineStart && c.lineEnd?.isSome

/-- How a tag other than an interpolation is left. -/
theorem leave_alone (ht : t.isInterpolation = false) (blanks : List Char) :
    (s.standsAlone t c = true ∧ ∃ c', c.lineEnd? = some c' ∧
      s.leave blanks c = { s with cursor := c', lineStart := true }) ∨
    (s.standsAlone t c = false ∧
      s.leave blanks c = { s.pushText blanks with cursor := c, lineStart := false }) := by
  obtain ⟨hl, c', hc, e⟩ | ⟨hl, e⟩ := s.leave_cases blanks c
  · exact .inl ⟨by simp [standsAlone, ht, hl, hc], c', hc, e⟩
  · refine .inr ⟨?_, e⟩
    cases hs : s.lineStart with
    | false => simp [standsAlone, hs]
    | true => simp [standsAlone, hl hs]

/-- **Leaving a tag** other than an interpolation keeps the blanks before it, unless it stands
alone. -/
theorem leave_outline (ht : t.isInterpolation = false) (blanks : List Char) :
    (s.leave blanks c).lineStart = s.standsAlone t c ∧
      (s.leave blanks c).outline =
        s.outline ++ if s.standsAlone t c then [] else blanks.map .char := by
  obtain ⟨ha, c', -, e⟩ | ⟨ha, e⟩ := s.leave_alone ht blanks
  · rw [e, ha]
    exact ⟨rfl, (List.append_nil _).symm⟩
  · rw [e, ha]
    exact ⟨rfl, outline_pushText s blanks⟩

theorem enter_outline {opening : Opening} (hf : NoParent s.frames)
    (ho : ∀ target, opening ≠ .parent target) (blanks : List Char) (start : Nat) :
    NoParent (s.enter blanks start opening c).frames ∧
      (s.enter blanks start opening c).lineStart = (s.leave blanks c).lineStart ∧
      (s.enter blanks start opening c).outline = (s.leave blanks c).outline ++
        (Tag.opening opening).marks
          (if (s.leave blanks c).lineStart then indentation? blanks else none) := by
  have hframes : NoParent (s.enter blanks start opening c).frames :=
    List.forall_mem_cons.mpr ⟨ho, hf⟩
  refine ⟨hframes, ?_⟩
  unfold outline
  cases opening with
  | parent target => exact absurd rfl (ho target)
  | present | absent | block =>
    simp [enter, outlineFrames, Token.outlineAll]

/-- A body that is closed, other than a parent's, is one token. -/
theorem tokens?_outline {f : Frame} {outer : List Frame} {raw : String} {body tokens : List Token}
    {closedAlone : Bool} (hf : ∀ target, f.opening ≠ .parent target)
    (ho : insideParent outer = false)
    (ht : Frame.tokens? f outer raw body closedAlone = some tokens) :
    ∃ t, tokens = [t] ∧ t.outline =
      (Tag.opening f.opening).marks (if f.alone then indentation? f.blanks else none) ++
        Token.outlineAll body := by
  obtain ⟨opening, start, blanks, alone, front, before, d⟩ := f
  cases opening with
  | parent target => exact absurd rfl (hf target)
  | present expr | absent expr =>
    cases ht
    exact ⟨_, rfl, rfl⟩
  | block name =>
    simp only [Frame.tokens?, ho, Bool.false_eq_true, if_false] at ht
    cases ht
    exact ⟨_, rfl, rfl⟩

theorem close_outline {expr : Expression} (hf : NoParent s.frames)
    (hs : s.close blanks tag expr c = .ok next) :
    NoParent next.frames ∧ next.lineStart = (s.leave blanks c).lineStart ∧
      next.outline = (s.leave blanks c).outline := by
  obtain ⟨f, outer, tokens, hframes, -, htokens, rfl⟩ := close_spec hs
  rw [hframes] at hf
  obtain ⟨ho, hf⟩ := List.forall_mem_cons.mp hf
  obtain ⟨t, rfl, ht⟩ := tokens?_outline ho (not_insideParent hf) htokens
  refine ⟨hf, rfl, ?_⟩
  unfold outline
  rw [leave_frames, hframes]
  simp only [outlineFrames, List.singleton_append, List.reverse_cons, Token.outlineAll_append,
    Token.outlineAll_singleton, ht, List.append_assoc]

/-- **What a tag adds to the marks**: the blanks before it, unless it stands alone, and its own. -/
theorem place_outline (hf : NoParent s.frames) (ht : ∀ target, t ≠ .opening (.parent target))
    (hs : s.place blanks tag t c = .ok next) :
    NoParent next.frames ∧ next.lineStart = s.standsAlone t c ∧
      next.outline = s.outline ++ (if s.standsAlone t c then [] else blanks.map .char) ++
        t.marks (if s.standsAlone t c then indentation? blanks else none) := by
  have leave (hi : t.isInterpolation = false) := s.leave_outline (c := c) hi blanks
  cases t with
  | interpolation verbatim expr =>
    have hout : ((s.pushText blanks).push
        (if verbatim then .verbatimTag expr else .variableTag expr)).outline =
          s.outline ++ blanks.map .char := by
      rw [outline_push, outline_pushText]
      cases verbatim <;> exact List.append_nil _
    cases hs
    refine ⟨by rwa [push_frames, pushText_frames], rfl, ?_⟩
    rw [show s.standsAlone (.interpolation verbatim expr) c = false from rfl]
    exact hout.trans (List.append_nil _).symm
  | opening opening =>
    cases hs
    obtain ⟨hl, ho⟩ := leave rfl
    obtain ⟨hframes, hline, hout⟩ :=
      s.enter_outline (c := c) hf (fun target e => ht target (e ▸ rfl)) blanks tag.offset
    rw [hl] at hline hout
    exact ⟨hframes, hline, by rw [hout, ho]⟩
  | closing expr =>
    obtain ⟨hl, ho⟩ := leave rfl
    obtain ⟨hframes, hline, hout⟩ := s.close_outline hf hs
    exact ⟨hframes, hline.trans hl, by rw [hout, ho]; exact (List.append_nil _).symm⟩
  | comment =>
    cases hs
    obtain ⟨hl, ho⟩ := leave rfl
    exact ⟨by rwa [leave_frames], hl, by rw [ho]; exact (List.append_nil _).symm⟩
  | inclusion target =>
    cases hs
    obtain ⟨hl, ho⟩ := leave rfl
    refine ⟨by rwa [push_frames, leave_frames], hl, ?_⟩
    rw [outline_push, ho, hl]
    rfl
  | delimiters d =>
    cases hs
    obtain ⟨hl, ho⟩ := leave rfl
    refine ⟨by rwa [leave_frames], hl, ?_⟩
    rw [show Tag.marks _ (.delimiters d) = [] from rfl, List.append_nil]
    exact ho
  | pragma id =>
    cases hs
    obtain ⟨hl, ho⟩ := leave rfl
    refine ⟨by rwa [push_frames, leave_frames], hl, ?_⟩
    rw [outline_push, ho]
    rfl

/-! ## Where reading goes on -/

theorem leave_cursor (ht : t.isInterpolation = false) (blanks : List Char) :
    s.standsAlone t c = true ∧ c.lineEnd? = some (s.leave blanks c).cursor ∨
      s.standsAlone t c = false ∧ (s.leave blanks c).cursor = c := by
  obtain ⟨ha, c', hc, e⟩ | ⟨ha, e⟩ := s.leave_alone ht blanks
  · rw [e]
    exact .inl ⟨ha, hc⟩
  · rw [e]
    exact .inr ⟨ha, rfl⟩

/-- **After a tag reading goes on** right there, or after the end of the line if it stands
alone. -/
theorem place_cursor (hs : s.place blanks tag t c = .ok next) :
    s.standsAlone t c = true ∧ c.lineEnd? = some next.cursor ∨
      s.standsAlone t c = false ∧ next.cursor = c := by
  have leave (hi : t.isInterpolation = false) := s.leave_cursor (c := c) hi blanks
  cases t with
  | interpolation => cases hs; exact .inr ⟨rfl, rfl⟩
  | closing expr =>
    obtain ⟨f, outer, tokens, -, -, -, rfl⟩ := close_spec hs
    exact leave rfl
  | opening | comment | inclusion | delimiters | pragma => cases hs; exact leave rfl

/-- The delimiters of the bodies around a draft, the innermost first. -/
def scopes (s : Draft) : List Delimiters := s.frames.map Frame.delimiters

/-- A tag changes the delimiters as it should. -/
theorem place_scope (hs : s.place blanks tag t c = .ok next) :
    t.scope s.scopes s.delimiters = (next.scopes, next.delimiters) := by
  unfold scopes
  cases t with
  | interpolation => cases hs; simp [Tag.scope]
  | closing expr =>
    obtain ⟨f, outer, tokens, hf, -, -, rfl⟩ := close_spec hs
    rw [hf]
    rfl
  | opening => cases hs; simp [Tag.scope, enter]
  | comment | inclusion | delimiters | pragma => cases hs; simp [Tag.scope]

end Draft

end Mustache
