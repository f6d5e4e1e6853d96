import Mustache.Proofs.Delimiters
import Mustache.Proofs.Template.Marks
import Mustache.Proofs.Text.Lines
import Mustache.Proofs.Token.Bare

/-!
# Drafts without their layout

What a tag does to the bare tokens of a draft does not depend on whether the tag stands alone, nor
on the blanks around it. So it can be told from the bare draft.

* `Frame.bare`, `Draft.bare`; `Draft.Held`: what open tags hold back is blank;
* `Draft.add?`: what a tag adds to a bare draft; **`Draft.add_bare`**;
* `Draft.addText`: what a text adds to it.
-/

namespace Mustache

/-- An open tag without its layout. -/
def Frame.bare (f : Frame) : Frame :=
  { opening := f.opening, start := 0, blanks := [], alone := false, body := []
    outer := Token.bareAll f.outer, delimiters := f.delimiters }

namespace Draft

/-- A draft without its layout, and without what is left of the source. -/
def bare (s : Draft) : Draft :=
  ⟨⟨0, []⟩, false, s.delimiters, Token.bareAll s.tokens, s.frames.map Frame.bare⟩

/-- What open tags hold back are spaces and tabs. -/
def Held (s : Draft) : Prop := ∀ f ∈ s.frames, ∀ c ∈ f.blanks, Text.isInlineBlank c = true

/-- The draft with a tag that nothing surrounds. -/
def add? (s : Draft) (t : Tag) : Option Draft := (s.place [] ⟨0, []⟩ t ⟨0, []⟩).toOption

/-- The draft with the solid lines of a text. -/
def addText (s : Draft) (text : List Char) : Draft :=
  { s with
    tokens := ((Text.solidLines text).map fun line => .text (String.ofList line)).reverse ++
      s.tokens }

variable {s next : Draft} {blanks : List Char} {tag c : Cursor} {t : Tag}

theorem blank_of_inline {blanks : List Char} (hb : ∀ c ∈ blanks, Text.isInlineBlank c = true) :
    ∀ c ∈ blanks, Text.isBlank c = true :=
  fun c hc => Text.isBlank_of_isInlineBlank (hb c hc)

theorem insideParent_bare (frames : List Frame) :
    insideParent (frames.map Frame.bare) = insideParent frames := by
  cases frames with
  | nil => rfl
  | cons f outer =>
    obtain ⟨opening, _, _, _, _, _, _⟩ := f
    cases opening <;> rfl

/-! ## Tags -/

theorem leave_bare (hb : ∀ c ∈ blanks, Text.isInlineBlank c = true) (c : Cursor) :
    Token.bareAll (s.leave blanks c).tokens = Token.bareAll s.tokens := by
  obtain ⟨-, c', -, e⟩ | ⟨-, e⟩ := s.leave_cases blanks c <;> rw [e]
  rw [pushText_eq, Token.bareAll_append, Token.bareAll_ofText_blank (blank_of_inline hb)]
  rfl

/-- A closed tag, without its layout. -/
theorem tokens?_bare {f : Frame} (hf : ∀ c ∈ f.blanks, Text.isInlineBlank c = true)
    (outer : List Frame) (raw : String) (body : List Token) (closedAlone : Bool) :
    Frame.tokens? f.bare (outer.map Frame.bare) "" (Token.bareAll body) false =
      (Frame.tokens? f outer raw body closedAlone).map Token.bareAll := by
  obtain ⟨opening, start, blanks, alone, front, before, d⟩ := f
  cases opening with
  | present expr | absent expr => rfl
  | block name =>
    simp only [Frame.tokens?, Frame.bare, insideParent_bare]
    cases insideParent outer <;> rfl
  | parent target =>
    simp only [Frame.tokens?, Frame.bare, Overrides.collect_bare, Option.map_map]
    refine Option.map_congr fun overrides _ => ?_
    have hblank : Token.bareAll (Token.ofText blanks) = [] :=
      Token.bareAll_ofText_blank (blank_of_inline hf)
    by_cases ha : (alone || closedAlone) = true
    · simp only [Function.comp_apply, ha, if_true]
      rfl
    · simp only [Function.comp_apply, ha]
      exact congrArg (Token.parentTag target none (Token.bareEntries overrides) :: ·) hblank.symm

theorem bare_leave (s : Draft) : s.bare.leave [] ⟨0, []⟩ = s.bare := rfl

theorem close_bare (hs : s.Held) (hb : ∀ c ∈ blanks, Text.isInlineBlank c = true)
    (tag c : Cursor) (expr : Expression) :
    (s.bare.close [] ⟨0, []⟩ expr ⟨0, []⟩).toOption =
      (s.close blanks tag expr c).toOption.map bare := by
  have hleave := leave_bare (s := s) hb c
  cases hframes : s.frames with
  | nil => simp [close, bare, hframes, Except.toOption]
  | cons f outer =>
    have hbare : s.bare.frames = f.bare :: outer.map Frame.bare := by
      rw [bare, hframes, List.map_cons]
    have hf := tokens?_bare (hs f (hframes ▸ List.mem_cons_self)) outer
      (String.ofList (f.body.take (f.body.length - tag.rest.length)))
      (s.leave blanks c).tokens.reverse (s.leave blanks c).lineStart
    rw [Token.bareAll_reverse, hleave] at hf
    simp only [close, hbare, hframes, bare_leave]
    by_cases he : f.opening.closing = expr
    · have he' : f.bare.opening.closing = expr := he
      change Frame.tokens? f.bare (outer.map Frame.bare)
        (String.ofList (f.bare.body.take (f.bare.body.length - ([] : List Char).length)))
        s.bare.tokens.reverse s.bare.lineStart = _ at hf
      rw [if_neg (not_not.mpr he), if_neg (not_not.mpr he'), hf]
      cases Frame.tokens? f outer _ _ _ with
      | none => rfl
      | some tokens =>
        simp only [Option.map_some, Except.toOption, bare, Token.bareAll_append]
        rfl
    · have he' : f.bare.opening.closing ≠ expr := he
      rw [if_pos he, if_pos he']
      rfl

/-- **What a tag does to the bare tokens** does not depend on what surrounds it. -/
theorem add_bare (hs : s.Held) (hb : ∀ c ∈ blanks, Text.isInlineBlank c = true) (t : Tag)
    (tag c : Cursor) : s.bare.add? t = (s.place blanks tag t c).toOption.map bare := by
  have hleave := leave_bare (s := s) hb c
  cases t with
  | interpolation verbatim expr =>
    have hblank := Token.bareAll_ofText_blank (blank_of_inline hb)
    simp only [add?, place, pushText_eq]
    have hnil : Token.ofText [] = [] := rfl
    cases verbatim <;>
      simp [bare, push, Token.bareAll, Token.bare?, Token.bareAll_append, hblank, hnil,
        Except.toOption]
  | opening opening =>
    simp only [add?, place, enter, bare_leave]
    cases opening <;> simp [bare, Frame.bare, hleave, Except.toOption, Token.bareAll]
  | closing expr => exact close_bare hs hb tag c expr
  | comment =>
    simp only [add?, place, bare_leave]
    simp [bare, hleave, Except.toOption]
  | inclusion target =>
    simp only [add?, place, bare_leave]
    simp [bare, push, hleave, Except.toOption, Token.bareAll, Token.bare?]
  | delimiters d =>
    simp only [add?, place, bare_leave]
    simp [bare, hleave, Except.toOption]
  | pragma id =>
    simp only [add?, place, bare_leave]
    simp [bare, push, hleave, Except.toOption, Token.bareAll, Token.bare?]

end Draft

end Mustache
