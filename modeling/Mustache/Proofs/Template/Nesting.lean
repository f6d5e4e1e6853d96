import Mustache.Config.Basic
import Mustache.Proofs.Fault
import Mustache.Proofs.Tag.Balanced
import Mustache.Proofs.Template.Passage

/-!
# A template is accepted if its tags are balanced

A draft keeps a frame for every tag that is open, so its frames are the stack that tells whether a
word of tags is balanced. Without parents, no other fault is possible once the tags are read one by
one.

* `Draft.openings`, **`Draft.place_nest`**: what a tag does to the open tags of a draft;
* **`Draft.run_nest`**, `Token.parse_nestAt`: what becomes of the pieces that are left, and of a
  source;
* **`Token.parse_nesting`**: which sources are accepted, and the fault of the others.
-/

namespace Mustache

namespace Draft

/-- The tags that are open, the innermost first. -/
def openings (s : Draft) : List Opening := s.frames.map Frame.opening

variable {types : ContentTypes} {s next : Draft} {held : List Char} {t : Tag}

theorem openings_leave (s : Draft) (blanks : List Char) (c : Cursor) :
    (s.leave blanks c).openings = s.openings := by
  rw [openings, leave_frames, openings]

/-- **What a tag does to the open tags.** -/
theorem place_nest (hf : NoParent s.frames) (held : List Char) (tag : Cursor) (t : Tag)
    (c : Cursor) :
    match t.nest? s.openings with
    | some waiting => ∃ next, s.place held tag t c = .ok next ∧ next.openings = waiting
    | none => s.place held tag t c = .error ⟨.mismatchedClose, tag.offset⟩ := by
  cases t with
  | closing e =>
    unfold openings
    cases hframes : s.frames with
    | nil => simp [Tag.nest?, place, close, hframes]
    | cons f outer =>
      simp only [List.map_cons, Tag.nest?, place, close, hframes]
      by_cases he : f.opening.closing = e
      · have hparent := hf f (hframes ▸ List.mem_cons_self)
        rw [if_pos he, if_neg (not_not.mpr he)]
        cases ht : Frame.tokens? f outer
            (String.ofList (f.body.take (f.body.length - tag.rest.length)))
            (s.leave held c).tokens.reverse (s.leave held c).lineStart with
        | some tokens => exact ⟨_, rfl, rfl⟩
        | none =>
          obtain ⟨opening, _⟩ := f
          cases opening with
          | parent target => exact absurd rfl (hparent target)
          | present | absent => cases ht
          | block name =>
            rw [Frame.tokens?] at ht
            split_ifs at ht
      · rw [if_neg he, if_pos he]
  | opening o => exact ⟨_, rfl, rfl⟩
  | interpolation verbatim expr =>
    refine ⟨_, rfl, ?_⟩
    rw [pushText_eq]
    rfl
  | comment | inclusion | delimiters | pragma => exact ⟨_, rfl, openings_leave s held c⟩

theorem noParent_place {tag c : Cursor} (hf : NoParent s.frames)
    (ht : ∀ target, t ≠ .opening (.parent target)) (hp : s.place held tag t c = .ok next) :
    NoParent next.frames :=
  (place_outline hf ht hp).1

/-- **What becomes of the pieces that are left**: the stack of open tags decides. -/
theorem run_nest {pieces : List Piece} {last : List Char} (hd : s.Proper)
    (hf : NoParent s.frames) (hp : ∀ p ∈ pieces, p.NoParent)
    (hcut : Piece.cut? types s.scopes s.delimiters s.cursor = some (pieces, last)) :
    match Piece.nestAt s.cursor.offset s.openings pieces with
    | .ok [] => ∃ final, s.run types = .ok final
    | .ok (_ :: _) => s.run types = .error ⟨.unclosedSection, s.cursor.stop⟩
    | .error place => s.run types = .error ⟨.mismatchedClose, place⟩ := by
  refine pieces_induction
    (motive := fun s r => NoParent s.frames → (∀ p ∈ r.1, p.NoParent) →
      match Piece.nestAt s.cursor.offset s.openings r.1 with
      | .ok [] => ∃ final, s.run types = .ok final
      | .ok (_ :: _) => s.run types = .error ⟨.unclosedSection, s.cursor.stop⟩
      | .error place => s.run types = .error ⟨.mismatchedClose, place⟩)
    ?text ?tag hd hcut hf hp
  case text =>
    intro s s' last hadds hreads hr hrun _ _
    rw [Piece.nestAt, hrun, run_end hr, hadds.frames, ← hreads.stop, openings]
    cases s.frames with
    | nil => exact ⟨_, rfl⟩
    | cons f outer =>
      show Except.error (Fault.mk _ s'.cursor.offset) = _
      rw [Cursor.stop, hr]
      rfl
  case tag =>
    intro s p after s' held tag c _ _ hm ih hf hp
    obtain ⟨hpt, hps⟩ := List.forall_mem_cons.mp hp
    have hf' : NoParent s'.frames := hm.adds.frames.symm ▸ hf
    have hopen : s'.openings = s.openings := by rw [openings, hm.adds.frames, openings]
    have hplace := place_nest hf' held tag p.tag c
    rw [hopen] at hplace
    rw [Piece.nestAt, hm.run]
    cases hnest : p.tag.nest? s.openings with
    | none =>
      rw [hnest] at hplace
      dsimp only at hplace ⊢
      rw [hplace, ← hm.reads_text.2]
      rfl
    | some waiting =>
      rw [hnest] at hplace
      obtain ⟨next, hok, hw⟩ := hplace
      obtain ⟨front, left, hl, hrun⟩ := ih next hok
      have hreads := hm.reads_text.trans hm.reads_source
      have hall : ∀ p ∈ (Piece.prepend front left).1, p.NoParent := by rwa [hl.prepend]
      have hrest := hrun (noParent_place hf' hpt hok) (Piece.noParent_prepend hall)
      rw [hw, hl.reads.2, ← Piece.nestAt_prepend, hl.prepend, hreads.2, hl.reads.stop,
        hreads.stop] at hrest
      rw [hok]
      exact hrest

end Draft

namespace Token

variable {types : ContentTypes} {source : String}

/-- What becomes of a source: the stack of open tags decides. -/
theorem parse_nestAt {pieces : List Piece} {last : List Char}
    (hcut : Piece.cut? types [] .standard (.ofString source) = some (pieces, last))
    (hp : ∀ p ∈ pieces, p.NoParent) :
    match Piece.nestAt 0 [] pieces with
    | .ok [] => ∃ tokens, parse types source = .ok tokens
    | .ok (_ :: _) => parse types source =
        .error (.locate source ⟨.unclosedSection, Text.utf8Length source.toList⟩)
    | .error place => parse types source = .error (.locate source ⟨.mismatchedClose, place⟩) := by
  have hproper := Draft.proper_start Delimiters.proper_standard source
  have hstop : (Draft.start .standard source).cursor.stop = Text.utf8Length source.toList :=
    Nat.zero_add _
  have hrun := Draft.run_nest hproper Draft.noParent_nil hp hcut
  change match Piece.nestAt 0 [] pieces with
    | .ok [] => _
    | .ok (_ :: _) => _
    | .error place => _ at hrun
  rw [hstop] at hrun
  cases hnest : Piece.nestAt 0 [] pieces with
  | error place =>
    rw [hnest] at hrun
    dsimp only at hrun ⊢
    rw [parse, parseWith, hrun]
  | ok waiting =>
    rw [hnest] at hrun
    cases waiting with
    | nil =>
      obtain ⟨final, hfinal⟩ := hrun
      exact ⟨_, parseWith_eq_ok.mpr ⟨final, hfinal, rfl⟩⟩
    | cons o outer =>
      dsimp only at hrun ⊢
      rw [parse, parseWith, hrun]

/-- **A template is accepted if and only if its tags are balanced.** Otherwise the fault is at the
first close tag that does not repeat the innermost tag that is open, or has none open, and without
such a tag at the end of the source, where a tag is still open. This holds of every source without
parents whose tags can be read one by one. -/
theorem parse_nesting {pieces : List Piece} {last : List Char}
    (hcut : Piece.cut? types [] .standard (.ofString source) = some (pieces, last))
    (hp : ∀ p ∈ pieces, p.NoParent) :
    ((∃ tokens, parse types source = .ok tokens) ↔ Tag.Balanced (pieces.map Piece.tag)) ∧
      (∀ before p, Piece.Mismatch pieces before p →
        ∃ e, parse types source = .error e ∧ e.cause = .mismatchedClose ∧
          e.offset = Text.utf8Length (Piece.flatten before p.text)) ∧
      (¬ Tag.Balanced (pieces.map Piece.tag) → (∀ before p, ¬ Piece.Mismatch pieces before p) →
        ∃ e, parse types source = .error e ∧ e.cause = .unclosedSection ∧
          e.offset = Text.utf8Length source.toList) := by
  have hparse := parse_nestAt hcut hp
  refine ⟨?_, fun before p hm => ?_, fun hb hm => ?_⟩
  · rw [Piece.balanced_iff]
    cases hnest : Piece.nestAt 0 [] pieces with
    | error place =>
      rw [hnest] at hparse
      simp [hparse]
    | ok waiting =>
      rw [hnest] at hparse
      cases waiting with
      | nil => exact iff_of_true hparse rfl
      | cons o outer => simp [hparse]
  · rw [Piece.nestAt_eq_error.mpr ⟨before, p, hm, (Nat.zero_add _).symm⟩] at hparse
    obtain ⟨after, _, _, rfl, -⟩ := hm
    have hsource : source.toList = _ :=
      (Piece.flatten_of_cut? hcut).symm.trans (Piece.flatten_append before p after last)
    exact ⟨_, hparse, rfl, ParseError.offset_locate hsource _⟩
  · cases hnest : Piece.nestAt 0 [] pieces with
    | error place =>
      obtain ⟨before, p, hmis, -⟩ := Piece.nestAt_eq_error.mp hnest
      exact absurd hmis (hm before p)
    | ok waiting =>
      rw [hnest] at hparse
      cases waiting with
      | nil => exact absurd (Piece.balanced_iff.mpr hnest) hb
      | cons o outer =>
        exact ⟨_, hparse, rfl, ParseError.offset_locate (List.append_nil _).symm _⟩

/-- A section that is closed while a block inside of it is open. -/
theorem parse_nesting_crossed :
    ∃ pieces last,
      Piece.cut? Config.builtIn.types [] .standard
        (.ofString "{{#a}}{{$b}}{{/a}}{{/b}}") = some (pieces, last) ∧
      (∀ p ∈ pieces, p.NoParent) ∧
      ∃ e, parse Config.builtIn.types "{{#a}}{{$b}}{{/a}}{{/b}}" = .error e ∧
        e.cause = .mismatchedClose ∧ e.offset = 12 := by
  have hc : Piece.cut? Config.builtIn.types [] .standard
      (.ofString "{{#a}}{{$b}}{{/a}}{{/b}}") = some
        ([⟨[], .opening (.present (.plain "a")), "{{#a}}".toList⟩,
          ⟨[], .opening (.block "b"), "{{$b}}".toList⟩,
          ⟨[], .closing (.plain "a"), "{{/a}}".toList⟩,
          ⟨[], .closing (.plain "b"), "{{/b}}".toList⟩], []) := by
    cbv
  have hp : ∀ p ∈ [
      (⟨[], .opening (.present (.plain "a")), "{{#a}}".toList⟩ : Piece),
      ⟨[], .opening (.block "b"), "{{$b}}".toList⟩,
      ⟨[], .closing (.plain "a"), "{{/a}}".toList⟩,
      ⟨[], .closing (.plain "b"), "{{/b}}".toList⟩], p.NoParent := by
    simp [Piece.NoParent]
  have ho : Tag.StillOpen [.opening (.present (.plain "a")), .opening (.block "b")]
      [.block "b", .present (.plain "a")] :=
    (Tag.StillOpen.inside (.balanced .nil) (.present (.plain "a")) .nil).inside (.block "b") .nil
  have hm := (parse_nesting hc hp).2.1 [_, _] _
    ⟨[_], .plain "a", _, rfl, rfl, ho, by simp [Opening.closing, Expression.plain]⟩
  exact ⟨_, _, hc, hp, hm⟩

end Token

end Mustache
