import Mustache.Proofs.Template.Atop
import Mustache.Proofs.Template.Passage

/-!
# The bare tokens of a template, told from its pieces

Text and tags have the same effect on the bare tokens of a draft wherever they stand. So the bare
tokens of a template can be told from its pieces alone: the text of each piece adds its solid
lines, and then its tag is added.

* `Draft.follow?`: what pieces do to a bare draft, `Draft.followAll?` with the text after them;
* `followAll?_prepend`: blanks up to the end of a line make no difference;
* **`Draft.run_of_followAll?`**: a source whose pieces can be followed is read, to these bare
  tokens;
* `Draft.addText_atop`, **`Draft.add_atop`**: what text and tags do on top of another draft.
-/

namespace Mustache.Draft

/-- What pieces do to a bare draft. -/
def follow? (s : Draft) : List Piece → Option Draft
  | [] => some s
  | p :: pieces => ((s.addText p.text).add? p.tag).bind fun s => follow? s pieces

/-- What pieces and the text after them do to a bare draft. -/
def followAll? (s : Draft) (r : List Piece × List Char) : Option Draft :=
  (s.follow? r.1).map fun s => s.addText r.2

variable {types : ContentTypes} {s s' next b base : Draft} {front text held : List Char}
  {t : Tag} {tag c : Cursor}

theorem toOption_eq_some {r : Except Fault Draft} : r.toOption = some b ↔ r = .ok b := by
  cases r <;> simp [Except.toOption]

theorem add_scope (h : s.add? t = some b) :
    t.scope s.scopes s.delimiters = (b.scopes, b.delimiters) :=
  place_scope (toOption_eq_some.mp h)

/-! ## Pieces -/

theorem follow?_append (s : Draft) (pieces more : List Piece) :
    s.follow? (pieces ++ more) = (s.follow? pieces).bind fun s => s.follow? more := by
  induction pieces generalizing s with
  | nil => rfl
  | cons p pieces ih =>
    rw [List.cons_append, follow?, follow?, Option.bind_assoc]
    exact Option.bind_congr fun next _ => ih next

theorem followAll?_cons (s : Draft) (p : Piece) (pieces : List Piece) (last : List Char) :
    s.followAll? (p :: pieces, last) =
      ((s.addText p.text).add? p.tag).bind fun s => s.followAll? (pieces, last) := by
  rw [followAll?, follow?, Option.map_bind]
  rfl

theorem addText_silent (h : Text.Silent front) (s : Draft) (text : List Char) :
    s.addText (front ++ text) = s.addText text := by
  rw [addText, h.solidLines_append, addText]

theorem addText_blank (h : ∀ ch ∈ text, Text.isBlank ch = true) (s : Draft) :
    s.addText text = s := by
  rw [addText, Text.solidLines_blank h]
  rfl

/-- **Blanks up to the end of a line make no difference** in front of pieces. -/
theorem followAll?_prepend (hb : ∀ ch ∈ front, Text.isBlank ch = true) (s : Draft)
    {r : List Piece × List Char} (h : Text.Silent front ∨ r = ([], [])) :
    s.followAll? (Piece.prepend front r) = s.followAll? r := by
  obtain h | rfl := h
  · obtain ⟨_ | ⟨p, pieces⟩, last⟩ := r
    · simp only [Piece.prepend, followAll?, follow?, addText_silent h]
    · simp only [Piece.prepend, followAll?_cons, addText_silent h]
  · have hnothing : s.addText [] = s := addText_blank (List.forall_mem_nil _) s
    simp only [Piece.prepend, followAll?, follow?, List.append_nil, Option.map_some,
      addText_blank hb, hnothing]

/-! ## Held blanks -/

theorem Held.place (hs : s.Held) (hb : ∀ ch ∈ held, Text.isInlineBlank ch = true)
    (hp : s.place held tag t c = .ok next) : next.Held := by
  unfold Held
  cases t with
  | opening opening =>
    cases hp
    exact List.forall_mem_cons.mpr ⟨hb, hs⟩
  | closing expr =>
    obtain ⟨f, outer, tokens, hf, -, -, rfl⟩ := close_spec hp
    unfold Held at hs
    rw [hf] at hs
    exact (List.forall_mem_cons.mp hs).2
  | interpolation =>
    cases hp
    rw [pushText_eq]
    exact hs
  | comment | inclusion | delimiters | pragma =>
    cases hp
    exact fun f hf => hs f (s.leave_frames held c ▸ hf)

/-! ## Runs -/

/-- **A source whose pieces can be followed is read**, to the bare tokens that they lead to, if no
tag is open then. -/
theorem run_of_followAll? {r : List Piece × List Char} (hd : s.Proper) (hs : s.Held)
    (hcut : Piece.cut? types s.scopes s.delimiters s.cursor = some r)
    (hf : s.bare.followAll? r = some b) (hb : b.frames = []) :
    ∃ final, s.run types = .ok final ∧ final.bare = b := by
  refine pieces_induction
    (motive := fun s r => s.Held → s.bare.followAll? r = some b →
      ∃ final, s.run types = .ok final ∧ final.bare = b)
    ?text ?tag hd hcut hs hf
  case text =>
    intro s s' last hadds _ hr hrun _ hf
    cases hf
    have hframes : s.frames = [] := List.map_eq_nil_iff.mp hb
    refine ⟨s', ?_, hadds.bare⟩
    rw [hrun, run_end hr, hadds.frames, hframes]
    rfl
  case tag =>
    intro s p after s' held tag c _ _ hm ih hs hf
    have hs' : s'.Held := .of_adds hm.adds hs
    rw [followAll?_cons, ← hm.adds.bare, add_bare hs' hm.held_inline p.tag tag c] at hf
    obtain ⟨bare, hbare, hf⟩ := Option.bind_eq_some_iff.mp hf
    obtain ⟨next, hok, rfl⟩ := Option.map_eq_some_iff.mp hbare
    have hp := toOption_eq_some.mp hok
    obtain ⟨front, left, hl, hnext⟩ := ih next hp
    have hsilent : Text.Silent front ∨ left = ([], []) := by
      refine hl.silent.imp id fun hr => ?_
      have hend := hl.cut
      rw [Piece.cut?_nil hl.proper.1.start_ne_nil hr] at hend
      exact (Option.some.inj hend).symm
    change next.bare.followAll? after = some b at hf
    rw [← hl.prepend, followAll?_prepend hl.blank _ hsilent] at hf
    obtain ⟨final, hfinal, hbare⟩ := hnext (.place hs' hm.held_inline hp) hf
    refine ⟨final, ?_, hbare⟩
    rw [hm.run, hp]
    exact hfinal

/-! ## On top of another draft -/

theorem addText_atop (s : Draft) (text : List Char) :
    (base.atop s).addText text = base.atop (s.addText text) := by
  simp only [addText, atop, tokensAtop_append]

/-- **What a tag adds on top of another draft** it adds to the draft alone, if it does not close a
tag of the other one. -/
theorem add_atop (hb : insideParent base.frames = false) (hc : base.cursor.offset = 0)
    (hopen : s.frames = [] → ∀ e, t ≠ .closing e) (h : (base.atop s).add? t = some next) :
    ∃ b, s.add? t = some b ∧ base.atop b = next := by
  have hp := place_atop hb (fun hf => .inr (hopen hf)) [] ⟨0, []⟩ ⟨0, []⟩
  have hshift : Cursor.shift base.cursor.offset ⟨0, []⟩ = ⟨0, []⟩ := by rw [hc]; rfl
  rw [hshift] at hp
  unfold add? at h ⊢
  rw [hp] at h
  cases hs : s.place [] ⟨0, []⟩ t ⟨0, []⟩ with
  | error fault => rw [hs] at h; cases h
  | ok b =>
    rw [hs] at h
    exact ⟨b, rfl, Option.some.inj h⟩

end Mustache.Draft
