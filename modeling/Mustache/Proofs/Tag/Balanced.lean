import Mathlib.Data.List.Induction
import Mustache.Proofs.Template.Pieces

/-!
# Balanced tags

The tags of a source are a word of open and close tags, among tags that are neither. It is balanced
if every close tag repeats the innermost tag that is open before it and no tag stays open. A stack
of the open tags tells whether it is.

* `Tag.Balanced`, `Tag.StillOpen`: balanced words, and words in which some tags stay open;
* `Tag.nest?`, `Tag.nestAll?`: what a tag, and a word, does to the open tags;
* **`Tag.nestAll?_eq_some`**: the stack holds the tags that are still open;
* `Piece.Mismatch`: the first close tag that repeats another tag; **`Piece.nestAt_eq_error`**: it is
  where the stack gets stuck.
-/

namespace Mustache

namespace Tag

/-- **A balanced word**: every close tag repeats the innermost tag that is open before it, and in
the end no tag is open. -/
inductive Balanced : List Tag → Prop
  | nil : Balanced []
  | other {t : Tag} {word : List Tag} (ho : ∀ o, t ≠ .opening o) (hc : ∀ e, t ≠ .closing e)
      (h : Balanced word) : Balanced (t :: word)
  | pair (o : Opening) {body word : List Tag} (hb : Balanced body) (h : Balanced word) :
      Balanced (.opening o :: (body ++ .closing o.closing :: word))

/-- The tags of a word that are still open at its end, the innermost first. -/
inductive StillOpen : List Tag → List Opening → Prop
  | balanced {word : List Tag} (h : Balanced word) : StillOpen word []
  | inside {word body : List Tag} {waiting : List Opening} (h : StillOpen word waiting)
      (o : Opening) (hb : Balanced body) : StillOpen (word ++ .opening o :: body) (o :: waiting)

/-- The open tags after a tag, unless it closes another tag than the innermost one. -/
def nest? (waiting : List Opening) : Tag → Option (List Opening)
  | .opening o => some (o :: waiting)
  | .closing e =>
    match waiting with
    | [] => none
    | o :: outer => if o.closing = e then some outer else none
  | _ => some waiting

/-- The open tags after a word. -/
def nestAll? (waiting : List Opening) : List Tag → Option (List Opening)
  | [] => some waiting
  | t :: word => (nest? waiting t).bind fun waiting => nestAll? waiting word

variable {word body : List Tag} {waiting after : List Opening} {t : Tag}

theorem nest?_of_other (ho : ∀ o, t ≠ .opening o) (hc : ∀ e, t ≠ .closing e)
    (waiting : List Opening) : nest? waiting t = some waiting := by
  cases t with
  | opening o => exact absurd rfl (ho o)
  | closing e => exact absurd rfl (hc e)
  | interpolation | comment | inclusion | delimiters | pragma => rfl

theorem nestAll?_append (waiting : List Opening) (word more : List Tag) :
    nestAll? waiting (word ++ more) =
      (nestAll? waiting word).bind fun waiting => nestAll? waiting more := by
  induction word generalizing waiting with
  | nil => rfl
  | cons t word ih =>
    rw [List.cons_append, nestAll?, nestAll?, Option.bind_assoc]
    exact Option.bind_congr fun next _ => ih next

/-! ## Words and stacks -/

/-- A balanced word leaves the open tags as they are. -/
theorem Balanced.nestAll? (h : Balanced word) (waiting : List Opening) :
    nestAll? waiting word = some waiting := by
  induction h generalizing waiting with
  | nil => rfl
  | other ho hc _ ih => rw [Tag.nestAll?, nest?_of_other ho hc, Option.bind_some, ih]
  | pair o _ _ ihb ih =>
    rw [Tag.nestAll?, nest?, Option.bind_some, nestAll?_append, ihb, Option.bind_some,
      Tag.nestAll?, nest?, if_pos rfl, Option.bind_some, ih]

theorem Balanced.append (h : Balanced word) (h' : Balanced body) : Balanced (word ++ body) := by
  induction h with
  | nil => exact h'
  | other ho hc _ ih => exact .other ho hc ih
  | pair o hb _ _ ih =>
    rw [List.cons_append, List.append_assoc, List.cons_append]
    exact .pair o hb ih

theorem balanced_of_other (ho : ∀ o, t ≠ .opening o) (hc : ∀ e, t ≠ .closing e) : Balanced [t] :=
  .other ho hc .nil

/-- A balanced word leaves the same tags open. -/
theorem StillOpen.append (h : StillOpen word waiting) (h' : Balanced body) :
    StillOpen (word ++ body) waiting := by
  cases h with
  | balanced h => exact .balanced (h.append h')
  | inside h o hb =>
    rw [List.append_assoc, List.cons_append]
    exact h.inside o (hb.append h')

theorem balanced_of_stillOpen (h : StillOpen word []) : Balanced word := by
  cases h with
  | balanced h => exact h

/-- A tag that closes the innermost open tag leaves the others open. -/
theorem StillOpen.close {o : Opening} (h : StillOpen word (o :: waiting)) :
    StillOpen (word ++ [.closing o.closing]) waiting := by
  cases h with
  | inside h o hb =>
    rw [List.append_assoc, List.cons_append]
    exact h.append (.pair o hb .nil)

theorem StillOpen.nestAll? (h : StillOpen word waiting) : nestAll? [] word = some waiting := by
  induction h with
  | balanced h => exact h.nestAll? []
  | inside _ o hb ih =>
    rw [nestAll?_append, ih, Option.bind_some, Tag.nestAll?, nest?, Option.bind_some,
      hb.nestAll?]

/-- What one more tag does to the tags that are still open. -/
theorem StillOpen.nest (h : StillOpen word waiting) (ht : nest? waiting t = some after) :
    StillOpen (word ++ [t]) after := by
  cases t with
  | opening o =>
    cases ht
    exact h.inside o .nil
  | closing e =>
    cases waiting with
    | nil => cases ht
    | cons o outer =>
      rw [nest?] at ht
      split_ifs at ht with he
      cases ht
      exact he ▸ h.close
  | interpolation | comment | inclusion | delimiters | pragma =>
    cases ht
    exact h.append (balanced_of_other nofun nofun)

/-- **The stack holds the tags that are still open.** -/
theorem nestAll?_eq_some : nestAll? [] word = some waiting ↔ StillOpen word waiting := by
  refine ⟨fun h => ?_, StillOpen.nestAll?⟩
  induction word using List.reverseRecOn generalizing waiting with
  | nil =>
    cases h
    exact .balanced .nil
  | append_singleton word t ih =>
    rw [nestAll?_append] at h
    obtain ⟨before, hb, h⟩ := Option.bind_eq_some_iff.mp h
    obtain ⟨after, ha, he⟩ := Option.bind_eq_some_iff.mp h
    cases he
    exact (ih hb).nest ha

end Tag

/-! ## Tags at their places -/

namespace Piece

/-- The first close tag that does not repeat the innermost tag that is open, or that has none
open. -/
def Mismatch (pieces before : List Piece) (p : Piece) : Prop :=
  ∃ after e waiting, pieces = before ++ p :: after ∧ p.tag = .closing e ∧
    Tag.StillOpen (before.map Piece.tag) waiting ∧ ∀ o ∈ waiting.head?, o.closing ≠ e

/-- The open tags after pieces that start at an offset, or the place of the first tag that closes
another tag than the innermost one. -/
def nestAt (offset : Nat) (waiting : List Opening) : List Piece → Except Nat (List Opening)
  | [] => .ok waiting
  | p :: pieces =>
    match p.tag.nest? waiting with
    | none => .error (offset + Text.utf8Length p.text)
    | some waiting => nestAt (offset + Text.utf8Length (p.text ++ p.source)) waiting pieces

variable {pieces before after : List Piece} {p : Piece} {offset place : Nat}
  {waiting next : List Opening}

theorem nestAt_eq_ok :
    nestAt offset waiting pieces = .ok next ↔
      Tag.nestAll? waiting (pieces.map Piece.tag) = some next := by
  induction pieces generalizing offset waiting with
  | nil => simp [nestAt, Tag.nestAll?]
  | cons p pieces ih =>
    rw [nestAt, List.map_cons, Tag.nestAll?]
    cases p.tag.nest? waiting with
    | none => simp
    | some next => simpa using ih

/-- A word is balanced if the stack can follow it and is empty in the end. -/
theorem balanced_iff :
    Tag.Balanced (pieces.map Piece.tag) ↔ nestAt offset [] pieces = .ok [] := by
  rw [nestAt_eq_ok, Tag.nestAll?_eq_some]
  exact ⟨.balanced, Tag.balanced_of_stillOpen⟩

/-- Text in front of pieces is text before them. -/
theorem nestAt_prepend (front : List Char) (r : List Piece × List Char) :
    nestAt offset waiting (prepend front r).1 =
      nestAt (offset + Text.utf8Length front) waiting r.1 := by
  obtain ⟨pieces, last⟩ := r
  cases pieces with
  | nil => rfl
  | cons p pieces =>
    simp only [prepend, nestAt, Text.utf8Length_append, Nat.add_assoc]

theorem nest?_eq_none {t : Tag} :
    t.nest? waiting = none ↔ ∃ e, t = .closing e ∧ ∀ o ∈ waiting.head?, o.closing ≠ e := by
  cases t with
  | closing e => cases waiting <;> simp [Tag.nest?]
  | opening | interpolation | comment | inclusion | delimiters | pragma => simp [Tag.nest?]

theorem flatten_offset {text : List Char} :
    offset + Text.utf8Length (flatten (p :: pieces) text) =
      offset + Text.utf8Length (p.text ++ p.source) + Text.utf8Length (flatten pieces text) := by
  rw [flatten, Text.utf8Length_append (p.text ++ p.source), Nat.add_assoc]

/-- The stack gets stuck at a tag after pieces that it can follow. -/
theorem nestAt_eq_error_iff :
    nestAt offset waiting pieces = .error place ↔
      ∃ before p after between, pieces = before ++ p :: after ∧
        Tag.nestAll? waiting (before.map Piece.tag) = some between ∧
        p.tag.nest? between = none ∧
        place = offset + Text.utf8Length (flatten before p.text) := by
  induction pieces generalizing offset waiting with
  | nil => simp [nestAt]
  | cons p pieces ih =>
    rw [nestAt]
    constructor
    · intro h
      cases hn : p.tag.nest? waiting with
      | none =>
        rw [hn] at h
        cases h
        exact ⟨[], p, pieces, waiting, rfl, rfl, hn, rfl⟩
      | some next =>
        rw [hn] at h
        obtain ⟨before, q, after, between, rfl, hb, hq, rfl⟩ := ih.mp h
        refine ⟨p :: before, q, after, between, rfl, ?_, hq, ?_⟩
        · rw [List.map_cons, Tag.nestAll?, hn, Option.bind_some, hb]
        · exact flatten_offset.symm
    · rintro ⟨before, q, after, between, he, hb, hq, rfl⟩
      cases before with
      | nil =>
        cases he
        cases hb
        rw [hq]
        rfl
      | cons r before =>
        cases he
        rw [List.map_cons, Tag.nestAll?] at hb
        obtain ⟨next, hn, hb⟩ := Option.bind_eq_some_iff.mp hb
        rw [hn]
        exact ih.mpr ⟨before, q, after, between, rfl, hb, hq, flatten_offset⟩

/-- **The stack gets stuck at the first mismatch.** -/
theorem nestAt_eq_error :
    nestAt offset [] pieces = .error place ↔
      ∃ before p, Mismatch pieces before p ∧
        place = offset + Text.utf8Length (flatten before p.text) := by
  rw [nestAt_eq_error_iff]
  constructor
  · rintro ⟨before, p, after, between, he, hb, hn, hplace⟩
    obtain ⟨e, ht, hne⟩ := nest?_eq_none.mp hn
    exact ⟨before, p, ⟨after, e, between, he, ht, Tag.nestAll?_eq_some.mp hb, hne⟩, hplace⟩
  · rintro ⟨before, p, ⟨after, e, between, he, ht, ho, hne⟩, hplace⟩
    exact ⟨before, p, after, between, he, Tag.nestAll?_eq_some.mpr ho,
      nest?_eq_none.mpr ⟨e, ht, hne⟩, hplace⟩

end Piece

end Mustache
