import Mustache.Proofs.Cursor
import Mustache.Template.Draft

/-!
# Cutting a source into text and tags

A source is text and tags by turns. Which tags stand alone is told from the source alone, line by
line, and so is what is left of it when all tags are taken out, with the lines of those that stand
alone.

* `Piece`, `Piece.cut?`: a tag with the text before it, and the pieces of a source;
* `Text.afterLineEnd?`, `Tag.isAlone`: the tags that stand alone;
* `Mark`, **`Piece.outline`**: the text that is left, and the indentation of partials and blocks.
-/

namespace Mustache

/-! ## Pieces -/

/-- A tag of a source, with the text between it and the tag before. -/
structure Piece where
  text : List Char
  tag : Tag
  /-- The tag as it is written, with its delimiters. -/
  source : List Char

/-- The delimiters after a tag, given those outside of the bodies that are open. A change of
delimiters ends with the body that it is made in. -/
def Tag.scope (outer : List Delimiters) (d : Delimiters) : Tag → List Delimiters × Delimiters
  | .opening _ => (d :: outer, d)
  | .closing _ => (outer.tail, outer.headD d)
  | .delimiters next => (outer, next)
  | _ => (outer, d)

namespace Piece

/-- **The pieces of what is left of a source**, and the text after the last tag: the next tag is
where its start delimiter first occurs. -/
def cut? (types : ContentTypes) (outer : List Delimiters) (d : Delimiters) (c : Cursor) :
    Option (List Piece × List Char) :=
  match _hc : c.through? d.start.toList with
  | none => some ([], c.rest)
  | some (text, inner) =>
    match Tag.read types d (c.offset + Text.utf8Length text) inner with
    | .error _ => none
    | .ok (tag, next) =>
      if _hn : next.rest.length < (d.start.toList ++ inner.rest).length then
        (cut? types (tag.scope outer d).1 (tag.scope outer d).2 next).map fun (pieces, last) =>
          (⟨text, tag, d.start.toList ++ inner.rest.take (inner.rest.length - next.rest.length)⟩ ::
            pieces, last)
      else none
termination_by c.rest.length
decreasing_by
  have hr := (Cursor.reads_through _hc).1.length
  simp only [List.length_append] at _hn hr
  omega

/-- Pieces and the text after them, joined again. -/
def flatten : List Piece → List Char → List Char
  | [], last => last
  | p :: pieces, last => p.text ++ p.source ++ flatten pieces last

end Piece

/-! ## Tags that stand alone -/

/-- What follows the end of the line, if only spaces and tabs come before it. The end of the text
ends a line too. -/
def Text.afterLineEnd? (cs : List Char) : Option (List Char) :=
  match cs.dropWhile Text.isInlineBlank with
  | [] => some []
  | '\n' :: rest => some rest
  | '\r' :: '\n' :: rest => some rest
  | _ => none

/-- Whether the tag puts a value into the output. -/
def Tag.isInterpolation : Tag → Bool
  | .interpolation _ _ => true
  | _ => false

/-- Whether a tag stands alone between the text before it and the text after it: it is not an
interpolation, and only spaces and tabs share its line. -/
def Tag.isAlone (before : List Char) (tag : Tag) (after : List Char) : Bool :=
  !tag.isInterpolation && (Text.lastLine before).all Text.isInlineBlank &&
    (Text.afterLineEnd? after).isSome

/-! ## What is left -/

/-- What a template has of its source: characters of texts, and the tags that keep an
indentation. -/
inductive Mark where
  | char (c : Char)
  | inclusion (target : Target) (indentation : Option String)
  | block (name : String) (indentation : Option String)
  deriving DecidableEq, Repr

/-- The marks of a tag with an indentation. -/
def Tag.marks (indentation : Option String) : Tag → List Mark
  | .inclusion target => [.inclusion target indentation]
  | .opening (.block name) => [.block name indentation]
  | _ => []

namespace Piece

/-- The text without the line end at its front if a tag before it stands alone, and without the
spaces and tabs at its end if the tag after it does. -/
def kept (skip alone : Bool) (text : List Char) : List Char :=
  let text := if skip then (Text.afterLineEnd? text).getD text else text
  if alone then Text.trimEndWhile Text.isInlineBlank text else text

/-- The spaces and tabs at the end of a text. -/
def blanksAtEnd (text : List Char) : List Char :=
  (text.reverse.takeWhile Text.isInlineBlank).reverse

/-- The marks of a tag: its indentation is that of the blanks before it, if it stands alone and
there are any. -/
def marks (p : Piece) (alone : Bool) : List Mark :=
  p.tag.marks (if alone then indentation? (blanksAtEnd p.text) else none)

/-- **What is left of pieces** after the text `before`, where `skip` tells whether the tag before
them stands alone. -/
def outline (before : List Char) (skip : Bool) : List Piece → List Char → List Mark
  | [], last => (kept skip false last).map .char
  | p :: pieces, last =>
    let alone := p.tag.isAlone (before ++ p.text) (flatten pieces last)
    (kept skip alone p.text).map .char ++ p.marks alone ++
      outline (before ++ p.text ++ p.source) alone pieces last

/-- Pieces with more text in front. -/
def prepend (front : List Char) : List Piece × List Char → List Piece × List Char
  | ([], last) => ([], front ++ last)
  | (p :: pieces, last) => ({ p with text := front ++ p.text } :: pieces, last)

variable {types : ContentTypes} {outer : List Delimiters} {d : Delimiters} {c m next : Cursor}
  {text used front : List Char}

/-! ## Where tags are -/

theorem cut?_eq : cut? types outer d c =
    match c.through? d.start.toList with
    | none => some ([], c.rest)
    | some (text, inner) =>
      match Tag.read types d (c.offset + Text.utf8Length text) inner with
      | .error _ => none
      | .ok (tag, next) =>
        if next.rest.length < (d.start.toList ++ inner.rest).length then
          (cut? types (tag.scope outer d).1 (tag.scope outer d).2 next).map fun (pieces, last) =>
            (⟨text, tag, d.start.toList ++
              inner.rest.take (inner.rest.length - next.rest.length)⟩ :: pieces, last)
        else none := by
  rw [cut?]
  split
  · rename_i h
    rw [h]
  · rename_i text inner h
    rw [h]
    rfl

/-- A part in which no start delimiter begins is text of the next piece. -/
theorem cut?_skip (h : c.Reads used m) (hu : Text.Unmet d.start.toList used m.rest) :
    cut? types outer d c = (cut? types outer d m).map (prepend used) := by
  have hthrough : c.through? d.start.toList =
      (m.through? d.start.toList).map fun r => (used ++ r.1, r.2) := by
    unfold Cursor.through?
    rw [h.1, Text.cut?_append hu, Option.map_map, Option.map_map]
    refine Option.map_congr fun r _ => ?_
    simp only [Function.comp_apply, Cursor.past, h.2, Text.utf8Length_append, Nat.add_assoc]
  have hoffset (text : List Char) : c.offset + Text.utf8Length (used ++ text) =
      m.offset + Text.utf8Length text := by
    rw [Text.utf8Length_append, h.2, Nat.add_assoc]
  rw [cut?_eq, hthrough, cut?_eq (c := m)]
  cases m.through? d.start.toList with
  | none => simp [prepend, h.1]
  | some r =>
    obtain ⟨text, inner⟩ := r
    dsimp only [Option.map_some]
    rw [hoffset]
    cases Tag.read types d (m.offset + Text.utf8Length text) inner with
    | error => rfl
    | ok r =>
      dsimp only
      split_ifs
      · rw [Option.map_map]
        rfl
      · rfl

/-- The next tag, where its start delimiter is. -/
theorem through?_of_reads {mark : List Char} (h : c.Reads text m) (hi : m.Reads mark next)
    (hu : Text.Unmet mark text m.rest) : c.through? mark = some (text, next) := by
  have hcut : Text.cut? mark c.rest = some (text, next.rest) := by
    rw [Text.cut?_eq_some, h.1, hi.1]
    exact ⟨rfl, hi.1 ▸ hu⟩
  have hnext : c.past (text ++ mark) next.rest = next := ((h.trans hi).eq_past).symm
  rw [Cursor.through?, hcut, Option.map_some]
  dsimp only
  rw [hnext]

/-- **A tag and the text before it**, and then the pieces after the tag. -/
theorem cut?_tag {tag inner : Cursor} {t : Tag} (hd : d.start.toList ≠ []) (h : c.Reads text tag)
    (hu : Text.Unmet d.start.toList text tag.rest) (hi : tag.Reads d.start.toList inner)
    (hread : Tag.read types d tag.offset inner = .ok (t, next)) (hn : inner.Reads used next) :
    cut? types outer d c =
      (cut? types (t.scope outer d).1 (t.scope outer d).2 next).map fun (pieces, last) =>
        (⟨text, t, d.start.toList ++ used⟩ :: pieces, last) := by
  have hlt : next.rest.length < (d.start.toList ++ inner.rest).length := by
    have := List.length_pos_iff.mpr hd
    have := hn.length
    simp only [List.length_append]
    omega
  rw [cut?_eq, through?_of_reads h hi hu]
  dsimp only
  rw [← h.2, hread]
  dsimp only
  rw [if_pos hlt, hn.take]

/-- A tag that cannot be read. -/
theorem cut?_stuck {tag inner : Cursor} {fault : Fault} (h : c.Reads text tag)
    (hu : Text.Unmet d.start.toList text tag.rest) (hi : tag.Reads d.start.toList inner)
    (hread : Tag.read types d tag.offset inner = .error fault) : cut? types outer d c = none := by
  rw [cut?_eq, through?_of_reads h hi hu]
  dsimp only
  rw [← h.2, hread]

/-- At the end no piece is left. -/
theorem cut?_nil (hd : d.start.toList ≠ []) (h : c.rest = []) :
    cut? types outer d c = some ([], []) := by
  rw [cut?_eq, Cursor.through?, h, Text.cut?_nil_of_ne hd]
  rfl

/-- **Nothing is lost by cutting.** -/
theorem flatten_of_cut? {pieces : List Piece} {last : List Char}
    (h : cut? types outer d c = some (pieces, last)) : flatten pieces last = c.rest := by
  fun_induction cut? types outer d c generalizing pieces with
  | case1 => cases h; rfl
  | case2 => nomatch h
  | case3 outer d c text inner hthrough tag next hread hlt ih =>
    obtain ⟨⟨pieces, l⟩, hp, e⟩ := Option.map_eq_some_iff.mp h
    cases e
    have ht := (Cursor.reads_through hthrough).1.1
    obtain ⟨used, hn⟩ := Tag.reads_of_read hread
    rw [flatten, ih hp, hn.take, ht, hn.1]
    simp only [List.append_assoc]
  | case4 => nomatch h

/-- The pieces before one of several. -/
theorem flatten_append (before : List Piece) (p : Piece) (after : List Piece) (last : List Char) :
    flatten (before ++ p :: after) last =
      flatten before p.text ++ (p.source ++ flatten after last) := by
  induction before with
  | nil => rw [List.nil_append, flatten, flatten, List.append_assoc]
  | cons q before ih => simp only [List.cons_append, flatten, ih, List.append_assoc]

/-! ## Text in front of pieces -/

theorem length_prepend (front : List Char) (r : List Piece × List Char) :
    (prepend front r).1.length = r.1.length := by
  obtain ⟨_ | ⟨p, pieces⟩, last⟩ := r <;> rfl

/-- The blanks at the end of a text are on its last line. -/
theorem blanksAtEnd_line (line text : List Char) :
    blanksAtEnd (line ++ '\n' :: text) = blanksAtEnd text := by
  unfold blanksAtEnd
  rw [List.reverse_append, List.reverse_cons, List.append_assoc, List.singleton_append,
    Text.takeWhile_append_stop rfl]

theorem kept_line (alone : Bool) (line text : List Char) :
    kept false alone (line ++ '\n' :: text) = line ++ '\n' :: kept false alone text := by
  unfold kept
  cases alone with
  | false => rfl
  | true =>
    simp only [if_true, Bool.false_eq_true, if_false, Text.trimEndWhile]
    rw [List.reverse_append, List.reverse_cons, List.append_assoc, List.singleton_append,
      Text.dropWhile_append_stop rfl]
    simp

/-- **Lines in front of the pieces** are left as they are. -/
theorem outline_line (before line : List Char) (pieces : List Piece × List Char) :
    outline before false (prepend (line ++ ['\n']) pieces).1 (prepend (line ++ ['\n']) pieces).2 =
      (line ++ ['\n']).map .char ++
        outline (before ++ (line ++ ['\n'])) false pieces.1 pieces.2 := by
  obtain ⟨pieces, last⟩ := pieces
  cases pieces with
  | nil => simp [prepend, outline, kept]
  | cons p pieces =>
    have hk (alone : Bool) := kept_line alone line p.text
    have hm (alone : Bool) : Piece.marks { p with text := line ++ '\n' :: p.text } alone =
        p.marks alone := by
      unfold marks
      rw [blanksAtEnd_line]
    simp only [prepend, outline, List.append_assoc, hk, hm, List.map_append,
      List.map_cons, List.cons_append, List.nil_append, List.map_nil]

/-- **The end of a line after a tag that stands alone** is taken out. -/
theorem outline_skip {before front : List Char} {pieces : List Piece × List Char}
    (hend : ∀ text, Text.afterLineEnd? (front ++ text) = some text)
    (hblanks : ∀ text, blanksAtEnd (front ++ text) = blanksAtEnd text) :
    outline before true (prepend front pieces).1 (prepend front pieces).2 =
      outline (before ++ front) false pieces.1 pieces.2 := by
  obtain ⟨pieces, last⟩ := pieces
  have hk (alone : Bool) (text : List Char) :
      kept true alone (front ++ text) = kept false alone text := by
    simp only [kept, if_true, hend, Option.getD_some, Bool.false_eq_true, if_false]
  cases pieces with
  | nil => simp only [prepend, outline, hk]
  | cons p pieces =>
    have hm (alone : Bool) : Piece.marks { p with text := front ++ p.text } alone =
        p.marks alone := by
      unfold marks
      rw [hblanks]
    simp only [prepend, outline, List.append_assoc, hk, hm]

end Piece

end Mustache
