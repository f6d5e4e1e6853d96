import Mustache.Proofs.Tag.Local

/-!
# Tags that are one text

Most tags are a sigil and a text up to a terminator. What they are depends on the text without the
blanks around it, and not on where it stands.

* `Tag.outcome`, `Tag.meet`: what is met behind a start delimiter, wherever this is;
  `Tag.outcome_read`, `Tag.meet_local`;
* `Sigil`, with `mark`, `terminator` and `tag?`: the tag of a trimmed text; `Sigil.Fits`: a text
  that does not make another sigil of it;
* **`Tag.meet_sigil`**.
-/

namespace Mustache

namespace Tag

/-- What is read, without its place: the tag and the text after it, or the cause of a fault. -/
def outcome : Except Fault (Tag × Cursor) → Except Cause (Tag × List Char)
  | .error fault => .error fault.cause
  | .ok (t, c) => .ok (t, c.rest)

/-- What is met behind a start delimiter. -/
def meet (types : ContentTypes) (d : Delimiters) (inner : List Char) :
    Except Cause (Tag × List Char) :=
  outcome (read types d 0 ⟨Text.utf8Length d.start.toList, inner⟩)

/-- **A tag is what is met**, wherever it stands. -/
theorem outcome_read (types : ContentTypes) (d : Delimiters) {tag inner : Cursor}
    (hi : tag.Reads d.start.toList inner) :
    outcome (read types d tag.offset inner) = meet types d inner.rest := by
  have hinner : inner =
      Cursor.shift tag.offset ⟨Text.utf8Length d.start.toList, inner.rest⟩ := by
    obtain ⟨offset, rest⟩ := inner
    exact congrArg (Cursor.mk · rest) hi.2
  have hread := read_shift tag.offset types d 0 ⟨Text.utf8Length d.start.toList, inner.rest⟩
  rw [← hinner, Nat.add_zero] at hread
  rw [hread, meet]
  cases read types d 0 ⟨Text.utf8Length d.start.toList, inner.rest⟩ <;> rfl

/-- The tag that is met is read. -/
theorem read_of_meet {types : ContentTypes} {d : Delimiters} {tag inner : Cursor} {t : Tag}
    {rest : List Char} (hi : tag.Reads d.start.toList inner)
    (hm : meet types d inner.rest = .ok (t, rest)) :
    ∃ c, read types d tag.offset inner = .ok (t, c) ∧ c.rest = rest := by
  rw [← outcome_read types d hi] at hm
  cases hread : read types d tag.offset inner with
  | error fault => rw [hread] at hm; cases hm
  | ok r => rw [hread] at hm; cases hm; exact ⟨r.2, rfl, rfl⟩

/-- The fault that is met is found. -/
theorem fault_of_meet {types : ContentTypes} {d : Delimiters} {tag inner : Cursor} {cause : Cause}
    (hi : tag.Reads d.start.toList inner) (hm : meet types d inner.rest = .error cause) :
    ∃ fault, read types d tag.offset inner = .error fault ∧ fault.cause = cause := by
  rw [← outcome_read types d hi] at hm
  cases hread : read types d tag.offset inner with
  | error fault => rw [hread] at hm; cases hm; exact ⟨fault, rfl, rfl⟩
  | ok r => rw [hread] at hm; cases hm

section

variable {types : ContentTypes} {d : Delimiters} {t : Tag} {inner used rest : List Char}

theorem ok_of_meet (hm : meet types d inner = .ok (t, rest)) :
    ∃ c, read types d 0 ⟨Text.utf8Length d.start.toList, inner⟩ = .ok (t, c) ∧ c.rest = rest := by
  unfold meet at hm
  cases hread : read types d 0 ⟨Text.utf8Length d.start.toList, inner⟩ with
  | error fault => rw [hread] at hm; cases hm
  | ok r => rw [hread] at hm; cases hm; exact ⟨r.2, rfl, rfl⟩

/-- A tag that is met ends with the end delimiter. -/
theorem used_of_meet (hm : meet types d inner = .ok (t, rest)) :
    ∃ used, inner = used ++ d.stop.toList ++ rest := by
  obtain ⟨c, hread, rfl⟩ := ok_of_meet hm
  obtain ⟨used, hused⟩ := reads_of_read hread
  exact ⟨used, hused.1⟩

/-- What is met does not depend on what comes behind it. -/
theorem meet_local (hd : d.stop.toList ≠ []) (hm : meet types d (used ++ rest) = .ok (t, rest))
    (more : List Char) : meet types d (used ++ more) = .ok (t, more) := by
  obtain ⟨c, hread, rfl⟩ := ok_of_meet hm
  obtain ⟨front, hfront⟩ := reads_of_read hread
  obtain rfl : used = front ++ d.stop.toList := List.append_cancel_right hfront.1
  have hmore : Cursor.Reads ⟨Text.utf8Length d.start.toList, (front ++ d.stop.toList) ++ more⟩
      (front ++ d.stop.toList) _ := Cursor.reads_past rfl
  rw [meet, read_local hd hread hfront hmore 0]
  rfl

theorem proper_of_meet {found : Delimiters}
    (hm : meet types d inner = .ok (.delimiters found, rest)) : found.Proper := by
  obtain ⟨c, hread, -⟩ := ok_of_meet hm
  exact Delimiters.proper_of_read hread

end

end Tag

/-! ## Sigils -/

/-- What tells the kind of a tag that is one text, with the star of a dynamic name. -/
inductive Sigil where
  | none
  | present
  | absent
  | block
  | close
  | brace
  | ampersand
  | exclamation
  | inclusion (dynamic : Bool)
  | parent (dynamic : Bool)
  deriving DecidableEq, Repr

namespace Sigil

/-- The characters of a sigil. -/
def mark : Sigil → List Char
  | none => []
  | present => ['#']
  | absent => ['^']
  | block => ['$']
  | close => ['/']
  | brace => ['{']
  | ampersand => ['&']
  | exclamation => ['!']
  | inclusion dynamic => if dynamic then ['>', '*'] else ['>']
  | parent dynamic => if dynamic then ['<', '*'] else ['<']

/-- What ends the tag. -/
def terminator (d : Delimiters) : Sigil → List Char
  | brace => d.verbatimEnd
  | _ => d.stop.toList

theorem terminator_eq (d : Delimiters) {k : Sigil} (hk : k ≠ brace) :
    k.terminator d = d.stop.toList := by
  cases k with
  | brace => exact absurd rfl hk
  | none | present | absent | block | close | ampersand | exclamation | inclusion | parent => rfl

/-- A tag, if its text is accepted. -/
def accepted (t : Option Tag) : Except Cause Tag :=
  match t with
  | some t => .ok t
  | .none => .error .unfinishedName

/-- The tag of a text without blanks around it. -/
def tag? : Sigil → List Char → Except Cause Tag
  | none, text => accepted ((Tag.expression? text).map (.interpolation false))
  | present, text => accepted ((Tag.expression? text).map fun e => .opening (.present e))
  | absent, text => accepted ((Tag.expression? text).map fun e => .opening (.absent e))
  | block, text =>
    match Tag.expression? text with
    | .none => .error .unfinishedName
    | some e =>
      if e.transforms.isEmpty then .ok (.opening (.block e.name)) else .error .transformedBlock
  | close, text => accepted ((Tag.closing? text).map .closing)
  | brace, text => accepted ((Tag.expression? text).map (.interpolation true))
  | ampersand, text => accepted ((Tag.expression? text).map (.interpolation true))
  | exclamation, _ => .ok .comment
  | inclusion dynamic, text => accepted ((Tag.target? dynamic text).map .inclusion)
  | parent dynamic, text => accepted ((Tag.target? dynamic text).map fun t => .opening (.parent t))

/-- The characters that start a tag of another kind. -/
def marks : List Char := ['#', '^', '$', '/', '{', '&', '!', '>', '<', '=', '%']

/-- What follows the sigil does not make another sigil of it. -/
def Fits : Sigil → List Char → Prop
  | none, inner => ∀ c ∈ inner.head?, c ∉ marks
  | inclusion false, inner | parent false, inner => inner.head? ≠ some '*'
  | _, _ => True

/-- Only the first character counts, and most do not make another sigil. -/
theorem Fits.of_head {k : Sigil} {inner other : List Char} (h : k.Fits inner)
    (ho : other.head? = inner.head? ∨ ∃ c ∈ other.head?, c ∉ marks ∧ c ≠ '*') : k.Fits other := by
  have hstar (hi : inner.head? ≠ some '*') : other.head? ≠ some '*' := by
    obtain he | ⟨c, hc, -, hne⟩ := ho
    · rwa [he]
    · rw [Option.mem_def.mp hc]
      exact fun e => hne (Option.some.inj e)
  cases k with
  | none =>
    obtain he | ⟨c, hc, hm, -⟩ := ho
    · exact fun x hx => h x (he ▸ hx)
    · exact fun x hx => Option.mem_unique hc hx ▸ hm
  | inclusion dynamic | parent dynamic =>
    cases dynamic with
    | true => exact h
    | false => exact hstar h
  | present | absent | block | close | brace | ampersand | exclamation => exact h

end Sigil

namespace Tag

/-- The outcome of reading a text. -/
theorem outcome_readText {α : Type} (f : α → Tag) (place : Nat) (accept : List Char → Option α)
    (stop : List Char) (c : Cursor) :
    outcome ((readText place accept stop c).map fun (a, c) => (f a, c)) =
      match Text.cut? stop c.rest with
      | .none => .error .unfinishedName
      | some (text, rest) =>
        (Sigil.accepted ((accept (Text.trim text)).map f)).map fun t => (t, rest) := by
  unfold readText Cursor.through?
  cases Text.cut? stop c.rest with
  | none => rfl
  | some r =>
    dsimp only [Option.map_some]
    cases accept (Text.trim r.1) <;> rfl

/-- The outcome of reading the name of a template. -/
theorem outcome_readTarget (f : Target → Tag) (dynamic : Bool) (stop : List Char) (start : Nat)
    {c : Cursor} {inner : List Char} (hc : c.rest = (if dynamic then ['*'] else []) ++ inner)
    (hi : dynamic = false → inner.head? ≠ some '*') :
    outcome ((readTarget stop start c).map fun (a, c) => (f a, c)) =
      match Text.cut? stop inner with
      | .none => .error .unfinishedName
      | some (text, rest) =>
        (Sigil.accepted ((target? dynamic (Text.trim text)).map f)).map fun t => (t, rest) := by
  obtain ⟨offset, rest⟩ := c
  obtain rfl : rest = _ := hc
  cases dynamic with
  | true => exact outcome_readText f start (target? true) stop ⟨_, inner⟩
  | false =>
    have hstar : Cursor.after? ['*'] ⟨offset, inner⟩ = none := by
      unfold Cursor.after?
      cases inner with
      | nil => rfl
      | cons ch inner =>
        have hne : ¬ '*' = ch := fun e => hi rfl (by rw [e]; rfl)
        simp [Text.after?, hne]
    rw [readTarget]
    simp only [Bool.false_eq_true, if_false, List.nil_append, hstar]
    exact outcome_readText f start (target? false) stop ⟨offset, inner⟩

/-- **A tag that is one text** is that of the text up to the first terminator. -/
theorem meet_sigil (types : ContentTypes) (d : Delimiters) (k : Sigil) {inner : List Char}
    (hf : k.Fits inner) :
    meet types d (k.mark ++ inner) =
      match Text.cut? (k.terminator d) inner with
      | .none => .error .unfinishedName
      | some (text, rest) => (k.tag? (Text.trim text)).map fun t => (t, rest) := by
  unfold meet
  cases k with
  | none =>
    unfold read
    dsimp only [Sigil.mark, List.nil_append]
    split
    case h_12 => exact outcome_readText (.interpolation false) _ expression? _ ⟨_, inner⟩
    all_goals
      rename_i hc
      exact absurd (hf _ hc) (by decide)
  | present => exact outcome_readText (fun e => .opening (.present e)) _ expression? _ ⟨_, inner⟩
  | absent => exact outcome_readText (fun e => .opening (.absent e)) _ expression? _ ⟨_, inner⟩
  | close => exact outcome_readText .closing _ closing? _ ⟨_, inner⟩
  | brace => exact outcome_readText (.interpolation true) _ expression? _ ⟨_, inner⟩
  | ampersand => exact outcome_readText (.interpolation true) _ expression? _ ⟨_, inner⟩
  | exclamation => exact outcome_readText (fun _ => .comment) _ (fun _ => some ()) _ ⟨_, inner⟩
  | block =>
    show outcome (readBlock d.stop.toList 0 ⟨_, inner⟩) = _
    unfold readBlock readText Cursor.through?
    dsimp only [Sigil.terminator]
    cases Text.cut? d.stop.toList inner with
    | none => rfl
    | some r =>
      dsimp only [Option.map_some, Sigil.tag?]
      cases expression? (Text.trim r.1) with
      | none => rfl
      | some e =>
        dsimp only
        split_ifs <;> rfl
  | inclusion dynamic =>
    have hi : dynamic = false → inner.head? ≠ some '*' := by rintro rfl; exact hf
    cases dynamic with
    | true => exact outcome_readTarget .inclusion true _ 0 (c := ⟨_, '*' :: inner⟩) rfl hi
    | false => exact outcome_readTarget .inclusion false _ 0 (c := ⟨_, inner⟩) rfl hi
  | parent dynamic =>
    have hi : dynamic = false → inner.head? ≠ some '*' := by rintro rfl; exact hf
    cases dynamic with
    | true =>
      exact outcome_readTarget (fun t => .opening (.parent t)) true _ 0
        (c := ⟨_, '*' :: inner⟩) rfl hi
    | false =>
      exact outcome_readTarget (fun t => .opening (.parent t)) false _ 0
        (c := ⟨_, inner⟩) rfl hi

end Tag

end Mustache
