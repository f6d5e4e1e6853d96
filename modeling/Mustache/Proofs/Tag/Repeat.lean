import Mustache.Proofs.Expression.Grammar
import Mustache.Proofs.Tag.Local
import Mustache.Proofs.Template.PartialLine
import Mustache.Proofs.Text.Trim

/-!
# The close tag that repeats a tag

An open tag and its close tag are read by different rules. The text of a section or a block is read
as the expression that its close tag has to name, but the name of a parent is any text without
blanks, while the close tag takes parentheses for calls and allows a star only in front.

* `Target.Repeatable`: the names of parents that a close tag can repeat;
  **`Tag.closing?_name_iff`**;
* `Tag.Opens`: a text that opens a tag, which does so anywhere: `Tag.Opens.anywhere`;
* `Tag.read_closing`, **`Tag.Opens.repeats_iff`**: the close tag with the same text.
-/

namespace Mustache

/-! ## Names -/

/-- The names of parents that a close tag can repeat: without parentheses, and without a star
behind the first character of what the close tag has to repeat. -/
structure Target.Repeatable (t : Target) : Prop where
  no_opening : '(' ∉ t.closing.toList
  no_closing : ')' ∉ t.closing.toList
  no_star : '*' ∉ t.closing.toList.tail

namespace Tag

theorem expression?_name_iff {name : List Char} (hb : ∀ c ∈ name, Text.isBlank c = false) :
    expression? name = some (.plain (String.ofList name)) ↔
      '(' ∉ name ∧ ')' ∉ name ∧ '*' ∉ name := by
  constructor
  · intro h
    unfold expression? at h
    split_ifs at h with hstar
    have hcall := fun hp => Expression.transforms_of_parse? h hp rfl
    rw [List.contains_iff_mem] at hstar
    exact ⟨fun hm => hcall (.inl hm), fun hm => hcall (.inr hm), hstar⟩
  · rintro ⟨ho, hc, hs⟩
    have hparen : ¬ (name.any fun c => c == '(' || c == ')') = true := by
      rw [List.any_eq_true]
      rintro ⟨c, hm, h⟩
      rw [Bool.or_eq_true, beq_iff_eq, beq_iff_eq] at h
      obtain rfl | rfl := h
      · exact ho hm
      · exact hc hm
    have hblank : ¬ name.any Text.isBlank = true := by
      rw [List.any_eq_true]
      rintro ⟨c, hm, h⟩
      rw [hb c hm] at h
      nomatch h
    rw [expression?, if_neg (mt List.contains_iff_mem.mp hs), Expression.parse?, if_neg hparen,
      if_neg hblank]

/-- A text without a star is read alike in an open tag and in a close tag. -/
theorem closing?_of_expression? {text : List Char} {e : Expression}
    (h : expression? text = some e) : closing? text = some e := by
  unfold closing?
  split
  · unfold expression? at h
    rw [if_pos (by simp)] at h
    nomatch h
  · exact h

/-- The name behind the star of a dynamic parent. -/
theorem closing?_star {name : List Char} (hb : ∀ c ∈ name, Text.isBlank c = false) :
    closing? ('*' :: name) = some (.plain (String.ofList ('*' :: name))) ↔
      expression? name = some (.plain (String.ofList name)) := by
  have htrim : Text.trimStart name = name := by
    cases name with
    | nil => rfl
    | cons c name => exact Text.trimStart_cons (hb c (.head _)) name
  have hname : String.ofList (['*'] ++ name) = "*" ++ String.ofList name := String.ofList_append
  rw [closing?, htrim, ← List.singleton_append, hname, Option.map_eq_some_iff]
  constructor
  · rintro ⟨⟨n, transforms⟩, he, h⟩
    obtain ⟨hn, rfl⟩ := Expression.mk.inj h
    have hlist := congrArg String.toList hn
    rw [String.toList_append, String.toList_append] at hlist
    obtain rfl : n = String.ofList name := String.toList_injective (List.append_cancel_left hlist)
    exact he
  · intro he
    exact ⟨_, he, rfl⟩

/-- **The names that a close tag repeats.** -/
theorem closing?_name_iff {name : List Char} (hb : ∀ c ∈ name, Text.isBlank c = false) :
    closing? name = some (.plain (String.ofList name)) ↔
      '(' ∉ name ∧ ')' ∉ name ∧ '*' ∉ name.tail := by
  obtain ⟨rest, rfl⟩ | hhead := em (∃ rest, name = '*' :: rest)
  · rw [closing?_star fun c hc => hb c (.tail _ hc),
      expression?_name_iff fun c hc => hb c (.tail _ hc)]
    simp
  · have hclosing : closing? name = expression? name := by
      unfold closing?
      split
      · exact absurd ⟨_, rfl⟩ hhead
      · rfl
    rw [hclosing, expression?_name_iff hb]
    cases name with
    | nil => simp
    | cons c name =>
      have hc : ¬ '*' = c := fun e => hhead ⟨name, e ▸ rfl⟩
      simp [hc]

/-! ## Open tags -/

/-- The text `text` behind the character `kind` opens `o`: between the standard delimiters this is
an open tag, which ends where the text does. -/
def Opens (types : ContentTypes) (kind : Char) (text : List Char) (o : Opening) : Prop :=
  ∃ c, read types .standard 0 ⟨2, kind :: (text ++ ['}', '}'])⟩ = .ok (.opening o, c) ∧ c.rest = []

variable {types : ContentTypes} {kind : Char} {text : List Char} {o : Opening}

/-- A text that opens a tag does so wherever it stands. -/
theorem Opens.anywhere (h : Opens types kind text o) (start : Nat) {c : Cursor} {more : List Char}
    (hc : c.rest = kind :: (text ++ ['}', '}']) ++ more) :
    ∃ next, Tag.read types .standard start c = .ok (.opening o, next) ∧ next.rest = more := by
  obtain ⟨m, hread, hm⟩ := h
  obtain ⟨used, hused⟩ := reads_of_read hread
  have he : kind :: (text ++ ['}', '}']) = _ := hused.1
  rw [hm, List.append_nil] at he
  rw [← he] at hused
  exact ⟨_, read_local Delimiters.proper_standard.stop_ne_nil hread hused (Cursor.reads_past hc)
    start, rfl⟩

/-- The close tag with a text that ends where the source does. -/
theorem read_closing (types : ContentTypes) (hu : Text.Unmet ['}', '}'] text ['}', '}'])
    (start : Nat) {c : Cursor}
    (hc : c.rest = '/' :: (text ++ ['}', '}'])) :
    ∃ next, next.rest = [] ∧ read types .standard start c =
      match Tag.closing? (Text.trim text) with
      | none => .error ⟨.unfinishedName, c.tail.offset⟩
      | some e => .ok (.closing e, next) := by
  obtain ⟨offset, rest⟩ := c
  obtain rfl : rest = '/' :: (text ++ ['}', '}']) := hc
  have hcut : Text.cut? ['}', '}'] (text ++ ['}', '}']) = some (text, []) :=
    Text.cut?_eq_some.mpr ⟨rfl, hu⟩
  refine ⟨Cursor.past ⟨offset + Text.utf8Length ['/'], text ++ ['}', '}']⟩ (text ++ ['}', '}']) [],
    rfl, ?_⟩
  show (readText _ Tag.closing? ['}', '}'] ⟨_, text ++ ['}', '}']⟩).map _ = _
  rw [readText, Cursor.through?, hcut, Option.map_some]
  dsimp only
  cases Tag.closing? (Text.trim text) <;> rfl

/-- How the text of a tag is read. -/
theorem readText_eq_ok {α : Type} {place : Nat} {accept : List Char → Option α}
    {stop : List Char} {c next : Cursor} {a : α}
    (h : readText place accept stop c = .ok (a, next)) :
    ∃ text, accept (Text.trim text) = some a ∧ c.through? stop = some (text, next) := by
  unfold readText at h
  split at h
  · nomatch h
  · rename_i text n hn
    split at h
    · nomatch h
    · rename_i ha
      cases h
      exact ⟨text, ha, hn⟩

/-- A text that ends with the end delimiter, where the source does too. -/
theorem accept_of_readText {α : Type} {place : Nat} {accept : List Char → Option α}
    {stop : List Char} {c next : Cursor} {a : α} (hc : c.rest = text ++ stop)
    (h : readText place accept stop c = .ok (a, next)) (hn : next.rest = []) :
    accept (Text.trim text) = some a ∧ Text.Unmet stop text stop := by
  obtain ⟨found, ha, hthrough⟩ := readText_eq_ok h
  obtain ⟨hr, hu⟩ := Cursor.reads_through hthrough
  have hreads := hr.1
  rw [hc, hn, List.append_nil] at hreads
  obtain rfl := List.append_cancel_right hreads
  rw [hn, List.append_nil] at hu
  exact ⟨ha, hu⟩

theorem target_of_target? {dynamic : Bool} {target : Target}
    (h : target? dynamic text = some target) :
    target = ⟨String.ofList text, dynamic⟩ ∧ ∀ c ∈ text, Text.isBlank c = false := by
  unfold target? at h
  split_ifs at h with hb
  cases h
  rw [Bool.or_eq_true, not_or, List.any_eq_true] at hb
  refine ⟨rfl, fun c hc => Bool.eq_false_iff.mpr fun hblank => hb.2 ⟨c, hc, hblank⟩⟩

/-- The name of a parent, and what its text is to a close tag. -/
theorem closing?_of_readTarget {start : Nat} {c next : Cursor} {target : Target}
    (hc : c.rest = text ++ ['}', '}']) (h : readTarget ['}', '}'] start c = .ok (target, next))
    (hn : next.rest = []) :
    Text.Unmet ['}', '}'] text ['}', '}'] ∧
      closing? (Text.trim text) = closing? target.closing.toList ∧
      ∀ ch ∈ target.closing.toList, Text.isBlank ch = false := by
  unfold readTarget at h
  split at h
  · rename_i m hm
    have hreads := (Cursor.reads_after hm).1
    rw [hc] at hreads
    cases text with
    | nil => nomatch hreads
    | cons ch text =>
      obtain ⟨rfl, hrest⟩ := List.cons.inj hreads
      obtain ⟨ha, hu⟩ := accept_of_readText hrest.symm h hn
      obtain ⟨rfl, hblank⟩ := target_of_target? ha
      have hclosing : (Target.mk (String.ofList (Text.trim text)) true).closing.toList =
          '*' :: Text.trim text := by
        simp [Target.closing]
      have hstar : Text.trim ('*' :: text) = '*' :: Text.trimEnd text := by
        rw [Text.trim, Text.trimStart_cons rfl, Text.trimEnd_cons rfl]
      refine ⟨Text.unmet_cons.mpr ⟨by simp, hu⟩, ?_, ?_⟩
      · rw [hclosing, hstar, closing?, closing?, Text.trimStart_trim, Text.trimStart_trimEnd,
          Text.trim]
      · rw [hclosing]
        exact List.forall_mem_cons.mpr ⟨rfl, hblank⟩
  · obtain ⟨ha, hu⟩ := accept_of_readText hc h hn
    obtain ⟨rfl, hblank⟩ := target_of_target? ha
    have hclosing : (Target.mk (String.ofList (Text.trim text)) false).closing.toList =
        Text.trim text := by
      simp [Target.closing]
    rw [hclosing]
    exact ⟨hu, rfl, hblank⟩

/-- The text of a tag that opens: it does not hold the end delimiter, and to a close tag it is
the name of the parent, or what the close tag has to repeat. -/
theorem Opens.text_spec (h : Opens types kind text o) :
    Text.Unmet ['}', '}'] text ['}', '}'] ∧
      ((∃ target, o = .parent target ∧
          Tag.closing? (Text.trim text) = Tag.closing? target.closing.toList ∧
          ∀ ch ∈ target.closing.toList, Text.isBlank ch = false) ∨
        (∀ target, o ≠ .parent target) ∧ Tag.closing? (Text.trim text) = some o.closing) := by
  obtain ⟨c, h, hn⟩ := h
  have expression {place : Nat} {e : Expression} {m next : Cursor}
      (hm : m.rest = text ++ ['}', '}'])
      (h : readText place expression? ['}', '}'] m = .ok (e, next)) (hn : next.rest = []) :
      Text.Unmet ['}', '}'] text ['}', '}'] ∧ Tag.closing? (Text.trim text) = some e := by
    obtain ⟨ha, hu⟩ := accept_of_readText hm h hn
    exact ⟨hu, closing?_of_expression? ha⟩
  unfold read at h
  dsimp only at h
  split at h
  case h_3 =>
    unfold readBlock at h
    split at h
    · nomatch h
    · rename_i e next he
      split_ifs at h with ht
      cases h
      obtain ⟨hu, hclosing⟩ := expression rfl he hn
      refine ⟨hu, .inr ⟨nofun, ?_⟩⟩
      obtain ⟨name, transforms⟩ := e
      obtain rfl : transforms = [] := List.isEmpty_iff.mp ht
      exact hclosing
  case h_9 =>
    obtain ⟨⟨target, next⟩, ht, he⟩ := of_map h
    cases he
    obtain ⟨hu, hclosing⟩ := closing?_of_readTarget rfl ht hn
    exact ⟨hu, .inl ⟨target, rfl, hclosing⟩⟩
  case h_10 =>
    split at h <;> nomatch h
  case h_11 =>
    unfold readPragma at h
    split at h
    · nomatch h
    · split_ifs at h
      nomatch h
  all_goals
    obtain ⟨⟨e, next⟩, he, hf⟩ := of_map h
    cases hf
  all_goals
    obtain ⟨hu, hclosing⟩ := expression rfl he hn
    exact ⟨hu, .inr ⟨nofun, hclosing⟩⟩

/-- **The close tag with the same text** repeats the tag that the text opens, unless this is a
parent whose name it cannot hold. -/
theorem Opens.repeats_iff (h : Opens types kind text o) :
    Tag.closing? (Text.trim text) = some o.closing ↔
      ∀ target, o = .parent target → target.Repeatable := by
  obtain ⟨target, rfl, hclosing, hblank⟩ | ⟨hparent, hclosing⟩ := h.text_spec.2
  · have hname : (Opening.parent target).closing =
        .plain (String.ofList target.closing.toList) := by
      rw [String.ofList_toList]
      rfl
    rw [hclosing, hname, closing?_name_iff hblank]
    constructor
    · rintro ⟨ho, hc, hs⟩ t ht
      cases ht
      exact ⟨ho, hc, hs⟩
    · intro hr
      exact ⟨(hr target rfl).no_opening, (hr target rfl).no_closing, (hr target rfl).no_star⟩
  · exact iff_of_true hclosing fun target ht => absurd ht (hparent target)

end Tag

end Mustache
