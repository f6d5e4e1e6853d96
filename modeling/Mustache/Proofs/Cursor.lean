import Mustache.Proofs.Text.Search
import Mustache.Tag

/-!
# What a cursor moves over

Each move of a cursor takes a part off the front of the text and adds its bytes to the offset.

* `Cursor.Reads c used next`: the cursor moves from `c` over `used` to `next`; `Cursor.stop`: the
  end of the text, which stays where it is; `Cursor.extend`: the cursor with more text behind it;
* one law for each move: `reads_tail`, `reads_take`, `reads_after`, `reads_through`, `reads_upTo`,
  `reads_line`, `reads_lineEnd`;
* **`Tag.reads_of_read`**: a tag that is read ends with the end delimiter; `Tag.setting_of_read`:
  what is checked of delimiters and pragmas.
-/

namespace Mustache

namespace Cursor

/-- The cursor `next` is that after the part `used` of what is left at `c`. -/
def Reads (c : Cursor) (used : List Char) (next : Cursor) : Prop :=
  c.rest = used ++ next.rest ∧ next.offset = c.offset + Text.utf8Length used

variable {c m next : Cursor} {used more : List Char}

theorem Reads.trans (h : c.Reads used m) (h' : m.Reads more next) :
    c.Reads (used ++ more) next := by
  refine ⟨by rw [h.1, h'.1, List.append_assoc], ?_⟩
  rw [h'.2, h.2, Text.utf8Length_append, Nat.add_assoc]

/-- After a front part the move goes on over the rest. -/
theorem Reads.rest (h : c.Reads (used ++ more) next) (hf : c.Reads used m) :
    m.Reads more next := by
  have hr : used ++ m.rest = used ++ (more ++ next.rest) := by
    rw [← hf.1, h.1, List.append_assoc]
  refine ⟨List.append_cancel_left hr, ?_⟩
  rw [h.2, hf.2, Text.utf8Length_append, Nat.add_assoc]

/-- What the cursor moves over is all that comes before the rest. -/
theorem Reads.of_rest (h : c.Reads used next) (hr : c.rest = more ++ next.rest) :
    c.Reads more next := by
  rwa [List.append_cancel_right (hr.symm.trans h.1)]

theorem Reads.eq_past (h : c.Reads used next) : next = c.past used next.rest := by
  cases next; rw [past, ← h.2]

theorem reads_past {rest : List Char} (h : c.rest = used ++ rest) :
    c.Reads used (c.past used rest) :=
  ⟨h, rfl⟩

theorem Reads.length (h : c.Reads used next) : c.rest.length = used.length + next.rest.length := by
  rw [h.1, List.length_append]

theorem Reads.take (h : c.Reads used next) :
    c.rest.take (c.rest.length - next.rest.length) = used := by
  rw [h.length, Nat.add_sub_cancel, h.1, List.take_left]

/-- The offset of the end of the text. -/
def stop (c : Cursor) : Nat := c.offset + Text.utf8Length c.rest

theorem Reads.stop (h : c.Reads used next) : next.stop = c.stop := by
  rw [Cursor.stop, Cursor.stop, h.2, h.1, Text.utf8Length_append, Nat.add_assoc]

/-! ## More text -/

/-- The cursor with more text behind it. -/
def extend (more : List Char) (c : Cursor) : Cursor := ⟨c.offset, c.rest ++ more⟩

@[simp] theorem extend_offset (more : List Char) (c : Cursor) :
    (c.extend more).offset = c.offset := rfl

@[simp] theorem extend_rest (more : List Char) (c : Cursor) :
    (c.extend more).rest = c.rest ++ more := rfl

theorem Reads.extend (h : c.Reads used next) (more : List Char) :
    (c.extend more).Reads used (next.extend more) :=
  ⟨by rw [extend_rest, h.1, List.append_assoc, extend_rest], h.2⟩

theorem Reads.of_extend (h : (c.extend more).Reads used (next.extend more)) :
    c.Reads used next := by
  have hrest : c.rest ++ more = used ++ next.rest ++ more := by
    rw [List.append_assoc]
    exact h.1
  exact ⟨List.append_cancel_right hrest, h.2⟩

theorem extend_past (front rest : List Char) :
    (c.extend more).past front (rest ++ more) = (c.past front rest).extend more := rfl

/-! ## Moves -/

theorem reads_tail {ch : Char} (h : c.rest.head? = some ch) : c.Reads [ch] c.tail := by
  obtain ⟨o, rest⟩ := c
  cases rest with
  | nil => cases h
  | cons x rest => cases h; exact ⟨rfl, rfl⟩

theorem reads_lineFeed {rest : List Char} (h : c.rest = '\n' :: rest) : c.Reads ['\n'] c.tail :=
  reads_tail (by rw [h]; rfl)

theorem reads_take (p : Char → Bool) (c : Cursor) : c.Reads (c.take p).1 (c.take p).2 :=
  reads_past List.takeWhile_append_dropWhile.symm

theorem reads_skip (p : Char → Bool) (c : Cursor) : c.Reads (c.take p).1 (c.skip p) :=
  reads_take p c

theorem reads_after {mark : List Char} (h : c.after? mark = some next) : c.Reads mark next := by
  obtain ⟨rest, hr, rfl⟩ := Option.map_eq_some_iff.mp h
  exact reads_past (Text.after?_eq_some.mp hr)

theorem reads_through {mark front : List Char} (h : c.through? mark = some (front, next)) :
    c.Reads (front ++ mark) next ∧ Text.Unmet mark front (mark ++ next.rest) := by
  obtain ⟨⟨f, r⟩, hr, e⟩ := Option.map_eq_some_iff.mp h
  cases e
  obtain ⟨ht, hf⟩ := Text.cut?_eq_some.mp hr
  exact ⟨reads_past (by rw [ht, List.append_assoc]), hf⟩

theorem reads_upTo {p : Char → Bool} {text : List Char} (h : c.upTo? p = some (text, next)) :
    c.Reads text next := by
  simp only [upTo?] at h
  split_ifs at h
  cases h
  exact reads_take _ c

theorem reads_line (mark : List Char) (c : Cursor) : c.Reads (c.line mark).1 (c.line mark).2 :=
  reads_past (splitLine_spec mark c.rest).1.symm

/-- **The end of a line**: spaces and tabs, and a line feed, or the end of the text. -/
theorem reads_lineEnd (h : c.lineEnd? = some next) :
    ∃ blanks stop, c.Reads (blanks ++ stop) next ∧ (∀ ch ∈ blanks, Text.isInlineBlank ch = true) ∧
      (stop = [] ∧ next.rest = [] ∨ stop = ['\n'] ∨ stop = ['\r', '\n']) := by
  have hs := reads_skip Text.isInlineBlank c
  have hb : ∀ ch ∈ (c.take Text.isInlineBlank).1, Text.isInlineBlank ch = true :=
    fun ch hc => List.mem_takeWhile_imp hc
  simp only [lineEnd?] at h
  split at h
  · rename_i hr
    cases h
    exact ⟨_, [], by simpa using hs, hb, .inl ⟨rfl, hr⟩⟩
  · rename_i rest hr
    cases h
    exact ⟨_, ['\n'], hs.trans (reads_past hr), hb, .inr (.inl rfl)⟩
  · rename_i rest hr
    cases h
    exact ⟨_, ['\r', '\n'], hs.trans (reads_past hr), hb, .inr (.inr rfl)⟩
  · cases h

section

variable {rest : List Char} {ch : Char}

theorem lineEnd?_nil (h : (c.skip Text.isInlineBlank).rest = []) :
    c.lineEnd? = some (c.skip Text.isInlineBlank) := by
  unfold lineEnd?
  dsimp only
  rw [h]

theorem lineEnd?_lineFeed (h : (c.skip Text.isInlineBlank).rest = '\n' :: rest) :
    c.lineEnd? = some ((c.skip Text.isInlineBlank).past ['\n'] rest) := by
  unfold lineEnd?
  dsimp only
  rw [h]
  rfl

theorem lineEnd?_return (h : (c.skip Text.isInlineBlank).rest = '\r' :: '\n' :: rest) :
    c.lineEnd? = some ((c.skip Text.isInlineBlank).past ['\r', '\n'] rest) := by
  unfold lineEnd?
  dsimp only
  rw [h]
  rfl

/-- Something else than a line end comes after the blanks. -/
theorem lineEnd?_eq_none (h : (c.skip Text.isInlineBlank).rest = ch :: rest) (hn : ch ≠ '\n')
    (hr : ch = '\r' → ∀ more, rest ≠ '\n' :: more) : c.lineEnd? = none := by
  unfold lineEnd?
  dsimp only
  rw [h]
  split
  · rename_i he
    nomatch he
  · rename_i he
    exact absurd (List.cons.inj he).1 hn
  · rename_i he
    exact absurd (List.cons.inj he).2 (hr (List.cons.inj he).1 _)
  · rfl

end

end Cursor

/-! ## Tags -/

namespace Tag

open Cursor

variable {types : ContentTypes} {d : Delimiters} {stop : List Char} {start place : Nat}
  {c next : Cursor}

/-- The tag text that ends at the literal `stop`. -/
def Ends (stop : List Char) (c next : Cursor) : Prop := ∃ used, c.Reads (used ++ stop) next

theorem Ends.of_reads {m : Cursor} {used : List Char} (h : c.Reads used m) (h' : Ends stop m next) :
    Ends stop c next := by
  obtain ⟨more, hm⟩ := h'
  exact ⟨used ++ more, by rw [List.append_assoc]; exact h.trans hm⟩

theorem ends_after (h : c.after? stop = some next) : Ends stop c next := ⟨[], reads_after h⟩

theorem ends_readText {α : Type} {accept : List Char → Option α} {a : α}
    (h : readText place accept stop c = .ok (a, next)) : Ends stop c next := by
  unfold readText at h
  split at h
  · cases h
  · rename_i text n hn
    split at h <;> cases h
    exact ⟨text, (reads_through hn).1⟩

theorem ends_delimiters {found : Delimiters} (h : delimiters? stop c = some (found, next)) :
    Ends stop c next := by
  simp only [delimiters?, Option.bind_eq_bind, Option.bind_eq_some_iff] at h
  obtain ⟨⟨_, c₁⟩, h₁, ⟨_, c₂⟩, h₂, c₃, h₃, c₄, h₄, h⟩ := h
  split_ifs at h
  cases h
  exact ((reads_skip _ c).trans (reads_upTo h₁) |>.trans (reads_skip _ c₁) |>.trans
    (reads_upTo h₂) |>.trans (reads_skip _ c₂) |>.trans (reads_after h₃)) |>
    fun hr => .of_reads hr (ends_after h₄)

theorem ends_setting {name value : List Char} (h : setting? stop c = some (name, value, next)) :
    Ends stop c next := by
  simp only [setting?, Option.bind_eq_bind] at h
  split_ifs at h
  obtain ⟨c₁, h₁, h⟩ := Option.bind_eq_some_iff.mp h
  split_ifs at h
  obtain ⟨c₂, h₂, h⟩ := Option.bind_eq_some_iff.mp h
  cases h
  exact .of_reads ((reads_skip _ c).trans (reads_take _ _) |>.trans (reads_skip _ _) |>.trans
    (reads_after h₁) |>.trans (reads_skip _ _) |>.trans (reads_take _ _) |>.trans (reads_skip _ _))
    (ends_after h₂)

theorem ends_readTarget {target : Target} (h : readTarget stop start c = .ok (target, next)) :
    Ends stop c next := by
  unfold readTarget at h
  split at h
  · rename_i c₁ h₁
    exact .of_reads (reads_after h₁) (ends_readText h)
  · exact ends_readText h

theorem ends_readBlock {t : Tag} (h : readBlock stop start c = .ok (t, next)) :
    Ends stop c next := by
  unfold readBlock at h
  split at h
  · cases h
  · rename_i expr n hn
    split_ifs at h
    cases h
    exact ends_readText hn

theorem ends_readPragma {t : Tag} (h : readPragma types stop start c = .ok (t, next)) :
    Ends stop c next := by
  unfold readPragma at h
  split at h
  · cases h
  · rename_i hn
    split_ifs at h
    cases h
    exact ends_setting hn

theorem of_map {α : Type} {f : α × Cursor → Tag × Cursor} {r : Except Fault (α × Cursor)} {t : Tag}
    (h : r.map f = .ok (t, next)) : ∃ a, r = .ok a ∧ f a = (t, next) := by
  cases r with
  | error e => cases h
  | ok a => exact ⟨a, rfl, Except.ok.inj h⟩

/-- **A tag that is read ends with the end delimiter.** -/
theorem reads_of_read {t : Tag} (h : read types d start c = .ok (t, next)) :
    Ends d.stop.toList c next := by
  unfold read at h
  simp only at h
  split at h
  case h_5 hc =>
    obtain ⟨⟨e, n⟩, hn, he⟩ := of_map h
    cases he
    obtain ⟨used, hu⟩ := ends_readText hn
    exact .of_reads (reads_tail hc) ⟨used ++ ['}'], by simpa [Delimiters.verbatimEnd] using hu⟩
  case h_3 hc => exact .of_reads (reads_tail hc) (ends_readBlock h)
  case h_10 hc =>
    split at h
    · cases h
    · rename_i hn
      cases h
      exact .of_reads (reads_tail hc) (ends_delimiters hn)
  case h_11 hc => exact .of_reads (reads_tail hc) (ends_readPragma h)
  all_goals
    obtain ⟨⟨e, n⟩, hn, he⟩ := of_map h
    cases he
  case h_8 hc | h_9 hc => exact .of_reads (reads_tail hc) (ends_readTarget hn)
  case h_12 => exact ends_readText hn
  all_goals
    rename_i hc
    exact .of_reads (reads_tail hc) (ends_readText hn)

/-- Delimiters in a tag have been read as such, and a pragma names a content type. -/
theorem setting_of_read {t : Tag} (h : read types d start c = .ok (t, next)) :
    (∀ found, t = .delimiters found → delimiters? d.stop.toList c.tail = some (found, next)) ∧
      ∀ id, t = .pragma id → types.contains id = true := by
  unfold read at h
  simp only at h
  split at h
  case h_3 =>
    unfold readBlock at h
    split at h
    · cases h
    · split_ifs at h
      cases h
      exact ⟨nofun, nofun⟩
  case h_10 =>
    split at h
    · cases h
    · rename_i hd
      cases h
      exact ⟨fun _ e => by cases e; exact hd, nofun⟩
  case h_11 =>
    unfold readPragma at h
    split at h
    · cases h
    · split_ifs at h with hc
      cases h
      exact ⟨nofun, fun _ e => by cases e; exact (Bool.and_eq_true_iff.mp hc).2⟩
  all_goals
    obtain ⟨a, -, ha⟩ := of_map h
    cases ha
    exact ⟨nofun, nofun⟩

end Tag

end Mustache
