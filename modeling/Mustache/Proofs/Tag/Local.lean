import Mustache.Proofs.Delimiters

/-!
# A tag reads the same wherever it stands

Reading a tag looks at nothing behind its end delimiter, and offsets serve to report faults only.

* `Cursor.take_replay`, `upTo_replay`, `through_replay`: a move over a part of a text can be made in
  every text that goes on with this part;
* **`Tag.read_local`**: a tag that is read from a text is read from every text that starts with the
  same characters;
* `Cursor.shift`, `Fault.shift`, **`Tag.read_shift`**: a tag further back in a source, with its
  faults.
-/

namespace Mustache

namespace Text

variable {mark front rest more : List Char}

/-- Whether a literal starts before an occurrence of it does not depend on what follows. -/
theorem Unmet.before_mark (h : Unmet mark front (mark ++ rest)) (other : List Char) :
    Unmet mark front (mark ++ other) := by
  intro a b e hb hp
  have hmark : mark <+: b ++ mark := by
    refine List.prefix_of_prefix_length_le hp ⟨other, List.append_assoc b mark other⟩ ?_
    simp
  exact h a b e hb (hmark.trans ⟨rest, List.append_assoc b mark rest⟩)

/-- A literal that does not start in a text does not start there if the text is cut short. -/
theorem Unmet.of_append (h : Unmet mark front (rest ++ more)) : Unmet mark front rest := by
  intro a b e hb hp
  exact h a b e hb (hp.trans ⟨more, List.append_assoc b rest more⟩)

end Text

namespace Cursor

variable {c c' m next next' : Cursor} {used used' front more : List Char}

theorem Reads.cancel (h : c.Reads used next) (h' : c.Reads used' next) : used = used' :=
  List.append_cancel_right (h.1.symm.trans h'.1)

theorem reads_nil (h : c.Reads [] next) : c = next := by
  have he := h.eq_past
  rw [he, past, Text.utf8Length, Nat.add_zero, ← List.nil_append next.rest, ← h.1]

theorem Reads.past (h : c.Reads (front ++ more) next) :
    c.Reads front (c.past front (more ++ next.rest)) :=
  reads_past (by rw [h.1, List.append_assoc])

/-! ## Moves made again -/

theorem tail_replay {ch : Char} (h : c.Reads (ch :: more) next) :
    c.rest.head? = some ch ∧ c.tail.Reads more next := by
  have hc : c.rest.head? = some ch := by rw [h.1]; rfl
  have hall : c.Reads ([ch] ++ more) next := h
  exact ⟨hc, hall.rest (reads_tail hc)⟩

theorem after_replay {mark : List Char} (h : c.Reads (mark ++ more) next) :
    ∃ m, c.after? mark = some m ∧ m.Reads more next := by
  have hc : c.after? mark = some (c.past mark (more ++ next.rest)) := by
    rw [after?, h.1, List.append_assoc, Text.after?_append, Option.map_some]
  exact ⟨_, hc, h.rest h.past⟩

theorem after_replay_end {mark : List Char} (h : c.Reads mark next) :
    c.after? mark = some next := by
  obtain ⟨m, hm, hr⟩ := after_replay (by rwa [← List.append_nil mark] at h)
  rw [hm, reads_nil hr]

/-- A run of a class that ends before the end of the part. -/
theorem take_replay {p : Char → Bool} (h : (c.take p).2.Reads more next) (hm : more ≠ [])
    (h' : c'.Reads ((c.take p).1 ++ more) next') :
    (c'.take p).1 = (c.take p).1 ∧ (c'.take p).2.Reads more next' := by
  obtain ⟨x, rest, rfl⟩ := List.exists_cons_of_ne_nil hm
  have hx : p x = false := by
    have hd := List.head?_dropWhile_not p c.rest
    have hr : c.rest.dropWhile p = x :: rest ++ next.rest := h.1
    rw [hr] at hd
    simpa using hd
  have hrun : ∀ ch ∈ (c.take p).1, p ch = true := fun ch hc => List.mem_takeWhile_imp hc
  have htake : (c'.take p).1 = (c.take p).1 := by
    show c'.rest.takeWhile p = _
    rw [h'.1, List.append_assoc, List.takeWhile_append_of_pos hrun, List.cons_append,
      List.takeWhile_cons_of_neg (by simp [hx]), List.append_nil]
  have hread := reads_take p c'
  rw [htake] at hread
  exact ⟨htake, h'.rest hread⟩

theorem skip_replay {p : Char → Bool} (h : (c.skip p).Reads more next) (hm : more ≠ [])
    (h' : c'.Reads ((c.take p).1 ++ more) next') : (c'.skip p).Reads more next' :=
  (take_replay h hm h').2

theorem upTo_replay {p : Char → Bool} {text : List Char} (h : c.upTo? p = some (text, m))
    (hm : m.Reads more next) (hne : more ≠ []) (h' : c'.Reads (text ++ more) next') :
    ∃ m', c'.upTo? p = some (text, m') ∧ m'.Reads more next' := by
  simp only [upTo?] at h
  split_ifs at h
  cases h
  obtain ⟨htake, hread⟩ := take_replay hm hne h'
  refine ⟨(c'.take fun ch => !p ch).2, ?_, hread⟩
  have hrest : (c'.take fun ch => !p ch).2.rest.isEmpty = false := by
    rw [hread.1, List.isEmpty_eq_false_iff]
    exact List.append_ne_nil_of_left_ne_nil hne _
  simp only [upTo?, hrest, Bool.false_eq_true, if_false, htake]

theorem through_replay {mark text : List Char} (h : c.through? mark = some (text, m))
    (h' : c'.Reads (text ++ mark ++ more) next') :
    ∃ m', c'.through? mark = some (text, m') ∧ m'.Reads more next' := by
  have hu := (reads_through h).2.before_mark (more ++ next'.rest)
  have hcut : Text.cut? mark c'.rest = some (text, more ++ next'.rest) := by
    rw [Text.cut?_eq_some]
    refine ⟨?_, hu⟩
    rw [h'.1]
    simp only [List.append_assoc]
  refine ⟨c'.past (text ++ mark) (more ++ next'.rest), ?_, h'.rest h'.past⟩
  rw [through?, hcut, Option.map_some]

/-! ## Cursors further back -/

/-- The cursor in the same text `k` bytes further back in the source. -/
def shift (k : Nat) (c : Cursor) : Cursor := ⟨k + c.offset, c.rest⟩

variable (k : Nat) (c : Cursor)

@[simp] theorem shift_offset : (c.shift k).offset = k + c.offset := rfl
@[simp] theorem shift_rest : (c.shift k).rest = c.rest := rfl

@[simp] theorem shift_past (front rest : List Char) :
    (c.shift k).past front rest = (c.past front rest).shift k := by
  rw [past, past, shift, shift, Nat.add_assoc]

@[simp] theorem shift_tail : (c.shift k).tail = c.tail.shift k := by
  unfold tail
  rw [shift_rest]
  split
  · rfl
  · rw [shift_past]

@[simp] theorem shift_take (p : Char → Bool) :
    (c.shift k).take p = ((c.take p).1, (c.take p).2.shift k) := by
  rw [take, take, shift_past, shift_rest]

@[simp] theorem shift_skip (p : Char → Bool) : (c.shift k).skip p = (c.skip p).shift k := by
  rw [skip, skip, shift_take]

@[simp] theorem shift_after (mark : List Char) :
    (c.shift k).after? mark = (c.after? mark).map (shift k) := by
  unfold after?
  rw [shift_rest, Option.map_map]
  exact Option.map_congr fun rest _ => shift_past k c mark rest

@[simp] theorem shift_through (mark : List Char) :
    (c.shift k).through? mark = (c.through? mark).map fun (text, m) => (text, m.shift k) := by
  unfold through?
  rw [shift_rest, Option.map_map]
  exact Option.map_congr fun r _ => Prod.ext rfl (shift_past k c _ r.2)

@[simp] theorem shift_upTo (p : Char → Bool) :
    (c.shift k).upTo? p = (c.upTo? p).map fun (text, m) => (text, m.shift k) := by
  simp only [upTo?, shift_take, shift_rest]
  split_ifs <;> rfl

end Cursor

/-- The fault `k` bytes further back in the source. -/
def Fault.shift (k : Nat) (f : Fault) : Fault := ⟨f.cause, k + f.offset⟩

namespace Tag

open Cursor

variable {types : ContentTypes} {d : Delimiters} {stop used : List Char} {start place : Nat}
  {c c' next next' : Cursor}

/-! ## Tags in other texts -/

theorem ne_nil_of_ends (hs : stop ≠ []) (h : Ends stop c next) (hu : c.Reads used next) :
    used ≠ [] := by
  obtain ⟨front, hf⟩ := h
  rw [hu.cancel hf]
  exact List.append_ne_nil_of_right_ne_nil _ hs

theorem readText_local {α : Type} {accept : List Char → Option α} {a : α}
    (h : readText place accept stop c = .ok (a, next)) (hu : c.Reads used next)
    (hu' : c'.Reads used next') (place' : Nat) :
    readText place' accept stop c' = .ok (a, next') := by
  unfold readText at h
  split at h
  · cases h
  · rename_i text m hm
    split at h <;> cases h
    rename_i ha
    rw [hu.cancel (reads_through hm).1] at hu'
    rw [← List.append_nil (text ++ stop)] at hu'
    obtain ⟨m', hm', hr⟩ := through_replay hm hu'
    rw [readText, hm']
    dsimp only
    rw [ha, reads_nil hr]

theorem readTarget_local {target : Target} (hs : stop ≠ [])
    (h : readTarget stop start c = .ok (target, next)) (hu : c.Reads used next)
    (hu' : c'.Reads used next') (start' : Nat) :
    readTarget stop start' c' = .ok (target, next') := by
  obtain ⟨ch, more, rfl⟩ := List.exists_cons_of_ne_nil (ne_nil_of_ends hs (ends_readTarget h) hu)
  by_cases hstar : ch = '*'
  · subst hstar
    rw [← List.singleton_append] at hu hu'
    obtain ⟨m, hm, hr⟩ := after_replay hu
    obtain ⟨m', hm', hr'⟩ := after_replay hu'
    rw [readTarget, hm] at h
    rw [readTarget, hm']
    exact readText_local h hr hr' start'
  · have hnone {e : Cursor} {n : Cursor} (he : e.Reads (ch :: more) n) : e.after? ['*'] = none := by
      rw [after?, he.1]
      simp [Text.after?, Ne.symm hstar]
    rw [readTarget, hnone hu] at h
    rw [readTarget, hnone hu']
    exact readText_local h hu hu' start'

theorem readBlock_local {t : Tag} (h : readBlock stop start c = .ok (t, next))
    (hu : c.Reads used next) (hu' : c'.Reads used next') (start' : Nat) :
    readBlock stop start' c' = .ok (t, next') := by
  unfold readBlock at h
  split at h
  · cases h
  · rename_i expr n hn
    split_ifs at h with he
    cases h
    rw [readBlock, readText_local hn hu hu' c'.offset]
    dsimp only
    rw [if_pos he]

theorem delimiters_local {found : Delimiters} (h : delimiters? stop c = some (found, next))
    (hu : c.Reads used next) (hu' : c'.Reads used next') :
    delimiters? stop c' = some (found, next') := by
  simp only [delimiters?, Option.bind_eq_bind, Option.bind_eq_some_iff] at h
  obtain ⟨⟨first, c₁⟩, h₁, ⟨close, c₂⟩, h₂, c₃, h₃, c₄, h₄, h⟩ := h
  split_ifs at h with hne
  cases h
  -- The part of the tag that is left after each move is not empty, since its end is left.
  have r₄ : c₃.Reads stop next := reads_after h₄
  have r₃ : (c₂.skip Text.isBlank).Reads (['='] ++ stop) next := (reads_after h₃).trans r₄
  have r₂ := (reads_skip Text.isBlank c₂).trans r₃
  have n₂ : (c₂.take Text.isBlank).1 ++ (['='] ++ stop) ≠ [] := by simp
  have r₁ := (reads_skip Text.isBlank c₁).trans ((reads_upTo h₂).trans r₂)
  have n₁ : (c₁.take Text.isBlank).1 ++ (close ++ ((c₂.take Text.isBlank).1 ++ (['='] ++ stop))) ≠
      [] := by simp
  have r₀ := (reads_skip Text.isBlank c).trans ((reads_upTo h₁).trans r₁)
  rw [hu.cancel r₀] at hu'
  have s₀ := skip_replay ((reads_upTo h₁).trans r₁) (by simp) hu'
  obtain ⟨c₁', h₁', s₁⟩ := upTo_replay h₁ r₁ n₁ s₀
  have t₁ := skip_replay ((reads_upTo h₂).trans r₂) (by simp) s₁
  obtain ⟨c₂', h₂', s₂⟩ := upTo_replay h₂ r₂ n₂ t₁
  have t₂ := skip_replay r₃ (by simp) s₂
  obtain ⟨c₃', h₃', s₃⟩ := after_replay t₂
  have h₄' := after_replay_end s₃
  simp only [delimiters?, Option.bind_eq_bind, h₁', h₂', h₃', h₄', Option.bind_some, hne,
    Bool.false_eq_true, if_false]

/-- The characters of the name of a setting, and those of its value. -/
theorem setting_local {name value : List Char} (hs : stop ≠ [])
    (h : setting? stop c = some (name, value, next)) (hu : c.Reads used next)
    (hu' : c'.Reads used next') : setting? stop c' = some (name, value, next') := by
  simp only [setting?, Option.bind_eq_bind] at h
  split_ifs at h with hname
  obtain ⟨c₁, h₁, h⟩ := Option.bind_eq_some_iff.mp h
  split_ifs at h with hvalue
  obtain ⟨c₂, h₂, h⟩ := Option.bind_eq_some_iff.mp h
  cases h
  have r₅ : (((c₁.skip Text.isBlank).take _).2.skip Text.isBlank).Reads stop next := reads_after h₂
  have r₄ := (reads_skip Text.isBlank _).trans r₅
  have r₃ := (reads_take _ (c₁.skip Text.isBlank)).trans r₄
  have r₂ := (reads_after h₁).trans ((reads_skip Text.isBlank c₁).trans r₃)
  have r₁ := (reads_skip Text.isBlank _).trans r₂
  have r₀ := (reads_take _ (c.skip Text.isBlank)).trans r₁
  rw [hu.cancel ((reads_skip Text.isBlank c).trans r₀)] at hu'
  have s₀ := skip_replay r₀ (by simp) hu'
  obtain ⟨e₁, s₁⟩ := take_replay r₁ (by simp) s₀
  have t₁ := skip_replay r₂ (by simp) s₁
  obtain ⟨c₁', h₁', s₂⟩ := after_replay t₁
  have t₂ := skip_replay r₃ (by simp [hs]) s₂
  obtain ⟨e₂, s₃⟩ := take_replay r₄ (by simp [hs]) t₂
  have t₃ := skip_replay r₅ hs s₃
  have h₂' := after_replay_end t₃
  simp only [setting?, Option.bind_eq_bind, e₁, hname, h₁', Option.bind_some, e₂, hvalue, h₂',
    Bool.false_eq_true, if_false]

theorem readPragma_local {t : Tag} (hs : stop ≠ [])
    (h : readPragma types stop start c = .ok (t, next)) (hu : c.Reads used next)
    (hu' : c'.Reads used next') (start' : Nat) :
    readPragma types stop start' c' = .ok (t, next') := by
  unfold readPragma at h
  split at h
  · cases h
  · rename_i name value n hn
    split_ifs at h with ht
    cases h
    rw [readPragma, setting_local hs hn hu hu']
    dsimp only
    rw [if_pos ht]

theorem map_local {α : Type} {f : α × Cursor → Tag × Cursor} {t : Tag}
    {r r' : Except Fault (α × Cursor)} (hf : ∀ a c c', f (a, c') = ((f (a, c)).1, c'))
    (hr : ∀ a, r = .ok (a, next) → r' = .ok (a, next')) (h : r.map f = .ok (t, next)) :
    r'.map f = .ok (t, next') := by
  obtain ⟨⟨a, n⟩, ha, he⟩ := of_map h
  obtain rfl : n = next := by
    have hn := hf a n n
    rw [he] at hn
    exact (Prod.mk.inj hn).2.symm
  rw [hr a ha, Except.map, hf a n, he]

/-- **A tag reads the same wherever it stands**: the characters up to its end decide about it. -/
theorem read_local {t : Tag} (hd : d.stop.toList ≠ []) (h : read types d start c = .ok (t, next))
    (hu : c.Reads used next) (hu' : c'.Reads used next') (start' : Nat) :
    read types d start' c' = .ok (t, next') := by
  obtain ⟨ch, more, rfl⟩ := List.exists_cons_of_ne_nil (ne_nil_of_ends hd (reads_of_read h) hu)
  obtain ⟨hc, ht⟩ := tail_replay hu
  obtain ⟨hc', ht'⟩ := tail_replay hu'
  have text {α : Type} {accept : List Char → Option α} {stop : List Char} {p p' : Nat} (a : α)
      (ha : readText p accept stop c.tail = .ok (a, next)) :
      readText p' accept stop c'.tail = .ok (a, next') := readText_local ha ht ht' p'
  have target (a : Target) (ha : readTarget d.stop.toList start c.tail = .ok (a, next)) :
      readTarget d.stop.toList start' c'.tail = .ok (a, next') :=
    readTarget_local hd ha ht ht' start'
  revert h
  unfold read
  rw [hc, hc']
  dsimp only
  split
  case h_3 => exact fun h => readBlock_local h ht ht' start'
  case h_8 | h_9 => exact map_local (fun _ _ _ => rfl) target
  case h_10 =>
    intro h
    split at h
    · cases h
    · rename_i hf
      cases h
      rw [delimiters_local hf ht ht']
  case h_11 => exact fun h => readPragma_local hd h ht ht' start'
  case h_12 => exact map_local (fun _ _ _ => rfl) fun a ha => readText_local ha hu hu' c'.offset
  all_goals exact map_local (fun _ _ _ => rfl) text

/-! ## Tags further back -/

section Shift

variable (k : Nat)

/-- A result further back: its fault, or the cursor after what is read. -/
def shiftResult {α : Type} : Except Fault (α × Cursor) → Except Fault (α × Cursor)
  | .error fault => .error (fault.shift k)
  | .ok (a, c) => .ok (a, c.shift k)

theorem readText_shift {α : Type} (place : Nat) (accept : List Char → Option α) (stop : List Char)
    (c : Cursor) : readText (k + place) accept stop (c.shift k) =
      shiftResult k (readText place accept stop c) := by
  unfold readText
  rw [shift_through]
  cases c.through? stop with
  | none => rfl
  | some r =>
    dsimp only [Option.map_some]
    cases accept (Text.trim r.1) <;> rfl

theorem readTarget_shift (stop : List Char) (start : Nat) (c : Cursor) :
    readTarget stop (k + start) (c.shift k) = shiftResult k (readTarget stop start c) := by
  unfold readTarget
  rw [shift_after]
  cases c.after? ['*'] <;> exact readText_shift k _ _ _ _

theorem readBlock_shift (stop : List Char) (start : Nat) (c : Cursor) :
    readBlock stop (k + start) (c.shift k) = shiftResult k (readBlock stop start c) := by
  unfold readBlock
  rw [shift_offset, readText_shift]
  cases readText c.offset expression? stop c with
  | error => rfl
  | ok r =>
    dsimp only [shiftResult]
    split_ifs <;> rfl

theorem delimiters_shift (stop : List Char) (c : Cursor) :
    delimiters? stop (c.shift k) =
      (delimiters? stop c).map fun (found, c) => (found, c.shift k) := by
  simp only [delimiters?, Option.bind_eq_bind, shift_skip, shift_upTo]
  cases (c.skip Text.isBlank).upTo? Text.isBlank with
  | none => rfl
  | some r =>
    obtain ⟨first, c₁⟩ := r
    simp only [Option.map_some, Option.bind_some, shift_skip, shift_upTo]
    cases (c₁.skip Text.isBlank).upTo? fun ch => ch == '=' || Text.isBlank ch with
    | none => rfl
    | some r =>
      obtain ⟨close, c₂⟩ := r
      simp only [Option.map_some, Option.bind_some, shift_skip, shift_after]
      cases (c₂.skip Text.isBlank).after? ['='] with
      | none => rfl
      | some c₃ =>
        simp only [Option.map_some, Option.bind_some, shift_after]
        cases c₃.after? stop with
        | none => rfl
        | some c₄ =>
          simp only [Option.map_some, Option.bind_some]
          split_ifs <;> rfl

theorem setting_shift (stop : List Char) (c : Cursor) :
    setting? stop (c.shift k) =
      (setting? stop c).map fun (name, value, c) => (name, value, c.shift k) := by
  simp only [setting?, Option.bind_eq_bind, shift_skip, shift_take, shift_after]
  split_ifs with hname
  · rfl
  cases (((c.skip Text.isBlank).take _).2.skip Text.isBlank).after? [':'] with
  | none => rfl
  | some c₁ =>
    simp only [Option.map_some, Option.bind_some, shift_skip, shift_take, shift_after]
    split_ifs with hvalue
    · rfl
    cases (((c₁.skip Text.isBlank).take _).2.skip Text.isBlank).after? stop <;> rfl

theorem readPragma_shift (stop : List Char) (start : Nat) (c : Cursor) :
    readPragma types stop (k + start) (c.shift k) =
      shiftResult k (readPragma types stop start c) := by
  unfold readPragma
  rw [setting_shift]
  cases setting? stop c with
  | none => rfl
  | some r =>
    dsimp only [Option.map_some]
    split_ifs <;> rfl

theorem map_shift {α : Type} {f : α × Cursor → Tag × Cursor}
    (hf : ∀ a c c', f (a, c') = ((f (a, c)).1, c')) (r : Except Fault (α × Cursor)) :
    (shiftResult k r).map f = shiftResult k (r.map f) := by
  cases r with
  | error => rfl
  | ok r =>
    obtain ⟨a, c⟩ := r
    show Except.ok (f (a, c.shift k)) = shiftResult k (.ok (f (a, c)))
    rw [hf a c (c.shift k), hf a c c]
    rfl

/-- **A tag further back in a source** is read alike, and so are its faults. -/
theorem read_shift (types : ContentTypes) (d : Delimiters) (start : Nat) (c : Cursor) :
    read types d (k + start) (c.shift k) = shiftResult k (read types d start c) := by
  have text {α : Type} {f : α × Cursor → Tag × Cursor}
      (hf : ∀ a c c', f (a, c') = ((f (a, c)).1, c')) (accept : List Char → Option α)
      (stop : List Char) (place : Nat) (c : Cursor) :
      (readText (k + place) accept stop (c.shift k)).map f =
        shiftResult k ((readText place accept stop c).map f) := by
    rw [readText_shift, map_shift k hf]
  have target {f : Target × Cursor → Tag × Cursor}
      (hf : ∀ a c c', f (a, c') = ((f (a, c)).1, c')) :
      (readTarget d.stop.toList (k + start) (c.tail.shift k)).map f =
        shiftResult k ((readTarget d.stop.toList start c.tail).map f) := by
    rw [readTarget_shift, map_shift k hf]
  unfold read
  simp only [shift_rest, shift_tail, shift_offset]
  split
  case h_3 => exact readBlock_shift k _ _ _
  case h_8 | h_9 => exact target fun _ _ _ => rfl
  case h_10 =>
    rw [delimiters_shift]
    cases delimiters? d.stop.toList c.tail <;> rfl
  case h_11 => exact readPragma_shift k _ _ _
  all_goals exact text (fun _ _ _ => rfl) _ _ _ _

end Shift

end Tag

end Mustache
