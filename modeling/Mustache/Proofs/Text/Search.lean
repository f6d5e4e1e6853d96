import Mathlib.Data.List.TakeWhile
import Mathlib.Tactic.SplitIfs
import Mustache.Cursor

/-!
# Searching in a text

* `after?_eq_some`: stripping a literal;
* `Unmet mark front rest`: no occurrence of `mark` starts in `front` when `rest` follows it;
* **`cut?_eq_some`**: cutting finds the first occurrence of a literal; **`cut?_append`**: a part in
  which none starts can be passed over;
* `takeWhile_append_stop`, `dropWhile_append_stop`: scanning stops at a character;
* `splitLine_spec`: reading up to a line feed or a literal.
-/

namespace Mustache

namespace Text

variable {mark front rest text : List Char}

/-! ## Literals -/

theorem after?_eq_some : after? mark text = some rest ↔ text = mark ++ rest := by
  induction mark generalizing text with
  | nil => simp [after?, eq_comm]
  | cons m mark ih =>
    cases text with
    | nil => simp [after?]
    | cons c text =>
      simp only [after?, List.cons_append, List.cons.injEq]
      split_ifs with h
      · rw [ih]; simp [h]
      · simp [Ne.symm h]

theorem after?_append (mark rest : List Char) : after? mark (mark ++ rest) = some rest :=
  after?_eq_some.mpr rfl

theorem after?_eq_none : after? mark text = none ↔ ¬ mark <+: text := by
  rw [← Option.not_isSome_iff_eq_none, not_iff_not, Option.isSome_iff_exists]
  exact exists_congr fun rest => after?_eq_some.trans eq_comm

/-- No occurrence of the literal starts in `front` when `rest` follows. -/
def Unmet (mark front rest : List Char) : Prop :=
  ∀ a b, front = a ++ b → b ≠ [] → ¬ mark <+: b ++ rest

theorem unmet_nil : Unmet mark [] rest := fun a b h hb => by
  obtain ⟨-, rfl⟩ := List.append_eq_nil_iff.mp h.symm
  exact absurd rfl hb

theorem unmet_cons {c : Char} :
    Unmet mark (c :: front) rest ↔ ¬ mark <+: c :: (front ++ rest) ∧ Unmet mark front rest := by
  constructor
  · intro h
    exact ⟨h [] (c :: front) rfl (by simp), fun a b e hb => h (c :: a) b (by rw [e]; rfl) hb⟩
  · rintro ⟨h, hf⟩ a b e hb
    cases a with
    | nil => rw [List.nil_append] at e; rw [← e]; exact h
    | cons x a =>
      rw [List.cons_append, List.cons.injEq] at e
      exact hf a b e.2 hb

theorem unmet_append {front' : List Char} :
    Unmet mark (front ++ front') rest ↔
      Unmet mark front (front' ++ rest) ∧ Unmet mark front' rest := by
  induction front with
  | nil => simp [unmet_nil]
  | cons c front ih =>
    rw [List.cons_append, unmet_cons, unmet_cons, ih, List.append_assoc, and_assoc]

/-- A literal does not start among characters that it does not start with. -/
theorem unmet_of_head {m : Char} (h : m ∉ front) : Unmet (m :: mark) front rest := by
  rintro a b rfl hb ⟨t, ht⟩
  obtain ⟨c, b, rfl⟩ := List.exists_cons_of_ne_nil hb
  rw [List.cons_append, List.cons_append, List.cons.injEq] at ht
  exact h (by simp [ht.1])

/-! ## Cutting -/

theorem cut?_nil_of_ne (hm : mark ≠ []) : cut? mark [] = none := by
  cases mark with
  | nil => exact absurd rfl hm
  | cons m mark => rfl

/-- **A part in which the literal does not start is passed over.** -/
theorem cut?_append (h : Unmet mark front rest) :
    cut? mark (front ++ rest) = (cut? mark rest).map fun r => (front ++ r.1, r.2) := by
  induction front with
  | nil => simp
  | cons c front ih =>
    rw [unmet_cons] at h
    rw [List.cons_append, cut?, after?_eq_none.mpr h.1, ih h.2, Option.map_map]
    rfl

/-- **Cutting finds the first occurrence.** -/
theorem cut?_eq_some :
    cut? mark text = some (front, rest) ↔
      text = front ++ (mark ++ rest) ∧ Unmet mark front (mark ++ rest) := by
  constructor
  · intro h
    induction text generalizing front with
    | nil =>
      rw [cut?, Option.map_eq_some_iff] at h
      obtain ⟨r, hr, e⟩ := h
      rw [after?_eq_some] at hr
      cases e
      exact ⟨hr, unmet_nil⟩
    | cons c text ih =>
      rw [cut?] at h
      split at h
      · rename_i r hr
        rw [after?_eq_some] at hr
        cases h
        exact ⟨hr, unmet_nil⟩
      · rename_i hn
        rw [after?_eq_none] at hn
        obtain ⟨⟨f, r⟩, hr, e⟩ := Option.map_eq_some_iff.mp h
        cases e
        obtain ⟨ht, hf⟩ := ih hr
        exact ⟨by rw [ht]; rfl, unmet_cons.mpr ⟨by rw [← ht]; exact hn, hf⟩⟩
  · rintro ⟨rfl, h⟩
    rw [cut?_append h]
    cases hm : mark ++ rest with
    | nil =>
      obtain ⟨rfl, rfl⟩ := List.append_eq_nil_iff.mp hm
      simp [cut?, after?]
    | cons c t => rw [cut?, ← hm, after?_append]; simp

/-- Nothing is cut where the literal does not occur. -/
theorem cut?_eq_none : cut? mark text = none ↔ ¬ mark <:+: text := by
  induction text with
  | nil => rw [cut?, Option.map_eq_none_iff, after?_eq_none, List.prefix_nil, List.infix_nil]
  | cons c text ih =>
    rw [List.infix_cons_iff, not_or, ← ih, ← after?_eq_none, cut?]
    split
    next rest h => simp [h]
    next h => simp [h]

/-! ## Scanning -/

theorem takeWhile_append_stop {p : Char → Bool} {x : Char} (hx : p x = false) (cs ds : List Char) :
    (cs ++ x :: ds).takeWhile p = cs.takeWhile p := by
  induction cs with
  | nil => simp [hx]
  | cons c cs ih => simp only [List.cons_append, List.takeWhile_cons, ih]

theorem dropWhile_append_stop {p : Char → Bool} {x : Char} (hx : p x = false) (cs ds : List Char) :
    (cs ++ x :: ds).dropWhile p = cs.dropWhile p ++ x :: ds := by
  induction cs with
  | nil => simp [hx]
  | cons c cs ih =>
    simp only [List.cons_append, List.dropWhile_cons, ih]
    split_ifs <;> rfl

end Text

/-! ## Lines -/

/-- **Reading a line** stops at a line feed or the literal, whichever comes first. -/
theorem Cursor.splitLine_spec (mark text : List Char) :
    (splitLine mark text).1 ++ (splitLine mark text).2 = text ∧
      '\n' ∉ (splitLine mark text).1 ∧
      Text.Unmet mark (splitLine mark text).1 (splitLine mark text).2 ∧
      ∀ c rest, (splitLine mark text).2 = c :: rest → c = '\n' ∨ mark <+: c :: rest := by
  induction text with
  | nil => exact ⟨rfl, by simp [splitLine], Text.unmet_nil, fun _ _ h => nomatch h⟩
  | cons ch text ih =>
    rw [splitLine]
    split_ifs with h
    · refine ⟨rfl, by simp, Text.unmet_nil, fun c rest e => ?_⟩
      rw [Bool.or_eq_true, beq_iff_eq, Option.isSome_iff_exists] at h
      obtain ⟨rfl, rfl⟩ := List.cons.inj e
      refine h.imp id fun ⟨r, hr⟩ => ⟨r, (Text.after?_eq_some.mp hr).symm⟩
    · rw [Bool.or_eq_true, not_or, beq_iff_eq, Option.not_isSome_iff_eq_none,
        Text.after?_eq_none] at h
      obtain ⟨h1, h2, h3, h4⟩ := ih
      refine ⟨by simp [h1], ?_, Text.unmet_cons.mpr ⟨by rw [h1]; exact h.2, h3⟩, h4⟩
      simpa using ⟨Ne.symm h.1, h2⟩

namespace Cursor

variable {mark rest : List Char} {ch : Char}

theorem splitLine_stop (h : ch = '\n' ∨ mark <+: ch :: rest) :
    splitLine mark (ch :: rest) = ([], ch :: rest) := by
  rw [splitLine, if_pos]
  rw [Bool.or_eq_true, beq_iff_eq]
  refine h.imp_right fun h => ?_
  rw [← Option.not_isNone, Bool.not_eq_true']
  cases ha : Text.after? mark (ch :: rest) with
  | none => exact absurd h (Text.after?_eq_none.mp ha)
  | some _ => rfl

theorem splitLine_cons (hc : ch ≠ '\n') (hs : ¬ mark <+: ch :: rest) :
    splitLine mark (ch :: rest) = (ch :: (splitLine mark rest).1, (splitLine mark rest).2) := by
  rw [splitLine, if_neg]
  rw [Text.after?_eq_none.mpr hs]
  simpa using hc

/-- **The line that is read** is the text up to a line feed or the literal, what comes first. -/
theorem splitLine_append {text : List Char} (hn : '\n' ∉ text) (hu : Text.Unmet mark text rest)
    (hs : ∀ ch more, rest = ch :: more → ch = '\n' ∨ mark <+: ch :: more) :
    splitLine mark (text ++ rest) = (text, rest) := by
  induction text with
  | nil =>
    cases rest with
    | nil => rfl
    | cons ch more => exact splitLine_stop (hs ch more rfl)
  | cons c text ih =>
    obtain ⟨hc, hu⟩ := Text.unmet_cons.mp hu
    obtain ⟨hne, hn⟩ := not_or.mp (mt List.mem_cons.mpr hn)
    rw [List.cons_append, splitLine_cons (Ne.symm hne) hc, ih hn hu]

end Cursor

end Mustache
