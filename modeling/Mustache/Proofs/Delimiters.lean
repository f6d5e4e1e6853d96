import Mustache.Proofs.Cursor

/-!
# Proper delimiters

Delimiters that a template can have from the standard ones on: neither is empty, and neither has a
blank of any kind.

* `Delimiters.Proper`, `proper_standard`;
* **`Delimiters.proper_of_read`**: a tag changes them to proper ones;
* `Tag.standard`: the text of a tag with the standard delimiters.
-/

namespace Mustache

/-- Delimiters that are not empty and have no blanks. -/
structure Delimiters.Proper (d : Delimiters) : Prop where
  start_ne_nil : d.start.toList ≠ []
  start_no_blank : ∀ c ∈ d.start.toList, Text.isBlank c = false
  stop_ne_nil : d.stop.toList ≠ []
  stop_no_blank : ∀ c ∈ d.stop.toList, Text.isBlank c = false

theorem Text.isBlank_of_isInlineBlank {c : Char} (h : isInlineBlank c = true) :
    isBlank c = true := by
  unfold isInlineBlank at h
  rw [Bool.or_eq_true, beq_iff_eq, beq_iff_eq] at h
  obtain rfl | rfl := h <;> rfl

theorem Text.isInlineBlank_of_not_isBlank {c : Char} (h : isBlank c = false) :
    isInlineBlank c = false := by
  cases hi : isInlineBlank c with
  | false => rfl
  | true =>
    rw [isBlank_of_isInlineBlank hi] at h
    nomatch h

theorem Cursor.of_upTo? {p : Char → Bool} {c next : Cursor} {text : List Char}
    (h : c.upTo? p = some (text, next)) : ∀ ch ∈ text, p ch = false := by
  simp only [upTo?] at h
  split_ifs at h
  cases h
  intro ch hc
  have hp := List.mem_takeWhile_imp (p := fun ch => !p ch) hc
  simpa using hp

namespace Delimiters

theorem proper_standard : standard.Proper where
  start_ne_nil := by decide
  start_no_blank := by simp [standard, Text.isBlank]
  stop_ne_nil := by decide
  stop_no_blank := by simp [standard, Text.isBlank]

theorem proper_of_delimiters? {stop : List Char} {c next : Cursor} {d : Delimiters}
    (h : Tag.delimiters? stop c = some (d, next)) : d.Proper := by
  simp only [Tag.delimiters?, Option.bind_eq_bind, Option.bind_eq_some_iff] at h
  obtain ⟨⟨start, c₁⟩, h₁, ⟨close, c₂⟩, h₂, c₃, h₃, c₄, h₄, h⟩ := h
  split_ifs at h with hne
  cases h
  simp only [Bool.or_eq_true, List.isEmpty_iff, not_or] at hne
  have hclose (ch : Char) (hc : ch ∈ close) : Text.isBlank ch = false :=
    (Bool.or_eq_false_iff.mp (Cursor.of_upTo? h₂ ch hc)).2
  constructor <;> rw [String.toList_ofList]
  · exact hne.1.1
  · exact Cursor.of_upTo? h₁
  · exact hne.1.2
  · exact hclose

/-- **A tag changes the delimiters to proper ones.** -/
theorem proper_of_read {types : ContentTypes} {d found : Delimiters} {start : Nat}
    {c next : Cursor} (h : Tag.read types d start c = .ok (.delimiters found, next)) :
    found.Proper :=
  proper_of_delimiters? ((Tag.setting_of_read h).1 found rfl)

/-- A text that starts with a start delimiter does not start with a blank. -/
theorem Proper.starts {d : Delimiters} (hd : d.Proper) {text : List Char}
    (h : d.start.toList <+: text) : ∃ c rest, text = c :: rest ∧ Text.isBlank c = false := by
  obtain ⟨inner, rfl⟩ := h
  obtain ⟨c, mark, hm⟩ := List.exists_cons_of_ne_nil hd.start_ne_nil
  rw [hm]
  exact ⟨c, mark ++ inner, rfl, hd.start_no_blank c (hm ▸ .head _)⟩

/-- A start delimiter does not begin among blanks. -/
theorem Proper.unmet {d : Delimiters} (hd : d.Proper) {blanks rest : List Char}
    (hb : ∀ c ∈ blanks, Text.isBlank c = true) : Text.Unmet d.start.toList blanks rest := by
  obtain ⟨m, mark, hm, hblank⟩ := hd.starts List.prefix_rfl
  rw [hm]
  refine Text.unmet_of_head fun h => ?_
  rw [hb m h] at hblank
  exact absurd hblank (by decide)

end Delimiters

/-- The text of a tag with the standard delimiters. -/
def Tag.standard (content : String) : String :=
  Delimiters.standard.start ++ content ++ Delimiters.standard.stop

@[simp] theorem Tag.toList_standard (content : String) :
    (Tag.standard content).toList = '{' :: '{' :: (content.toList ++ ['}', '}']) := by
  simp [standard, Delimiters.standard]

end Mustache
