import Mathlib.Data.List.DropRight
import Mustache.Proofs.Text.Search

/-!
# Trimmed texts

* `Text.trimStart_append`, `Text.trimEnd_append`: blanks at an end of a text are trimmed with those
  that are there;
* `Text.trimEnd_cons`, `Text.trimStart_trimEnd`: the two ends are trimmed independently;
* **`Text.trim_blanks`**: more blanks around a text.
-/

namespace Mustache.Text

variable {blanks cs : List Char}

theorem trimStart_append (hb : ∀ c ∈ blanks, isBlank c = true) (cs : List Char) :
    trimStart (blanks ++ cs) = trimStart cs :=
  List.dropWhile_append_of_pos hb

theorem trimEnd_append (hb : ∀ c ∈ blanks, isBlank c = true) (cs : List Char) :
    trimEnd (cs ++ blanks) = trimEnd cs := by
  unfold trimEnd trimEndWhile
  rw [List.reverse_append, List.dropWhile_append_of_pos fun c hc => hb c (List.mem_reverse.mp hc)]

theorem trimStart_cons {c : Char} (hc : isBlank c = false) (cs : List Char) :
    trimStart (c :: cs) = c :: cs :=
  List.dropWhile_cons_of_neg (by simp [hc])

/-- What stands before a character that is no blank is not trimmed at the end. -/
theorem trimEnd_append_cons {c : Char} (hc : isBlank c = false) (front cs : List Char) :
    trimEnd (front ++ c :: cs) = front ++ c :: trimEnd cs := by
  unfold trimEnd trimEndWhile
  rw [List.reverse_append, List.reverse_cons, List.append_assoc, List.singleton_append,
    dropWhile_append_stop hc]
  simp

theorem trimEnd_cons {c : Char} (hc : isBlank c = false) (cs : List Char) :
    trimEnd (c :: cs) = c :: trimEnd cs :=
  trimEnd_append_cons hc [] cs

theorem trimEnd_of_blanks (hb : ∀ c ∈ blanks, isBlank c = true) : trimEnd blanks = [] :=
  trimEnd_append hb []

/-- A text is blanks, or it has a first character that is none. -/
theorem blanks_or_first (cs : List Char) :
    (∀ c ∈ cs, isBlank c = true) ∨
      ∃ blanks c rest, cs = blanks ++ c :: rest ∧ (∀ c ∈ blanks, isBlank c = true) ∧
        isBlank c = false := by
  cases h : cs.dropWhile isBlank with
  | nil => exact .inl (List.dropWhile_eq_nil_iff.mp h)
  | cons c rest =>
    refine .inr ⟨cs.takeWhile isBlank, c, rest, ?_, fun c hc => List.mem_takeWhile_imp hc, ?_⟩
    · rw [← h, List.takeWhile_append_dropWhile]
    · have hc := List.head?_dropWhile_not isBlank cs
      rw [h] at hc
      simpa using hc

/-- **The two ends are trimmed independently.** -/
theorem trimStart_trimEnd (cs : List Char) : trimStart (trimEnd cs) = trimEnd (trimStart cs) := by
  obtain hb | ⟨blanks, c, rest, rfl, hb, hc⟩ := blanks_or_first cs
  · have hstart : trimStart cs = [] := List.dropWhile_eq_nil_iff.mpr hb
    rw [trimEnd_of_blanks hb, hstart]
    rfl
  · rw [trimEnd_append_cons hc, trimStart_append hb, trimStart_append hb, trimStart_cons hc,
      trimStart_cons hc, trimEnd_cons hc]

/-- **More blanks around a text** are trimmed. -/
theorem trim_blanks {after : List Char} (hb : ∀ c ∈ blanks, isBlank c = true)
    (ha : ∀ c ∈ after, isBlank c = true) (cs : List Char) :
    trim (blanks ++ cs ++ after) = trim cs := by
  unfold trim
  rw [← trimStart_trimEnd, trimEnd_append ha, trimStart_trimEnd, trimStart_append hb]

theorem trimStart_trim (cs : List Char) : trimStart (trim cs) = trim cs := by
  rw [trim, trimStart_trimEnd, trimStart, trimStart, List.dropWhile_idempotent]

end Mustache.Text
