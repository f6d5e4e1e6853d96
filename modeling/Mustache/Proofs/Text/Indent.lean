import Mathlib.Tactic.SplitIfs
import Mustache.Proofs.Text.Unbroken

/-!
# Indenting the lines of a text

* `Text.indentAfter`, `Text.indentLines`: the lines after the first, and all of them;
* **`indentAfter_append`**: the lines of two texts that follow each other;
* `indentAfter_unbroken`, `indentAfter_line`: texts in which nothing changes.
-/

namespace Mustache.Text

/-- The text with `w` after every line feed that more text follows. -/
def indentAfter (w : List Char) : List Char → List Char
  | [] => []
  | c :: cs => c :: ((if c = '\n' ∧ cs ≠ [] then w else []) ++ indentAfter w cs)

/-- The text with `w` in front of every line; no text has no line. -/
def indentLines (w cs : List Char) : List Char := if cs = [] then [] else w ++ indentAfter w cs

variable {w cs ds : List Char}

theorem indentAfter_eq_nil : indentAfter w cs = [] ↔ cs = [] := by
  cases cs with
  | nil => exact ⟨fun _ => rfl, fun _ => rfl⟩
  | cons c cs => exact ⟨nofun, nofun⟩

theorem indentAfter_unbroken (h : Unbroken cs) : indentAfter w cs = cs := by
  induction cs with
  | nil => rfl
  | cons c cs ih =>
    have hc : ¬ (c = '\n' ∧ cs ≠ []) := fun hn => h.ne (.head _) hn.1
    rw [indentAfter, if_neg hc, List.nil_append, ih (h.subset fun _ => .tail _)]

/-- **A text that follows another** is indented where the other ends a line. -/
theorem indentAfter_append (hd : ds ≠ []) :
    indentAfter w (cs ++ ds) =
      indentAfter w cs ++ ((if cs.getLast? = some '\n' then w else []) ++ indentAfter w ds) := by
  induction cs with
  | nil => rfl
  | cons c cs ih =>
    have hne : cs ++ ds ≠ [] := List.append_ne_nil_of_right_ne_nil cs hd
    rw [List.cons_append, indentAfter, ih, indentAfter]
    cases cs with
    | nil => simp [indentAfter, hd]
    | cons x cs => simp [List.getLast?_cons_cons]

/-- Of a single line only the end may be a line feed, which no text follows. -/
theorem indentAfter_line (h : Unbroken cs.dropLast) : indentAfter w cs = cs := by
  by_cases hn : cs = []
  · rw [hn]; rfl
  have hl : cs.dropLast.getLast? ≠ some '\n' := fun e => h (List.mem_of_getLast? e)
  have hc := List.dropLast_concat_getLast hn
  rw [← hc, indentAfter_append (List.cons_ne_nil _ _), if_neg hl, indentAfter_unbroken h]
  simp [indentAfter]

theorem getLast?_indentAfter : (indentAfter w cs).getLast? = cs.getLast? := by
  by_cases hn : cs = []
  · rw [hn]; rfl
  have hc := List.dropLast_concat_getLast hn
  rw [← hc, indentAfter_append (List.cons_ne_nil _ _)]
  simp [indentAfter]

end Mustache.Text
