import Mustache.Render

/-!
# How output is joined

* `toList_append`: a piece after what has been written; `empty_append`, `append_none`,
  **`append_append`**: pieces can be joined among themselves first;
* `bind_empty_append`, `renderElements_cons`: one result, and the elements of a sequence;
* `toList_indentFirst`: a piece with an indentation in front;
* `getD_joinIndentation`: one indentation inside another.
-/

namespace Mustache

theorem isEmpty_eq_true {s : String} : s.isEmpty = true ↔ s.toList = [] := by
  rw [String.isEmpty_iff, String.toList_eq_nil_iff]

/-- **A piece that starts a line is indented**; an empty piece changes nothing. -/
theorem toList_append (out text : String) (i : Option String) :
    (append out text i).toList =
      if text.toList = [] then out.toList
      else out.toList ++ ((if out.toList.getLast? = some '\n' then (i.getD "").toList else []) ++
        text.toList) := by
  unfold append
  by_cases ht : text.toList = []
  · rw [if_pos ht, if_pos (isEmpty_eq_true.mpr ht)]
  rw [if_neg ht, if_neg (mt isEmpty_eq_true.mp ht)]
  cases i with
  | none => simp
  | some blanks =>
    simp only [Text.endsLine, beq_iff_eq, Option.getD_some]
    split <;> simp

/-- A piece after nothing is the piece: nothing does not end a line. -/
theorem empty_append (text : String) (i : Option String) : append "" text i = text := by
  apply String.toList_injective
  rw [toList_append]
  by_cases ht : text.toList = []
  · rw [if_pos ht, ht]
    rfl
  · rw [if_neg ht]
    rfl

theorem append_none (out text : String) : append out text none = out ++ text := by
  by_cases h : text.isEmpty = true
  · rw [append, if_pos h, String.isEmpty_iff.mp h, String.append_empty]
  · rw [append, if_neg h]

/-- **Pieces can be joined among themselves first**: a line is started by the same piece. -/
theorem append_append (out first second : String) (i : Option String) :
    append out (append first second i) i = append (append out first i) second i := by
  apply String.toList_injective
  simp only [toList_append]
  by_cases hs : second.toList = []
  · simp only [if_pos hs]
  by_cases hf : first.toList = []
  · simp [hs, hf]
  · have hlast (front blanks : List Char) :
        (front ++ (blanks ++ first.toList)).getLast? = first.toList.getLast? := by
      rw [← List.append_assoc, List.getLast?_append, List.getLast?_eq_some_getLast hf]
      rfl
    rw [if_neg hs, if_neg hs, if_neg hf, hlast, if_neg (List.append_ne_nil_of_left_ne_nil hf _)]
    simp only [List.append_assoc]

/-- A result after nothing. -/
theorem bind_empty_append (r : Rendered) (i : Option String) :
    (r.bind fun s => .ok (append "" s.1 i, s.2)) = r := by
  cases r with
  | error stop => rfl
  | ok s =>
    show Except.ok (append "" s.1 i, s.2) = _
    rw [empty_append]

/-- The body for the first element, and for the others. -/
theorem renderElements_cons (go : Renderer) (body : List Token) (c : Context) (length index : Nat)
    (item : Value) (items : List Value) (output : String) (calls : Calls) :
    renderElements go body c length index (item :: items) output calls =
      (go body (c.withElement item ⟨index, length⟩) calls).bind fun r =>
        renderElements go body c length (index + 1) items (append output r.1 c.indentation)
          r.2 := by
  rw [renderElements]
  cases go body (c.withElement item ⟨index, length⟩) calls <;> rfl

/-- A piece with an indentation in front, unless it is empty. -/
theorem toList_indentFirst (i : Option String) (text : String) :
    (indentFirst i text).toList =
      if text.toList = [] then [] else (i.getD "").toList ++ text.toList := by
  unfold indentFirst
  cases i with
  | none =>
    by_cases ht : text.toList = []
    · rw [if_pos ht]; exact ht
    · rw [if_neg ht]; rfl
  | some blanks =>
    by_cases ht : text.toList = []
    · simp only [if_pos ht, if_pos (isEmpty_eq_true.mpr ht)]; exact ht
    · simp only [if_neg ht, if_neg (mt isEmpty_eq_true.mp ht), String.toList_append,
        Option.getD_some]

/-- Indentations add up. -/
theorem getD_joinIndentation (i j : Option String) :
    (Context.joinIndentation i j).getD "" = i.getD "" ++ j.getD "" := by
  cases i <;> cases j <;> simp [Context.joinIndentation]

end Mustache
