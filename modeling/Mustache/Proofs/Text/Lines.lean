import Mustache.Proofs.Text.Search

/-!
# The lines of a text

* `Text.lines`: the lines of a text, each with its line feed; `Text.solidLines`: those that have
  something other than blanks;
* `Text.Whole`: no line of the text goes on behind it; **`Whole.solidLines_append`**;
* **`exists_whole_append`**: whole lines and a last one; `lastLine_append`: the last one goes on;
* `Text.Silent`: nothing but blanks up to the end of a line; **`Silent.solidLines_append`**: taking
  it away takes no solid line away.
-/

namespace Mustache.Text

/-- The lines of a text, each with the line feed that ends it. -/
def lines : List Char → List (List Char)
  | [] => []
  | c :: text =>
    if c = '\n' then [c] :: lines text
    else
      match lines text with
      | [] => [[c]]
      | line :: rest => (c :: line) :: rest

/-- The lines that have something other than blanks. -/
def solidLines (text : List Char) : List (List Char) :=
  (lines text).filter fun line => !line.all isBlank

/-- A text of whole lines: it is empty or ends with a line feed. -/
def Whole (text : List Char) : Prop := text = [] ∨ ∃ front, text = front ++ ['\n']

/-- Blanks to the end of a line, or none at all. -/
def Silent (text : List Char) : Prop :=
  text = [] ∨ ∃ line, text = line ++ ['\n'] ∧ '\n' ∉ line ∧ ∀ c ∈ line, isBlank c = true

variable {line text : List Char}

theorem lines_ne_nil (h : text ≠ []) : lines text ≠ [] := by
  obtain ⟨c, text, rfl⟩ := List.exists_cons_of_ne_nil h
  rw [lines]
  split_ifs
  · simp
  · split <;> simp

/-- **Lines end with a line feed.** -/
theorem lines_lineFeed (front text : List Char) :
    lines (front ++ '\n' :: text) = lines (front ++ ['\n']) ++ lines text := by
  induction front with
  | nil => rfl
  | cons c front ih =>
    by_cases hc : c = '\n'
    · simp only [List.cons_append, lines, if_pos hc, ih]
    · have hne : front ++ ['\n'] ≠ [] := by simp
      obtain ⟨first, rest, hl⟩ := List.exists_cons_of_ne_nil (lines_ne_nil hne)
      simp only [List.cons_append, lines, if_neg hc, ih, hl]

/-- A text without a line feed is one line, unless it is empty. -/
theorem lines_last (h : '\n' ∉ text) : lines text = if text = [] then [] else [text] := by
  induction text with
  | nil => rfl
  | cons c text ih =>
    have hc : c ≠ '\n' := fun e => h (e ▸ List.mem_cons_self)
    have htext : '\n' ∉ text := fun hm => h (List.mem_cons_of_mem _ hm)
    rw [lines, if_neg hc, ih htext]
    by_cases he : text = []
    · simp [he]
    · simp [he]

/-- A line. -/
theorem lines_line (h : '\n' ∉ line) : lines (line ++ ['\n']) = [line ++ ['\n']] := by
  induction line with
  | nil => rfl
  | cons c line ih =>
    have hc : c ≠ '\n' := fun e => h (e ▸ List.mem_cons_self)
    have hline : '\n' ∉ line := fun hm => h (List.mem_cons_of_mem _ hm)
    rw [List.cons_append, lines, if_neg hc, ih hline]

/-! ## The last line -/

/-- What follows a text on its last line goes on there. -/
theorem lastLine_append {cs ds : List Char} (h : '\n' ∉ ds) :
    lastLine (cs ++ ds) = lastLine cs ++ ds := by
  have hd : ∀ c ∈ ds.reverse, (c != '\n') = true := fun c hc =>
    bne_iff_ne.mpr fun e => h (e ▸ List.mem_reverse.mp hc)
  rw [lastLine, List.reverse_append, List.takeWhile_append_of_pos hd, List.reverse_append,
    List.reverse_reverse, lastLine]

/-- **A text is whole lines and its last line.** -/
theorem exists_whole_append (cs : List Char) :
    ∃ front, Whole front ∧ cs = front ++ lastLine cs ∧ '\n' ∉ lastLine cs := by
  refine ⟨(cs.reverse.dropWhile (· != '\n')).reverse, ?_, ?_, ?_⟩
  · cases h : cs.reverse.dropWhile (· != '\n') with
    | nil => exact .inl rfl
    | cons c front =>
      have hc := List.head?_dropWhile_not (· != '\n') cs.reverse
      rw [h] at hc
      have hc : c = '\n' := by simpa using hc
      exact .inr ⟨front.reverse, by rw [List.reverse_cons, hc]⟩
  · rw [lastLine, ← List.reverse_append, List.takeWhile_append_dropWhile, List.reverse_reverse]
  · intro h
    simpa using List.mem_takeWhile_imp (List.mem_reverse.mp h)

/-! ## Solid lines -/

/-- **After whole lines** the lines of a text are its own. -/
theorem Whole.solidLines_append (h : Whole text) (more : List Char) :
    solidLines (text ++ more) = solidLines text ++ solidLines more := by
  obtain rfl | ⟨front, rfl⟩ := h
  · rfl
  · unfold solidLines
    rw [List.append_assoc, List.singleton_append, lines_lineFeed, List.filter_append]

theorem whole_append (h : Whole line) (h' : Whole text) : Whole (line ++ text) := by
  obtain rfl | ⟨front, rfl⟩ := h'
  · rwa [List.append_nil]
  · exact .inr ⟨line ++ front, (List.append_assoc _ _ _).symm⟩

theorem solidLines_line (h : '\n' ∉ line) :
    solidLines (line ++ ['\n']) =
      if (line ++ ['\n']).all isBlank then [] else [line ++ ['\n']] := by
  unfold solidLines
  rw [lines_line h, List.filter_cons, List.filter_nil]
  cases (line ++ ['\n']).all isBlank <;> rfl

theorem solidLines_last (h : '\n' ∉ text) :
    solidLines text = if text.all isBlank then [] else [text] := by
  unfold solidLines
  rw [lines_last h]
  by_cases he : text = []
  · simp [he]
  · rw [if_neg he, List.filter_cons, List.filter_nil]
    cases text.all isBlank <;> rfl

/-- The characters of lines are those of the text. -/
theorem mem_of_mem_lines (hl : line ∈ lines text) : ∀ c ∈ line, c ∈ text := by
  induction text generalizing line with
  | nil => nomatch hl
  | cons c text ih =>
    have later {line : List Char} (hl : line ∈ lines text) : ∀ x ∈ line, x ∈ c :: text :=
      fun x hx => List.mem_cons_of_mem c (ih hl x hx)
    rw [lines] at hl
    split_ifs at hl with hc
    · obtain rfl | hl := List.mem_cons.mp hl
      · exact List.forall_mem_singleton.mpr List.mem_cons_self
      · exact later hl
    · split at hl
      · rw [List.mem_singleton.mp hl]
        exact List.forall_mem_singleton.mpr List.mem_cons_self
      · rename_i first rest hlines
        obtain rfl | hl := List.mem_cons.mp hl
        · exact List.forall_mem_cons.mpr ⟨List.mem_cons_self, later (hlines ▸ List.mem_cons_self)⟩
        · exact later (hlines ▸ List.mem_cons_of_mem _ hl)

theorem solidLines_blank (h : ∀ c ∈ text, isBlank c = true) : solidLines text = [] := by
  rw [solidLines, List.filter_eq_nil_iff]
  intro line hl
  have hall : line.all isBlank = true :=
    List.all_eq_true.mpr fun c hc => h c (mem_of_mem_lines hl c hc)
  simp [hall]

theorem Silent.whole (h : Silent line) : Whole line :=
  h.imp id fun ⟨blanks, e, _⟩ => ⟨blanks, e⟩

theorem Silent.solidLines (h : Silent line) : solidLines line = [] := by
  obtain rfl | ⟨blanks, rfl, -, hb⟩ := h
  · rfl
  · exact solidLines_blank (List.forall_mem_append.mpr ⟨hb, List.forall_mem_singleton.mpr rfl⟩)

/-- **What is silent can be taken away** in front of a text. -/
theorem Silent.solidLines_append (h : Silent line) (text : List Char) :
    Text.solidLines (line ++ text) = Text.solidLines text := by
  rw [h.whole.solidLines_append, h.solidLines, List.nil_append]

end Mustache.Text
