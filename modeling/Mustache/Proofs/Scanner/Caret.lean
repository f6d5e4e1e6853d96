import Mustache.Proofs.Text.Search
import Mustache.Scanner.Basic

/-!
# Scanners at carets

A caret is a place between two characters of a text. A scanner at a caret has the bytes of the
characters before it as offset, so it can slice the text, and each of its operations leads to a
caret again: it passes characters, and its offset grows by their bytes.

* `Caret`, `Caret.scanner`; `Caret.Over c chars d`: the characters from one caret to another;
* slices: `remaining?_scanner`, `current?_scanner`, `textSince?_scanner` and their siblings;
* one law for each operation: `advance?_next`, `retreat?_last`, `readLiteral?_scanner`,
  `readWhile?_scanner`, `readUntilChar?_scanner`, `readUntil?_scanner`, `readExact?_scanner` and
  what they do at the ends of the text.
-/

namespace Mustache.Scanner

/-- A place between the characters of a text: what comes before it and what comes after it. -/
structure Caret (text : List Char) where
  before : List Char
  after : List Char
  text_eq : before ++ after = text

namespace Caret

variable {text chars more rest : List Char} {c d e : Caret text} {ch : Char}

/-- The bytes before a caret. -/
def offset (c : Caret text) : Nat := Text.utf8Length c.before

/-- The scanner at a caret. -/
def scanner (c : Caret text) : Scanner := ⟨text, c.offset⟩

theorem scanner_offset (c : Caret text) : c.scanner.offset = c.offset := rfl

variable (text) in
/-- Before the text. -/
def start : Caret text := ⟨[], text, rfl⟩

variable (text) in
/-- Behind the text. -/
def finish : Caret text := ⟨text, [], List.append_nil text⟩

theorem eq_of_before (h : c.before = d.before) : c = d := by
  obtain ⟨before, after, rfl⟩ := c
  obtain ⟨_, after', htext⟩ := d
  subst h
  obtain rfl := List.append_cancel_left htext
  rfl

/-- The characters `chars` lie between the carets `c` and `d`. -/
def Over (c : Caret text) (chars : List Char) (d : Caret text) : Prop :=
  d.before = c.before ++ chars

theorem Over.after (h : c.Over chars d) : c.after = chars ++ d.after := by
  have htext : c.before ++ c.after = c.before ++ (chars ++ d.after) := by
    rw [c.text_eq, ← List.append_assoc, ← h, d.text_eq]
  exact List.append_cancel_left htext

/-- What comes after a caret can be passed. -/
theorem exists_over (h : c.after = chars ++ rest) :
    ∃ d : Caret text, c.Over chars d ∧ d.after = rest :=
  ⟨⟨c.before ++ chars, rest, by rw [List.append_assoc, ← h, c.text_eq]⟩, rfl, rfl⟩

/-- What comes before a caret can be passed backwards. -/
theorem exists_over_of_before (h : c.before = rest ++ chars) :
    ∃ d : Caret text, d.Over chars c ∧ d.before = rest :=
  ⟨⟨rest, chars ++ c.after, by rw [← List.append_assoc, ← h, c.text_eq]⟩, h, rfl⟩

theorem over_finish : c.Over c.after (finish text) := c.text_eq.symm

theorem over_nil : c.Over [] d ↔ d = c :=
  ⟨fun h => eq_of_before (by rw [h, List.append_nil]),
    fun h => by rw [h, Over, List.append_nil]⟩

/-- Between two carets there is one behind each part of what lies between them. -/
theorem Over.split (h : c.Over (chars ++ more) e) : ∃ d, c.Over chars d ∧ d.Over more e := by
  obtain ⟨d, hd, -⟩ := exists_over (h.after.trans (List.append_assoc _ _ _))
  exact ⟨d, hd, by rw [Over, h, hd, List.append_assoc]⟩

theorem Over.offset (h : c.Over chars d) : d.offset = c.offset + Text.utf8Length chars := by
  rw [Caret.offset, h, Text.utf8Length_append, Caret.offset]

theorem Over.skip (h : c.Over chars d) : c.scanner.skip (Text.utf8Length chars) = d.scanner := by
  rw [scanner.eq_def d, h.offset]
  rfl

theorem atEnd_scanner (c : Caret text) : c.scanner.atEnd = c.after.isEmpty := by
  have hstop : c.scanner.stop = c.offset + Text.utf8Length c.after := over_finish.offset
  rw [Bool.eq_iff_iff, atEnd, hstop, decide_eq_true_iff, List.isEmpty_iff,
    ← Text.utf8Length_eq_zero, scanner_offset]
  omega

/-- The characters of a class at the front of what comes, up to the first that is not of it. -/
theorem exists_span (c : Caret text) (p : Char → Bool) :
    ∃ chars d, c.Over chars d ∧ (∀ ch ∈ chars, p ch = true) ∧
      ∀ ch ∈ d.after.head?, p ch = false := by
  have hsplit := List.takeWhile_append_dropWhile (p := p) (l := c.after)
  obtain ⟨d, hd, hafter⟩ := Caret.exists_over hsplit.symm
  refine ⟨_, d, hd, fun ch => List.mem_takeWhile_imp, fun ch hch => ?_⟩
  have hnot := List.head?_dropWhile_not p c.after
  rw [← hafter, hch] at hnot
  simpa using hnot

/-! ## Slices -/

theorem textSince?_scanner (h : c.Over chars d) : d.scanner.textSince? c.offset = some chars := by
  refine Text.slice?_eq_some.mpr ⟨c.before, d.after, ?_, rfl, ?_⟩
  · rw [← h.after, c.text_eq]
    rfl
  · rw [← h]
    rfl

/-- Two carets in the order of their offsets have characters between them. -/
theorem exists_over_of_le (h : c.offset ≤ d.offset) : ∃ chars, c.Over chars d := by
  obtain hle | hle := Nat.le_total c.before.length d.before.length
  · have hpre : c.before <+: d.before :=
      List.prefix_of_prefix_length_le ⟨_, c.text_eq⟩ ⟨_, d.text_eq⟩ hle
    exact hpre.imp fun chars he => he.symm
  · obtain ⟨chars, he⟩ : d.before <+: c.before :=
      List.prefix_of_prefix_length_le ⟨_, d.text_eq⟩ ⟨_, c.text_eq⟩ hle
    have hover : d.Over chars c := he.symm
    have hbytes := hover.offset
    obtain rfl : chars = [] := Text.utf8Length_eq_zero.mp (by omega)
    exact ⟨[], by rw [Over, hover, List.append_nil, List.append_nil]⟩

theorem remaining?_scanner (c : Caret text) : c.scanner.remaining? = some c.after :=
  textSince?_scanner over_finish

theorem passed_scanner (c : Caret text) : c.scanner.slice? 0 c.offset = some c.before :=
  textSince?_scanner (c := start text) rfl

theorem current?_scanner (c : Caret text) : c.scanner.current? = some c.after.head? := by
  rw [current?, remaining?_scanner, Option.map_some]

theorem startsWith?_scanner (c : Caret text) (literal : List Char) :
    c.scanner.startsWith? literal = some (literal.isPrefixOf c.after) := by
  rw [startsWith?, remaining?_scanner, Option.map_some]

/-! ## Moves -/

theorem utf8Length_singleton (ch : Char) : Text.utf8Length [ch] = ch.utf8Size := rfl

/-- Moving over the next character. -/
theorem advance?_next (h : c.Over [ch] d) : c.scanner.advance? = some (.ok (), d.scanner) := by
  rw [advance?, current?_scanner, h.after, ← h.skip]
  rfl

/-- There is nothing to move over at the end. -/
theorem advance?_finish (h : c.after = []) :
    c.scanner.advance? = some (.error ⟨c.offset⟩, c.scanner) := by
  rw [advance?, current?_scanner, h]
  rfl

/-- Moving back over the last character. -/
theorem retreat?_last (h : d.Over [ch] c) : c.scanner.retreat? = some (.ok (), d.scanner) := by
  have hpassed : (c.scanner.slice? 0 c.offset) = some (d.before ++ [ch]) := by
    rw [passed_scanner, h]
  have hoffset : c.offset - ch.utf8Size = d.offset := by
    rw [h.offset, utf8Length_singleton, Nat.add_sub_cancel]
  rw [retreat?, scanner_offset, hpassed, Option.map_some]
  simp only [List.getLast?_concat, hoffset]
  rfl

/-- There is nothing to move back over at the start. -/
theorem retreat?_start (h : c.before = []) :
    c.scanner.retreat? = some (.error ⟨c.offset⟩, c.scanner) := by
  rw [retreat?, scanner_offset, passed_scanner, h]
  rfl

/-- Moving over a class stops at the first character that is not of it. -/
theorem passWhile?_scanner {p : Char → Bool} (hp : ∀ ch ∈ chars, p ch = true)
    (h : c.Over chars d) (hstop : ∀ ch ∈ d.after.head?, p ch = false) :
    c.scanner.passWhile? p = some d.scanner := by
  -- The scanner looks at one character at a time, so the characters it passes are split so too.
  induction chars generalizing c with
  | nil =>
    obtain rfl := over_nil.mp h
    rw [passWhile?]
    split
    next hn => rw [current?_scanner] at hn; cases hn
    next => rfl
    next ch hch =>
      rw [current?_scanner] at hch
      rw [if_neg (by simp [hstop ch (Option.some.inj hch)])]
  | cons ch chars ih =>
    obtain ⟨hch, hchars⟩ := List.forall_mem_cons.mp hp
    obtain ⟨m, hm, hrest⟩ := Over.split (show c.Over ([ch] ++ chars) d from h)
    have hcurrent : c.scanner.current? = some (some ch) := by
      rw [current?_scanner, h.after]
      rfl
    rw [passWhile?]
    split
    next hn => rw [hcurrent] at hn; cases hn
    next hn => rw [hcurrent] at hn; cases hn
    next ch' hch' =>
      obtain rfl : ch = ch' := Option.some.inj (Option.some.inj (hcurrent.symm.trans hch'))
      rw [if_pos hch, ← utf8Length_singleton, hm.skip]
      exact ih hchars hrest

/-- Moving over so many characters. -/
theorem advanceBy?_scanner (h : c.Over chars d) :
    c.scanner.advanceBy? chars.length = some (.ok (), d.scanner) := by
  induction chars generalizing c with
  | nil =>
    obtain rfl := over_nil.mp h
    rfl
  | cons ch chars ih =>
    obtain ⟨m, hm, hrest⟩ := Over.split (show c.Over ([ch] ++ chars) d from h)
    rw [List.length_cons, advanceBy?, advance?_next hm]
    exact ih hrest

/-- If there are fewer characters, the move gets to the end and fails there. -/
theorem advanceBy?_finish {count : Nat} (h : c.after.length < count) :
    c.scanner.advanceBy? count =
      some (.error ⟨(finish text).offset⟩, (finish text).scanner) := by
  induction count generalizing c with
  | zero => exact absurd h (Nat.not_lt_zero _)
  | succ count ih =>
    rw [advanceBy?]
    cases hc : c.after with
    | nil =>
      have hover : c.Over [] (finish text) := hc ▸ over_finish
      rw [advance?_finish hc, over_nil.mp hover]
      rfl
    | cons ch rest =>
      obtain ⟨m, hm, hrest⟩ := exists_over (show c.after = [ch] ++ rest from hc)
      rw [advance?_next hm]
      refine ih ?_
      rw [hc, List.length_cons] at h
      rw [hrest]
      omega

/-! ## Reads -/

variable {p : Char → Bool} {literal mark : List Char} {required consume : Bool} {count : Nat}

theorem readLiteral?_over (h : c.Over literal d) :
    c.scanner.readLiteral? literal = some (true, d.scanner) := by
  have hpre : literal.isPrefixOf c.after = true := List.isPrefixOf_iff_prefix.mpr ⟨_, h.after.symm⟩
  rw [readLiteral?, startsWith?_scanner, hpre, ← h.skip]
  rfl

theorem readLiteral?_of_not_prefix (h : ¬ literal <+: c.after) :
    c.scanner.readLiteral? literal = some (false, c.scanner) := by
  have hpre : literal.isPrefixOf c.after = false :=
    Bool.eq_false_iff.mpr (mt List.isPrefixOf_iff_prefix.mp h)
  rw [readLiteral?, startsWith?_scanner, hpre]
  rfl

theorem readWhile?_over (h : c.Over chars d) (hp : ∀ ch ∈ chars, p ch = true)
    (hstop : ∀ ch ∈ d.after.head?, p ch = false) :
    c.scanner.readWhile? p = some (chars, d.scanner) := by
  rw [readWhile?, passWhile?_scanner hp h hstop]
  simp only [Option.bind_eq_bind, Option.bind_some]
  rw [scanner_offset, textSince?_scanner h]
  rfl

theorem readUntilChar?_over (h : c.Over chars d) (hp : ∀ ch ∈ chars, p ch = false)
    (hstop : ∀ ch ∈ d.after.head?, p ch = true) (hend : required = true → d.after ≠ []) :
    c.scanner.readUntilChar? p required = some (.ok chars, d.scanner) := by
  have hread : c.scanner.readWhile? (fun ch => !p ch) = some (chars, d.scanner) :=
    readWhile?_over h (by simpa using hp) (by simpa using hstop)
  have hfound : (required && d.scanner.atEnd) = false := by
    rw [atEnd_scanner]
    cases required with
    | false => rfl
    | true => simpa using hend rfl
  rw [readUntilChar?, hread]
  simp only [Option.bind_eq_bind, Option.bind_some]
  rw [hfound]
  rfl

theorem readUntilChar?_none (h : ∀ ch ∈ c.after, p ch = false) :
    c.scanner.readUntilChar? p true = some (.error ⟨c.offset⟩, c.scanner) := by
  have hread : c.scanner.readWhile? (fun ch => !p ch) = some (c.after, (finish text).scanner) :=
    readWhile?_over over_finish (by simpa using h) (by simp [finish])
  rw [readUntilChar?, hread]
  simp only [Option.bind_eq_bind, Option.bind_some, atEnd_scanner]
  rfl

theorem readUntil?_over (h : c.Over chars d) (hfirst : Text.Unmet mark chars d.after)
    (hmark : d.Over mark e) :
    c.scanner.readUntil? mark required consume =
      some (.ok chars, if consume then e.scanner else d.scanner) := by
  have hcut : Text.cut? mark c.after = some (chars, e.after) := by
    rw [Text.cut?_eq_some, ← hmark.after]
    exact ⟨h.after, hfirst⟩
  rw [readUntil?, remaining?_scanner]
  simp only [Option.bind_eq_bind, Option.bind_some, hcut, h.skip, hmark.skip]
  rw [scanner_offset, textSince?_scanner h]
  rfl

theorem readUntil?_finish (h : ¬ mark <:+: c.after) :
    c.scanner.readUntil? mark false consume = some (.ok c.after, (finish text).scanner) := by
  rw [readUntil?, remaining?_scanner]
  simp only [Option.bind_eq_bind, Option.bind_some, Text.cut?_eq_none.mpr h]
  show ((finish text).scanner.textSince? c.offset).bind _ = _
  rw [textSince?_scanner over_finish]
  rfl

theorem readUntil?_none (h : ¬ mark <:+: c.after) :
    c.scanner.readUntil? mark true consume = some (.error ⟨(finish text).offset⟩, c.scanner) := by
  rw [readUntil?, remaining?_scanner]
  simp only [Option.bind_eq_bind, Option.bind_some, Text.cut?_eq_none.mpr h]
  rfl

theorem readExact?_over (h : c.Over chars d) :
    c.scanner.readExact? chars.length = some (.ok chars, d.scanner) := by
  rw [readExact?, advanceBy?_scanner h]
  simp only [Option.bind_eq_bind, Option.bind_some]
  rw [scanner_offset, textSince?_scanner h]
  rfl

theorem readExact?_finish (h : c.after.length < count) :
    c.scanner.readExact? count = some (.error ⟨(finish text).offset⟩, c.scanner) := by
  rw [readExact?, advanceBy?_finish h]
  rfl

end Caret

end Mustache.Scanner
