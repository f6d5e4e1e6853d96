import Mustache.Proofs.Expression.Argument
import Mustache.Text.Slice

/-!
# Where lexemes lie

The lexer has a rule for each kind of character, so there is none that it has to leave out: what
lies outside the lexemes is blank.

* `Rule`, `Piece`, `pieces`: a text cut by the rules, where a character that no rule takes would be
  an error; `Rule.at?_eq`: there is no such character; **`filterMap_pieces`**: the lexemes are the
  pieces that are not skipped;
* `Cut`: a text as lexemes with blanks around them; `cut_lexFrom`;
* `Cut.ordered`, `Cut.lies`, `Cut.covered`, `Cut.apart`: order, place and kind of the lexemes;
* **`lex_spans`**.
-/

namespace Mustache

namespace Lexeme

/-! ## Rules -/

/-- A rule of the lexer: blanks, which are skipped, one of the parentheses, or a name. -/
inductive Rule where
  | blanks
  | opening
  | closing
  | name
  deriving DecidableEq, Repr

namespace Rule

/-- The characters that a rule takes. -/
def has : Rule → Char → Bool
  | blanks, c => [' ', '\t', '\r', '\n'].contains c
  | opening, c => c == '('
  | closing, c => c == ')'
  | name, c => !(['(', ')', ' ', '\t', '\r', '\n'].contains c)

/-- What a rule takes behind its first character. A parenthesis stands by itself. -/
def more : Rule → List Char → List Char
  | blanks, rest => rest.takeWhile blanks.has
  | name, rest => rest.takeWhile name.has
  | opening, _ | closing, _ => []

/-- The rule that applies at a character. -/
def at? (c : Char) : Option Rule := [blanks, opening, closing, name].find? (·.has c)

end Rule

/-- A part of a text that a rule takes, or one character that none does. -/
structure Piece where
  rule? : Option Rule
  chars : List Char
  start : Nat

/-- The lexeme that a piece is. Blanks are skipped, and so are errors. -/
def Piece.located? : Piece → Option Located
  | ⟨some .opening, chars, start⟩ => some ⟨.opening, start, start + Text.utf8Length chars⟩
  | ⟨some .closing, chars, start⟩ => some ⟨.closing, start, start + Text.utf8Length chars⟩
  | ⟨some .name, chars, start⟩ =>
    some ⟨.name (String.ofList chars), start, start + Text.utf8Length chars⟩
  | ⟨some .blanks, _, _⟩ | ⟨none, _, _⟩ => none

/-- The pieces of a text whose first byte has the given offset. -/
def pieces (offset : Nat) (text : List Char) : List Piece :=
  match text with
  | [] => []
  | c :: rest =>
    match Rule.at? c with
    | some r =>
      let chars := c :: r.more rest
      ⟨some r, chars, offset⟩ ::
        pieces (offset + Text.utf8Length chars) (rest.drop (r.more rest).length)
    | none => ⟨none, [c], offset⟩ :: pieces (offset + c.utf8Size) rest
termination_by text.length
decreasing_by
  · simp only [List.length_drop, List.length_cons]
    omega
  · simp

variable {offset : Nat} {text gap rest : List Char} {located : List Located} {l : Lexeme} {c : Char}

theorem isGap_iff : isGap c = true ↔ c ∈ [' ', '\t', '\r', '\n'] := by
  simp [isGap, or_assoc]

theorem inName_iff_not_mem : inName c = true ↔ c ∉ ['(', ')', ' ', '\t', '\r', '\n'] := by
  rw [inName_iff, ← Bool.not_eq_true, isGap_iff]
  simp only [List.mem_cons, not_or]
  tauto

namespace Rule

theorem has_blanks (c : Char) : blanks.has c = isGap c := by
  rw [Bool.eq_iff_iff, isGap_iff, has, List.contains_iff_mem]

theorem has_name (c : Char) : name.has c = inName c := by
  rw [Bool.eq_iff_iff, inName_iff_not_mem, has, ← List.contains_iff_mem, Bool.not_eq_true,
    Bool.not_eq_true']

/-- The rule of a character. -/
def of (c : Char) : Rule :=
  if isGap c then blanks else if c = '(' then opening else if c = ')' then closing else name

theorem has_iff {r : Rule} : r.has c = true ↔ r = of c := by
  rw [of]
  split_ifs <;> cases r <;> grind [has, isGap]

theorem at?_eq (c : Char) : at? c = some (of c) := by
  have hhas : (fun r : Rule => r.has c) = fun r => decide (r = of c) := by
    funext r
    rw [Bool.eq_iff_iff, has_iff, decide_eq_true_iff]
  rw [at?, hhas]
  cases of c <;> rfl

end Rule

theorem lexFrom_gap (h : ∀ c ∈ gap, isGap c = true) :
    lexFrom offset (gap ++ rest) = lexFrom (offset + Text.utf8Length gap) rest := by
  induction gap generalizing offset with
  | nil => rfl
  | cons c gap ih =>
    obtain ⟨hc, hgap⟩ := List.forall_mem_cons.mp h
    rw [List.cons_append, lexFrom, if_pos hc, ih hgap, Text.utf8Length, Nat.add_assoc]

theorem drop_takeWhile (p : Char → Bool) (cs : List Char) :
    cs.drop (cs.takeWhile p).length = cs.dropWhile p :=
  List.append_cancel_left ((List.prefix_iff_eq_append.mp (List.takeWhile_prefix p)).trans
    List.takeWhile_append_dropWhile.symm)

/-- What the lexer makes of the characters that a rule takes. -/
theorem lexFrom_of_has {r : Rule} (h : r.has c = true) :
    lexFrom offset (c :: rest) =
      (Piece.located? ⟨some r, c :: r.more rest, offset⟩).toList ++
        lexFrom (offset + Text.utf8Length (c :: r.more rest)) (rest.drop (r.more rest).length) := by
  cases r with
  | blanks =>
    have hgap : ∀ d ∈ c :: Rule.blanks.more rest, isGap d = true := by
      rintro d hd
      rw [← Rule.has_blanks]
      obtain rfl | hd := List.mem_cons.mp hd
      · exact h
      · exact List.mem_takeWhile_imp hd
    have hsplit : c :: rest =
        c :: Rule.blanks.more rest ++ rest.drop (Rule.blanks.more rest).length :=
      congrArg (c :: ·) (List.prefix_iff_eq_append.mp (List.takeWhile_prefix _)).symm
    rw [← lexFrom_gap hgap, ← hsplit]
    rfl
  | opening =>
    obtain rfl : c = '(' := by simpa [Rule.has] using h
    rw [lexFrom]
    rfl
  | closing =>
    obtain rfl : c = ')' := by simpa [Rule.has] using h
    rw [lexFrom]
    rfl
  | name =>
    have hmore : Rule.name.more rest = rest.takeWhile inName := by
      rw [← funext Rule.has_name]
      rfl
    rw [Rule.has_name, inName_iff] at h
    obtain ⟨hgap, ho, hc⟩ := h
    rw [lexFrom, hmore, drop_takeWhile]
    simp only [hgap, ho, hc, Bool.false_eq_true, if_false]
    rfl

/-- **The lexemes are the pieces that are not skipped.** -/
theorem filterMap_pieces (offset : Nat) (text : List Char) :
    (pieces offset text).filterMap Piece.located? = lexFrom offset text := by
  fun_induction pieces offset text with
  | case1 => rw [lexFrom]; rfl
  | case2 offset c rest r hr chars ih =>
    have hhas := Rule.has_iff.mpr (Option.some.inj (hr.symm.trans (Rule.at?_eq c)))
    rw [List.filterMap_cons, ih, lexFrom_of_has hhas]
    cases r <;> rfl
  | case3 offset c rest hnone ih =>
    rw [Rule.at?_eq] at hnone
    cases hnone

/-- No piece is an error. -/
theorem rule_of_mem_pieces {piece : Piece} (h : piece ∈ pieces offset text) :
    ∃ r, piece.rule? = some r := by
  fun_induction pieces offset text with
  | case1 => nomatch h
  | case2 offset c rest r hr chars ih =>
    obtain rfl | h := List.mem_cons.mp h
    · exact ⟨r, rfl⟩
    · exact ih h
  | case3 offset c rest hnone ih =>
    rw [Rule.at?_eq] at hnone
    cases hnone

/-! ## Lexemes with blanks around them -/

/-- The characters of a lexeme. -/
def chars : Lexeme → List Char
  | opening => ['(']
  | closing => [')']
  | name s => s.toList

/-- Whether a lexeme is a name. -/
def IsName (l : Lexeme) : Prop := ∃ s, l = name s

/-- Names are not empty, and have neither parentheses nor gaps. -/
def Proper (l : Lexeme) : Prop := l.IsName → l.chars ≠ [] ∧ ∀ c ∈ l.chars, inName c = true

/-- A text as lexemes with gaps around them: a name goes on as far as it can. -/
inductive Cut : Nat → List Char → List Located → Prop
  | gap {offset : Nat} {gap : List Char} (hgap : ∀ c ∈ gap, isGap c = true) : Cut offset gap []
  | lexeme {offset : Nat} {gap rest : List Char} {l : Lexeme} {located : List Located}
      (hgap : ∀ c ∈ gap, isGap c = true) (hl : l.Proper)
      (hstop : l.IsName → ∀ c ∈ rest.head?, inName c = false)
      (hrest : Cut (offset + Text.utf8Length gap + Text.utf8Length l.chars) rest located) :
      Cut offset (gap ++ (l.chars ++ rest))
        (⟨l, offset + Text.utf8Length gap,
          offset + Text.utf8Length gap + Text.utf8Length l.chars⟩ :: located)

theorem Cut.behind_gap (hc : isGap c = true) (h : Cut (offset + c.utf8Size) text located) :
    Cut offset (c :: text) located := by
  cases h with
  | gap hgap => exact .gap (List.forall_mem_cons.mpr ⟨hc, hgap⟩)
  | lexeme hgap hl hstop hrest =>
    rw [Nat.add_assoc offset] at hrest ⊢
    exact .lexeme (List.forall_mem_cons.mpr ⟨hc, hgap⟩) hl hstop hrest

/-- A parenthesis at the front. -/
theorem Cut.paren (hl : l = opening ∨ l = closing)
    (h : Cut (offset + Text.utf8Length l.chars) text located) :
    Cut offset (l.chars ++ text) (⟨l, offset, offset + Text.utf8Length l.chars⟩ :: located) := by
  have hname : ¬ l.IsName := by
    rintro ⟨s, rfl⟩
    simp at hl
  have hcut : Cut offset ([] ++ (l.chars ++ text)) _ :=
    .lexeme (by simp) (fun hn => absurd hn hname) (fun hn => absurd hn hname) h
  exact hcut

/-- **The lexer cuts a text into its lexemes.** -/
theorem cut_lexFrom (offset : Nat) (text : List Char) : Cut offset text (lexFrom offset text) := by
  fun_induction lexFrom offset text with
  | case1 => exact .gap (by simp)
  | case2 offset c rest next hc ih => exact ih.behind_gap hc
  | case3 offset rest next hgap ih => exact ih.paren (.inl rfl)
  | case4 offset rest next hgap ho ih => exact ih.paren (.inr rfl)
  | case5 offset c rest hgap ho hc x stop ih =>
    have hchars : (name (String.ofList x)).chars = x := String.toList_ofList
    have hx : ∀ d ∈ x, inName d = true := by
      refine List.forall_mem_cons.mpr ⟨inName_iff.mpr ⟨?_, ho, hc⟩, fun d => List.mem_takeWhile_imp⟩
      exact Bool.not_eq_true _ ▸ hgap
    have hl : (name (String.ofList x)).Proper := fun _ => by
      rw [hchars]
      exact ⟨List.cons_ne_nil _ _, hx⟩
    have hstop : ∀ d ∈ (rest.dropWhile inName).head?, inName d = false := by
      intro d hd
      have hnot := List.head?_dropWhile_not inName rest
      rw [hd] at hnot
      simpa using hnot
    have hsplit : c :: rest = x ++ rest.dropWhile inName :=
      congrArg (c :: ·) List.takeWhile_append_dropWhile.symm
    have hcut : Cut offset ([] ++ ((name (String.ofList x)).chars ++ rest.dropWhile inName)) _ :=
      .lexeme (by simp) hl (fun _ => hstop) (by rw [hchars]; exact ih)
    rw [hchars, List.nil_append, ← hsplit] at hcut
    exact hcut

/-! ## Places of lexemes -/

/-- The characters `part` of a text lie between two offsets, that of its first byte being given. -/
def Lies (offset : Nat) (text part : List Char) (start stop : Nat) : Prop :=
  ∃ front back, text = front ++ (part ++ back) ∧ start = offset + Text.utf8Length front ∧
    stop = start + Text.utf8Length part

section

variable {front back part : List Char} {start stop : Nat} {t a b : Located}

theorem lies_front (offset : Nat) (part back : List Char) :
    Lies offset (part ++ back) part offset (offset + Text.utf8Length part) :=
  ⟨[], back, rfl, rfl, rfl⟩

theorem Lies.behind (h : Lies (offset + Text.utf8Length front) text part start stop) :
    Lies offset (front ++ text) part start stop := by
  obtain ⟨more, back, rfl, rfl, rfl⟩ := h
  refine ⟨front ++ more, back, (List.append_assoc _ _ _).symm, ?_, rfl⟩
  rw [Text.utf8Length_append, Nat.add_assoc]

theorem Lies.slice? (h : Lies 0 text part start stop) :
    Text.slice? start stop text = some part := by
  obtain ⟨front, back, htext, rfl, rfl⟩ := h
  rw [Nat.zero_add, ← Text.utf8Length_append]
  exact Text.slice?_eq_some.mpr ⟨front, back, htext, rfl, rfl⟩

/-- Lexemes come one after another. -/
theorem Cut.ordered (h : Cut offset text located) :
    (∀ t ∈ located, offset ≤ t.start) ∧ located.Pairwise (fun a b => a.stop ≤ b.start) := by
  induction h with
  | gap => simp
  | lexeme hgap hl hstop hrest ih =>
    obtain ⟨hbehind, hpairwise⟩ := ih
    refine ⟨List.forall_mem_cons.mpr ⟨Nat.le_add_right _ _, fun t ht => ?_⟩,
      List.pairwise_cons.mpr ⟨hbehind, hpairwise⟩⟩
    have hle := hbehind t ht
    omega

/-- A lexeme is the slice of the text between its offsets. -/
theorem Cut.lies (h : Cut offset text located) (ht : t ∈ located) :
    t.lexeme.Proper ∧ Lies offset text t.lexeme.chars t.start t.stop := by
  induction h with
  | gap => nomatch ht
  | lexeme hgap hl hstop hrest ih =>
    obtain rfl | ht := List.mem_cons.mp ht
    · exact ⟨hl, _, _, rfl, rfl, rfl⟩
    · obtain ⟨hproper, hlies⟩ := ih ht
      exact ⟨hproper, hlies.behind.behind⟩

/-- A character of a text in two parts is in the one or in the other. -/
theorem append_eq_append_cons {xs ys : List Char} (h : xs ++ ys = front ++ c :: back) :
    (∃ more, xs = front ++ c :: more) ∨ ∃ more, front = xs ++ more ∧ ys = more ++ c :: back := by
  obtain ⟨more, hfront, hys⟩ | ⟨more, hxs, hmore⟩ := List.append_eq_append_iff.mp h
  · exact .inr ⟨more, hfront, hys⟩
  · cases more with
    | nil => exact .inr ⟨[], by rw [hxs, List.append_nil, List.append_nil], hmore.symm⟩
    | cons d more =>
      obtain ⟨rfl, -⟩ := List.cons.inj hmore
      exact .inl ⟨more, hxs⟩

/-- A character that is not a gap belongs to a lexeme. -/
theorem Cut.covered (h : Cut offset text located) (htext : text = front ++ c :: back)
    (hc : isGap c = false) :
    ∃ t ∈ located, ∃ before after, t.lexeme.chars = before ++ c :: after ∧
      t.start + Text.utf8Length before = offset + Text.utf8Length front := by
  induction h generalizing front with
  | gap hgap =>
    exact absurd (hgap c (by simp [htext])) (Bool.eq_false_iff.mp hc)
  | lexeme hgap hl hstop hrest ih =>
    -- The character is in the gap, in the lexeme, or behind it.
    obtain ⟨more, rfl⟩ | ⟨before, hfront, hbehind⟩ := append_eq_append_cons htext
    · exact absurd (hgap c (by simp)) (Bool.eq_false_iff.mp hc)
    · rw [hfront, Text.utf8Length_append]
      obtain ⟨after, hchars⟩ | ⟨more, rfl, hlater⟩ := append_eq_append_cons hbehind
      · exact ⟨_, .head _, before, after, hchars, Nat.add_assoc _ _ _⟩
      · obtain ⟨t, ht, first, after, hchars, hstart⟩ := ih hlater
        refine ⟨t, .tail _ ht, first, after, hchars, ?_⟩
        rw [hstart, Text.utf8Length_append]
        omega

/-- Between two names in a row there is a gap. -/
theorem Cut.apart (h : Cut offset text located) (hab : [a, b] <:+: located)
    (ha : a.lexeme.IsName) (hb : b.lexeme.IsName) :
    ∃ gap, gap ≠ [] ∧ (∀ c ∈ gap, isGap c = true) ∧ Lies offset text gap a.stop b.start := by
  induction h with
  | gap => simp at hab
  | lexeme hgap hl hstop hrest ih =>
    obtain hpre | hab := List.infix_cons_iff.mp hab
    · obtain ⟨rfl, hnext⟩ := List.cons_prefix_cons.mp hpre
      cases hrest with
      | gap => simp at hnext
      | @lexeme _ gap rest _ _ hgap' hl' =>
        obtain ⟨rfl, -⟩ := List.cons_prefix_cons.mp hnext
        refine ⟨gap, ?_, hgap', (lies_front _ gap _).behind.behind⟩
        rintro rfl
        -- Without a gap the first name would stop at the first character of the second.
        obtain ⟨hne, hall⟩ := hl' hb
        obtain ⟨d, more, hd⟩ := List.exists_cons_of_ne_nil hne
        have hout := hstop ha d (by simp [hd])
        exact absurd (hall d (hd ▸ .head _)) (Bool.eq_false_iff.mp hout)
    · obtain ⟨gap, hne, hall, hlies⟩ := ih hab
      exact ⟨gap, hne, hall, hlies.behind.behind⟩

end

/-! ## The lexemes of a text -/

section

variable {front back : List Char} {t : Located}

theorem Proper.chars_ne_nil (h : l.Proper) : l.chars ≠ [] := by
  cases l with
  | opening | closing => exact List.cons_ne_nil _ _
  | name s => exact (h ⟨s, rfl⟩).1

/-- A parenthesis belongs to no name. -/
theorem Proper.eq_of_mem {a : Lexeme} (h : a.Proper)
    (hl : l = opening ∧ c = '(' ∨ l = closing ∧ c = ')') (hc : c ∈ a.chars) : a = l := by
  cases a with
  | opening | closing =>
    obtain rfl := List.mem_singleton.mp hc
    simp at hl
    exact hl.symm
  | name s =>
    obtain ⟨-, ho, hc⟩ := inName_iff.mp ((h ⟨s, rfl⟩).2 c hc)
    obtain ⟨-, rfl⟩ | ⟨-, rfl⟩ := hl
    · exact absurd rfl ho
    · exact absurd rfl hc

/-- A parenthesis is a lexeme by itself. -/
theorem Cut.mem_of_paren (h : Cut 0 text located) (htext : text = front ++ c :: back)
    (hl : l = opening ∧ c = '(' ∨ l = closing ∧ c = ')') :
    ⟨l, Text.utf8Length front, Text.utf8Length front + 1⟩ ∈ located := by
  have hgap : isGap c = false := by obtain ⟨-, rfl⟩ | ⟨-, rfl⟩ := hl <;> rfl
  have hchars : l.chars = [c] := by obtain ⟨rfl, rfl⟩ | ⟨rfl, rfl⟩ := hl <;> rfl
  have hbytes : Text.utf8Length [c] = 1 := by obtain ⟨-, rfl⟩ | ⟨-, rfl⟩ := hl <;> rfl
  obtain ⟨⟨a, start, stop⟩, ht, before, after, hat, hstart⟩ := h.covered htext hgap
  obtain ⟨hproper, -, -, -, -, hstop⟩ := h.lies ht
  obtain rfl : a = l := hproper.eq_of_mem hl (by rw [hat]; simp)
  obtain ⟨rfl, -⟩ | ⟨-, hnil⟩ := List.singleton_eq_append_iff.mp (hchars.symm.trans hat)
  · obtain rfl : start = Text.utf8Length front := by simpa [Text.utf8Length] using hstart
    rw [hchars, hbytes] at hstop
    exact hstop ▸ ht
  · cases hnil

/-- **Where the lexemes of a text lie.** -/
theorem lex_spans (text : List Char) :
    (lex text).Pairwise (fun a b => a.stop ≤ b.start) ∧
      (∀ t ∈ lex text, t.start < t.stop ∧
        Text.slice? t.start t.stop text = some t.lexeme.chars) ∧
      (∀ t ∈ lex text, ∀ s, t.lexeme = name s →
        s ≠ "" ∧ ∀ c ∈ s.toList, c ∉ ['(', ')', ' ', '\t', '\r', '\n']) ∧
      (∀ front c back, text = front ++ c :: back →
        (∀ t ∈ lex text, ¬ (t.start ≤ Text.utf8Length front ∧ Text.utf8Length front < t.stop)) →
        c ∈ [' ', '\t', '\r', '\n']) ∧
      (∀ front back, text = front ++ '(' :: back →
        ⟨opening, Text.utf8Length front, Text.utf8Length front + 1⟩ ∈ lex text) ∧
      (∀ front back, text = front ++ ')' :: back →
        ⟨closing, Text.utf8Length front, Text.utf8Length front + 1⟩ ∈ lex text) ∧
      (∀ a b, [a, b] <:+: lex text → a.lexeme.IsName → b.lexeme.IsName →
        ∃ gap, Text.slice? a.stop b.start text = some gap ∧ gap ≠ [] ∧
          ∀ c ∈ gap, c ∈ [' ', '\t', '\r', '\n']) ∧
      (∀ c, ∃! r : Rule, r.has c = true) ∧
      lex text = (pieces 0 text).filterMap Piece.located? ∧
      ∀ piece ∈ pieces 0 text, ∃ r, piece.rule? = some r := by
  have hcut : Cut 0 text (lex text) := cut_lexFrom 0 text
  refine ⟨hcut.ordered.2, fun t ht => ?_, fun t ht s hs => ?_, fun front c back htext hout => ?_,
    fun front back htext => hcut.mem_of_paren htext (.inl ⟨rfl, rfl⟩),
    fun front back htext => hcut.mem_of_paren htext (.inr ⟨rfl, rfl⟩), fun a b hab ha hb => ?_,
    fun c => ⟨Rule.of c, Rule.has_iff.mpr rfl, fun r => Rule.has_iff.mp⟩,
    (filterMap_pieces 0 text).symm, fun piece => rule_of_mem_pieces⟩
  · obtain ⟨hproper, hlies⟩ := hcut.lies ht
    have hstop := Text.utf8Length_slice? hlies.slice?
    have hpos := Nat.pos_of_ne_zero (mt Text.utf8Length_eq_zero.mp hproper.chars_ne_nil)
    exact ⟨by omega, hlies.slice?⟩
  · obtain ⟨hne, hall⟩ := (hcut.lies ht).1 ⟨s, hs⟩
    rw [hs] at hne hall
    exact ⟨fun h => hne (congrArg String.toList h), fun c hc => inName_iff_not_mem.mp (hall c hc)⟩
  · by_contra hblank
    obtain ⟨t, ht, before, after, hat, hstart⟩ :=
      hcut.covered htext (Bool.eq_false_iff.mpr (mt isGap_iff.mp hblank))
    obtain ⟨-, -, -, -, -, hstop⟩ := hcut.lies ht
    rw [hat, Text.utf8Length_append, Text.utf8Length] at hstop
    have hsize := c.utf8Size_pos
    exact hout t ht (by omega)
  · obtain ⟨gap, hne, hgap, hlies⟩ := hcut.apart hab ha hb
    exact ⟨gap, hlies.slice?, hne, fun c hc => isGap_iff.mp (hgap c hc)⟩

end

end Lexeme

end Mustache
