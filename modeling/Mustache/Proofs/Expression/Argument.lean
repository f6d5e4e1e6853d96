import Mustache.Proofs.Expression.Grammar
import Mustache.Proofs.Text.Search

/-!
# Names by themselves and names in calls

A name by itself has no blank of any kind. In a call only four of the blanks end a name, and any
other one is part of it. So a call takes every name that can stand by itself, and some more.

* `Lexeme.lexFrom_name`, `Lexeme.exists_name_lexFrom`: a name at the front of a text, and the first
  one of a text with gaps;
* `Lexeme.lexemes_argument`, `Lexeme.lexemes_split`: the lexemes of a call around a name, and around
  a text with a gap inside;
* `Expression.parse?_call`, **`Expression.parse?_argument`**.
-/

namespace Mustache

namespace Lexeme

/-- The four blanks that separate names are blanks. -/
theorem not_isGap_of_not_isBlank {c : Char} (h : Text.isBlank c = false) : isGap c = false := by
  by_contra hg
  simp only [isGap, Bool.not_eq_false, Bool.or_eq_true, beq_iff_eq] at hg
  obtain ((rfl | rfl) | rfl) | rfl := hg <;> nomatch h

/-- The characters that are neither gaps nor parentheses are those of names. -/
theorem inName_iff {c : Char} : inName c = true ↔ isGap c = false ∧ c ≠ '(' ∧ c ≠ ')' := by
  simp [inName, and_assoc]

/-! ## Lexemes of names -/

section

variable {name text rest : List Char} {offset : Nat}

/-- A name is as long as it can be. -/
theorem lexFrom_name {stop : Char} (hne : name ≠ []) (hn : ∀ c ∈ name, inName c = true)
    (hs : inName stop = false) :
    lexFrom offset (name ++ stop :: rest) =
      ⟨.name (String.ofList name), offset, offset + Text.utf8Length name⟩ ::
        lexFrom (offset + Text.utf8Length name) (stop :: rest) := by
  obtain ⟨c, more, rfl⟩ := List.exists_cons_of_ne_nil hne
  obtain ⟨hc, hmore⟩ := List.forall_mem_cons.mp hn
  obtain ⟨hgap, ho, hcl⟩ := inName_iff.mp hc
  have htake : (more ++ stop :: rest).takeWhile inName = more := by
    rw [Text.takeWhile_append_stop hs, List.takeWhile_eq_self_iff.mpr hmore]
  have hdrop : (more ++ stop :: rest).dropWhile inName = stop :: rest := by
    rw [Text.dropWhile_append_stop hs, List.dropWhile_eq_nil_iff.mpr hmore, List.nil_append]
  rw [List.cons_append, lexFrom]
  simp only [hgap, ho, hcl, Bool.false_eq_true, if_false, htake, hdrop]

/-- The first lexeme of a text is a name, if there is something but gaps and no parenthesis. -/
theorem exists_name_lexFrom (hp : ∀ c ∈ text, c ≠ '(' ∧ c ≠ ')')
    (hg : ∃ c ∈ text, isGap c = false) :
    ∃ x more, (lexFrom offset (text ++ rest)).map Located.lexeme = .name x :: more := by
  induction text generalizing offset with
  | nil => simp at hg
  | cons c text ih =>
    obtain ⟨⟨ho, hc⟩, htext⟩ := List.forall_mem_cons.mp hp
    rw [List.cons_append, lexFrom]
    by_cases hgap : isGap c = true
    · simp only [hgap, if_true]
      apply ih htext
      simpa [hgap] using hg
    · simp only [hgap, ho, hc, if_false]
      exact ⟨_, _, rfl⟩

end

/-! ## Lexemes of a call -/

section

variable {f name : List Char} (hf : f ≠ []) (hname : ∀ c ∈ f, inName c = true)

include hf hname

/-- A call starts with its name and the parenthesis. -/
theorem lexemes_call (text : List Char) :
    ∃ offset, (lex (f ++ '(' :: text)).map Located.lexeme =
      .name (String.ofList f) :: .opening :: (lexFrom offset text).map Located.lexeme := by
  rw [lex, lexFrom_name hf hname rfl, lexFrom]
  exact ⟨_, rfl⟩

/-- A call around a name. -/
theorem lexemes_argument (hne : name ≠ []) (hn : ∀ c ∈ name, inName c = true) :
    (lex (f ++ '(' :: (name ++ [')']))).map Located.lexeme =
      calls (some (String.ofList name)) [String.ofList f] := by
  obtain ⟨offset, hlex⟩ := lexemes_call hf hname (name ++ [')'])
  rw [hlex, lexFrom_name hne hn rfl, lexFrom, lexFrom]
  rfl

/-- A call around a text with a gap inside has two names in a row. -/
theorem lexemes_split (hp : ∀ c ∈ name, c ≠ '(' ∧ c ≠ ')')
    (hfirst : ∀ c ∈ name.head?, isGap c = false) (hlast : ∀ c ∈ name.getLast?, isGap c = false)
    (hg : ∃ c ∈ name, isGap c = true) :
    ∃ x y more, (lex (f ++ '(' :: (name ++ [')']))).map Located.lexeme =
      .name (String.ofList f) :: .opening :: .name x :: .name y :: more := by
  obtain ⟨offset, hlex⟩ := lexemes_call hf hname (name ++ [')'])
  obtain ⟨front, gap, back, rfl, hgap, hfront⟩ : ∃ front gap back, name = front ++ gap :: back ∧
      isGap gap = true ∧ ∀ c ∈ front, isGap c = false := by
    obtain ⟨gap, hfind⟩ := Option.isSome_iff_exists.mp (List.find?_isSome.mpr hg)
    obtain ⟨hgap, front, back, he, hfront⟩ := List.find?_eq_some_iff_append.mp hfind
    exact ⟨front, gap, back, he, hgap, by simpa using hfront⟩
  obtain ⟨hpfront, hpback⟩ := List.forall_mem_append.mp hp
  have hne : front ≠ [] := by
    rintro rfl
    have hgap' := hfirst gap rfl
    rw [hgap] at hgap'
    nomatch hgap'
  have hback : ∃ c ∈ gap :: back, isGap c = false := by
    refine ⟨(gap :: back).getLast (by simp), List.getLast_mem _, hlast _ ?_⟩
    simp [List.getLast?_eq_some_getLast]
  have hinName : ∀ c ∈ front, inName c = true := fun c hc =>
    inName_iff.mpr ⟨hfront c hc, hpfront c hc⟩
  have hstop : inName gap = false := by simp [inName, hgap]
  obtain ⟨y, more, hmore⟩ := exists_name_lexFrom hpback hback
  refine ⟨String.ofList front, y, more, ?_⟩
  rw [hlex, List.append_assoc, List.cons_append, lexFrom_name hne hinName hstop]
  rw [← List.cons_append, List.map_cons, hmore]

end

end Lexeme

namespace Expression

section

variable {f name : List Char} (hf : f ≠ []) (hname : ∀ c ∈ f, Lexeme.inName c = true)

include hf hname

/-- A call around a text without parentheses takes it as a name, unless there is a gap inside. -/
theorem parse?_call (hne : name ≠ []) (hp : ∀ c ∈ name, c ≠ '(' ∧ c ≠ ')')
    (hfirst : ∀ c ∈ name.head?, Lexeme.isGap c = false)
    (hlast : ∀ c ∈ name.getLast?, Lexeme.isGap c = false) :
    parse? (f ++ '(' :: (name ++ [')'])) =
      if name.any Lexeme.isGap then none
      else some ⟨String.ofList name, [String.ofList f]⟩ := by
  have hopen : '(' ∈ f ++ '(' :: (name ++ [')']) ∨ ')' ∈ f ++ '(' :: (name ++ [')']) :=
    .inl (by simp)
  by_cases hg : ∃ c ∈ name, Lexeme.isGap c = true
  · obtain ⟨x, y, more, hlex⟩ := Lexeme.lexemes_split hf hname hp hfirst hlast hg
    have hnone : ∀ e, parse? (f ++ '(' :: (name ++ [')'])) ≠ some e := by
      intro e he
      rw [parse?_of_paren hopen, hlex] at he
      simp [ofLexemes?] at he
    rw [if_pos (List.any_eq_true.mpr hg)]
    exact Option.eq_none_iff_forall_ne_some.mpr hnone
  · have hn : ∀ c ∈ name, Lexeme.inName c = true := fun c hc =>
      Lexeme.inName_iff.mpr ⟨by simpa using fun h => hg ⟨c, hc, h⟩, hp c hc⟩
    rw [if_neg (mt List.any_eq_true.mp hg), parse?_of_paren hopen,
      Lexeme.lexemes_argument hf hname hne hn]
    exact ofLexemes?_eq_some_iff.mpr ⟨_, .inl (by simp), rfl, rfl⟩

/-- **A name by itself and as the argument of a call.** Let it have no parentheses, and no blanks at
its ends. The name by itself must not have a blank of any kind, and the argument none of the four
that separate names. So the two agree unless there are blanks, but none of the four: then the call
takes them as part of the name. -/
theorem parse?_argument (hne : name ≠ []) (hp : '(' ∉ name ∧ ')' ∉ name)
    (hfirst : ∀ c ∈ name.head?, Text.isBlank c = false)
    (hlast : ∀ c ∈ name.getLast?, Text.isBlank c = false) :
    parse? name =
        (if name.any Text.isBlank then none else some (.plain (String.ofList name))) ∧
      parse? (f ++ '(' :: (name ++ [')'])) =
        (if name.any Lexeme.isGap then none
          else some ⟨String.ofList name, [String.ofList f]⟩) ∧
      ((parse? name = some (.plain (String.ofList name)) ↔
          parse? (f ++ '(' :: (name ++ [')'])) = some ⟨String.ofList name, [String.ofList f]⟩) ↔
        (∃ c ∈ name, Lexeme.isGap c = true) ∨ ∀ c ∈ name, Text.isBlank c = false) := by
  have hparen : ∀ c ∈ name, c ≠ '(' ∧ c ≠ ')' := fun c hc =>
    ⟨fun e => hp.1 (e ▸ hc), fun e => hp.2 (e ▸ hc)⟩
  have hplain := parse?_of_no_paren (not_or.mpr hp)
  have hcall := parse?_call hf hname hne hparen
    (fun c hc => Lexeme.not_isGap_of_not_isBlank (hfirst c hc))
    (fun c hc => Lexeme.not_isGap_of_not_isBlank (hlast c hc))
  refine ⟨hplain, hcall, ?_⟩
  have halone : parse? name = some (.plain (String.ofList name)) ↔
      ∀ c ∈ name, Text.isBlank c = false := by
    rw [hplain]
    simp
  have hinside : parse? (f ++ '(' :: (name ++ [')'])) =
      some ⟨String.ofList name, [String.ofList f]⟩ ↔ ¬ ∃ c ∈ name, Lexeme.isGap c = true := by
    rw [hcall]
    simp
  have hnever : (∀ c ∈ name, Text.isBlank c = false) → ¬ ∃ c ∈ name, Lexeme.isGap c = true := by
    rintro hb ⟨c, hc, hg⟩
    rw [Lexeme.not_isGap_of_not_isBlank (hb c hc)] at hg
    nomatch hg
  rw [halone, hinside]
  constructor
  · intro h
    by_cases hg : ∃ c ∈ name, Lexeme.isGap c = true
    · exact .inl hg
    · exact .inr (h.mpr hg)
  · rintro (hg | hb)
    · exact iff_of_false (fun hb => hnever hb hg) (not_not.mpr hg)
    · exact iff_of_true hb (hnever hb)

end

/-- A name with a space inside is accepted neither way. -/
theorem parse?_argument_spaced :
    "f".toList ≠ [] ∧ (∀ c ∈ "f".toList, Lexeme.inName c = true) ∧ "a b".toList ≠ [] ∧
      ('(' ∉ "a b".toList ∧ ')' ∉ "a b".toList) ∧
      (∀ c ∈ "a b".toList.head?, Text.isBlank c = false) ∧
      (∀ c ∈ "a b".toList.getLast?, Text.isBlank c = false) ∧
      parse? "a b".toList = none ∧ parse? "f(a b)".toList = none := by
  have hf : "f".toList ≠ [] ∧ ∀ c ∈ "f".toList, Lexeme.inName c = true := by
    simp [Lexeme.inName, Lexeme.isGap]
  have hname : "a b".toList ≠ [] ∧ '(' ∉ "a b".toList ∧ ')' ∉ "a b".toList := by decide
  have hends : (∀ c ∈ "a b".toList.head?, Text.isBlank c = false) ∧
      ∀ c ∈ "a b".toList.getLast?, Text.isBlank c = false := by
    constructor <;> rintro c ⟨⟩ <;> rfl
  obtain ⟨hplain, hcall, -⟩ := parse?_argument hf.1 hf.2 hname.1 hname.2 hends.1 hends.2
  exact ⟨hf.1, hf.2, hname.1, hname.2, hends.1, hends.2, hplain, hcall⟩

/-- **A no-break space** is a blank that a name by itself must not have, but it is part of the name
in a call. -/
theorem parse?_argument_noBreak :
    Text.isBlank '\u00a0' = true ∧ parse? "a\u00a0b".toList = none ∧
      parse? "f(a\u00a0b)".toList = some ⟨"a\u00a0b", ["f"]⟩ := by
  refine ⟨rfl, rfl, ?_⟩
  have hcall : parse? ("f".toList ++ '(' :: ("a\u00a0b".toList ++ [')'])) = _ :=
    parse?_call (by decide) (by simp [Lexeme.inName, Lexeme.isGap]) (by decide) (by simp)
      (by simp [Lexeme.isGap]) (by simp [Lexeme.isGap])
  exact hcall

end Expression

end Mustache
