import Mathlib.Data.List.Induction
import Mathlib.Data.List.TakeWhile
import Mustache.Expression.Basic

/-!
# The grammar of expressions

An expression is written as a name, or as calls in one another around a name or around nothing. The
reader takes lexemes off the front and hands back those after the expression; what it accepts is
exactly what the calls are written with.

* `Lexeme.mem_lexFrom`: parentheses are lexemes; `Lexeme.calls`: the lexemes of calls in one
  another;
* `Expression.calls_of_ofLexemes?`, `Expression.ofLexemes?_calls`: what is read is what is
  written, and the other way round; **`Expression.ofLexemes?_eq_some_iff`**;
* `Expression.parse?_of_paren`, `Expression.transforms_of_parse?`: parentheses make a call;
* **`Expression.parse?_eq_some_iff`**.
-/

namespace Mustache

/-! ## Lexemes -/

namespace Lexeme

/-- A parenthesis of a text is a lexeme. -/
theorem mem_lexFrom {paren : Char} {l : Lexeme}
    (hp : paren = '(' ∧ l = opening ∨ paren = ')' ∧ l = closing) (offset : Nat)
    {text : List Char} (h : paren ∈ text) : l ∈ (lexFrom offset text).map Located.lexeme := by
  have hgap : isGap paren = false := by obtain ⟨rfl, -⟩ | ⟨rfl, -⟩ := hp <;> rfl
  have hname : inName paren = false := by obtain ⟨rfl, -⟩ | ⟨rfl, -⟩ := hp <;> rfl
  fun_induction lexFrom offset text with
  | case1 => nomatch h
  | case2 offset c rest next hc ih =>
    refine ih ((List.mem_cons.mp h).resolve_left ?_)
    rintro rfl
    rw [hgap] at hc
    nomatch hc
  | case3 offset rest next hc ih =>
    obtain rfl | h := List.mem_cons.mp h
    · obtain ⟨-, rfl⟩ | ⟨he, -⟩ := hp
      · exact .head _
      · nomatch he
    · exact .tail _ (ih h)
  | case4 offset rest next hc hne ih =>
    obtain rfl | h := List.mem_cons.mp h
    · obtain ⟨he, -⟩ | ⟨-, rfl⟩ := hp
      · nomatch he
      · exact .head _
    · exact .tail _ (ih h)
  | case5 offset c rest hc ho hcl name stop ih =>
    refine .tail _ (ih ?_)
    have hmem := (List.mem_cons.mp h).resolve_left (by
      rintro rfl
      obtain ⟨rfl, -⟩ | ⟨rfl, -⟩ := hp
      · exact ho rfl
      · exact hcl rfl)
    rw [← List.takeWhile_append_dropWhile (p := inName) (l := rest)] at hmem
    refine (List.mem_append.mp hmem).resolve_left fun ht => ?_
    rw [List.mem_takeWhile_imp ht] at hname
    nomatch hname

/-- The lexemes of calls in one another: the transforms, the innermost first, around a name or
around nothing. -/
def calls (argument : Option String) (transforms : List String) : List Lexeme :=
  transforms.foldl (fun inner f => .name f :: .opening :: (inner ++ [.closing]))
    (argument.toList.map .name)

@[simp] theorem calls_nil (argument : Option String) :
    calls argument [] = argument.toList.map .name := rfl

@[simp] theorem calls_concat (argument : Option String) (transforms : List String) (f : String) :
    calls argument (transforms ++ [f]) =
      .name f :: .opening :: (calls argument transforms ++ [.closing]) := by
  simp [calls]

/-- Calls start with the name of the outermost one. -/
theorem calls_eq_cons {argument : Option String} {transforms : List String}
    (h : argument ≠ none ∨ transforms ≠ []) :
    ∃ f rest, calls argument transforms = .name f :: rest := by
  obtain rfl | ⟨inner, f, rfl⟩ := List.eq_nil_or_concat transforms
  · cases argument with
    | none => simp at h
    | some x => exact ⟨x, [], rfl⟩
  · exact ⟨f, _, by rw [List.concat_eq_append, calls_concat]⟩

end Lexeme

namespace Expression

/-! ## Reading and writing lexemes -/

/-- **What is read is written so**: the lexemes that are taken off the front are calls with the
transforms of the expression, around its name or around nothing. -/
theorem calls_of_ofLexemes? {lexemes rest : List Lexeme} {e : Expression}
    (h : ofLexemes? lexemes = some (e, rest)) :
    ∃ argument : Option String, (argument ≠ none ∨ e.transforms ≠ []) ∧
      e.name = argument.getD "" ∧ lexemes = Lexeme.calls argument e.transforms ++ rest := by
  fun_induction ofLexemes? lexemes generalizing e rest with
  | case1 f rest' =>
    cases h
    exact ⟨none, .inr (by simp), rfl, by simp [Lexeme.calls]⟩
  | case2 f rest' _ inner after hinner ih =>
    cases h
    obtain ⟨argument, -, hname, hlexemes⟩ := ih hinner
    refine ⟨argument, .inr (by simp [call]), hname, ?_⟩
    rw [hlexemes, call, Lexeme.calls_concat]
    simp
  | case3 => nomatch h
  | case4 x rest' =>
    cases h
    exact ⟨some x, .inl (by simp), rfl, rfl⟩
  | case5 => nomatch h

/-- **What is written is read so**, whatever comes after it. Only a name by itself must not have an
opening parenthesis behind it. -/
theorem ofLexemes?_calls {argument : Option String} {transforms : List String}
    (h : argument ≠ none ∨ transforms ≠ []) {rest : List Lexeme}
    (hr : transforms = [] → rest.head? ≠ some .opening) :
    ofLexemes? (Lexeme.calls argument transforms ++ rest) =
      some (⟨argument.getD "", transforms⟩, rest) := by
  induction transforms using List.reverseRecOn generalizing rest with
  | nil =>
    cases argument with
    | none => simp at h
    | some x =>
      have hrest := hr rfl
      cases rest with
      | nil => rfl
      | cons l rest =>
        cases l with
        | opening => simp at hrest
        | closing | name => rfl
  | append_singleton inner f ih =>
    by_cases hi : argument ≠ none ∨ inner ≠ []
    · have hinner : ofLexemes? (Lexeme.calls argument inner ++ .closing :: rest) =
          some (⟨argument.getD "", inner⟩, .closing :: rest) := ih hi (by simp)
      obtain ⟨g, more, hg⟩ := Lexeme.calls_eq_cons hi
      rw [hg, List.cons_append] at hinner
      rw [Lexeme.calls_concat, hg]
      simp only [List.cons_append, List.append_assoc, List.nil_append]
      rw [ofLexemes?, hinner]
      · rfl
      · simp
    · -- The innermost call around nothing.
      simp only [ne_eq, not_or, not_not] at hi
      obtain ⟨rfl, rfl⟩ := hi
      rfl

/-- **The lexemes that are an expression** as a whole. -/
theorem ofLexemes?_eq_some_iff {lexemes : List Lexeme} {e : Expression} :
    ofLexemes? lexemes = some (e, []) ↔
      ∃ argument : Option String, (argument ≠ none ∨ e.transforms ≠ []) ∧
        e.name = argument.getD "" ∧ lexemes = Lexeme.calls argument e.transforms := by
  constructor
  · intro h
    simpa using calls_of_ofLexemes? h
  · rintro ⟨argument, h, hname, rfl⟩
    have hread : ofLexemes? (Lexeme.calls argument e.transforms ++ []) =
        some (⟨argument.getD "", e.transforms⟩, []) := ofLexemes?_calls h (by simp)
    rw [List.append_nil] at hread
    rw [hread, ← hname]

/-! ## Reading text -/

section

variable {text : List Char} {e : Expression}

/-- The texts that are read as calls. -/
theorem any_paren :
    (text.any fun c => c == '(' || c == ')') = true ↔ '(' ∈ text ∨ ')' ∈ text := by
  simp [List.any_eq_true, and_or_left, exists_or]

/-- A text with parentheses is read from its lexemes. -/
theorem parse?_of_paren (h : '(' ∈ text ∨ ')' ∈ text) :
    parse? text = some e ↔ ofLexemes? ((Lexeme.lex text).map Located.lexeme) = some (e, []) := by
  rw [parse?, if_pos (any_paren.mpr h)]
  split
  next he => simp [he]
  next hn => exact iff_of_false nofun fun he => hn e he

/-- A text without parentheses is read as a name. -/
theorem parse?_of_no_paren (h : ¬ ('(' ∈ text ∨ ')' ∈ text)) :
    parse? text = if text.any Text.isBlank then none else some (.plain (String.ofList text)) := by
  rw [parse?, if_neg (mt any_paren.mp h)]

/-- **Parentheses make a call.** -/
theorem transforms_of_parse? (h : parse? text = some e) (hparen : '(' ∈ text ∨ ')' ∈ text) :
    e.transforms ≠ [] := by
  intro he
  obtain ⟨argument, -, -, hlex⟩ := ofLexemes?_eq_some_iff.mp ((parse?_of_paren hparen).mp h)
  have hmem : Lexeme.opening ∈ (Lexeme.lex text).map Located.lexeme ∨
      Lexeme.closing ∈ (Lexeme.lex text).map Located.lexeme :=
    hparen.imp (Lexeme.mem_lexFrom (.inl ⟨rfl, rfl⟩) 0) (Lexeme.mem_lexFrom (.inr ⟨rfl, rfl⟩) 0)
  rw [hlex, he] at hmem
  simp at hmem

/-- **A text is an expression** if it is a name without parentheses and blanks, or if it has
parentheses and its lexemes are those of one or more calls in one another around a name or around
nothing. Then the transforms are the names of the calls, the innermost first, and nothing stands for
the empty name. -/
theorem parse?_eq_some_iff :
    parse? text = some e ↔
      (('(' ∉ text ∧ ')' ∉ text) ∧ (∀ c ∈ text, Text.isBlank c = false) ∧
          e = .plain (String.ofList text)) ∨
        (('(' ∈ text ∨ ')' ∈ text) ∧ e.transforms ≠ [] ∧
          ∃ argument : Option String, e.name = argument.getD "" ∧
            (Lexeme.lex text).map Located.lexeme = Lexeme.calls argument e.transforms) := by
  by_cases h : '(' ∈ text ∨ ')' ∈ text
  · rw [parse?_of_paren h, ofLexemes?_eq_some_iff]
    constructor
    · rintro ⟨argument, hcall, hname, hlex⟩
      have hread := ofLexemes?_eq_some_iff.mpr ⟨argument, hcall, hname, hlex⟩
      exact .inr ⟨h, transforms_of_parse? ((parse?_of_paren h).mpr hread) h, argument, hname, hlex⟩
    · rintro (⟨hn, -⟩ | ⟨-, hcall, argument, hname, hlex⟩)
      · exact absurd h (not_or.mpr hn)
      · exact ⟨argument, .inr hcall, hname, hlex⟩
  · rw [parse?_of_no_paren h]
    by_cases hb : ∀ c ∈ text, Text.isBlank c = false
    · have hany : text.any Text.isBlank = false := by simpa using hb
      simp only [hany, Bool.false_eq_true, if_false, Option.some.injEq]
      constructor
      · rintro rfl
        exact .inl ⟨not_or.mp h, hb, rfl⟩
      · rintro (⟨-, -, he⟩ | ⟨hp, -⟩)
        · exact he.symm
        · exact absurd hp h
    · have hany : text.any Text.isBlank = true := by simpa using hb
      simp only [hany, if_true]
      refine iff_of_false nofun ?_
      rintro (⟨-, hblank, -⟩ | ⟨hp, -⟩)
      · exact hb hblank
      · exact h hp

/-- Blanks between lexemes do not count. -/
example : parse? "reversed( sorted (x))".toList = some ⟨"x", ["sorted", "reversed"]⟩ := by cbv

end

end Expression

end Mustache
