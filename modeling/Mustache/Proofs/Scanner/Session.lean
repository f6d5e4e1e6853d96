import Mustache.Proofs.Place
import Mustache.Proofs.Scanner.Caret
import Mustache.Scanner.Session

/-!
# Sessions as cursors in lists of characters

Seen through characters a session is a caret, with the carets that were saved. Every step of a
session that does not ask for the text since a later position has an outcome, which is said here in
terms of the characters around the caret alone, and leads to a session that is seen so again.

* `View`, `View.session`; `View.Gives`: what a step answers at a caret and where it leaves it;
* `View.exists_gives`: one step; `View.Gives.eq_of_failed`: a step that fails leaves all as it was;
* `View.Follows`, `View.exists_follows`: one step after another;
* **`Session.view_of_run`**.
-/

namespace Mustache.Scanner

/-- Whether the outcome is a failure: an overflow, or a literal that was not there. -/
def Outcome.failed : Outcome → Bool
  | .overflow _ => true
  | .truth found => !found
  | _ => false

/-- A session seen through characters: its caret, and those that were saved, the latest first. -/
structure View (text : List Char) where
  caret : Caret text
  saved : List (Caret text)

namespace View

variable {text : List Char}

variable (text) in
/-- The view of a session at its start. -/
def start : View text := ⟨.start text, []⟩

/-- The session that is seen so. -/
def session (v : View text) : Session := ⟨v.caret.scanner, v.saved.map Caret.offset⟩

/-- A saved caret. As long as so many have not been saved it is the start. -/
def position (v : View text) (n : Nat) : Caret text := v.saved[n]?.getD (.start text)

/-- The view with another caret. -/
def moved (v : View text) (c : Caret text) : View text := { v with caret := c }

/-- The view with its caret saved. -/
def kept (v : View text) : View text := { v with saved := v.caret :: v.saved }

/-- What a step answers at a view, and the view after it. -/
inductive Gives (v : View text) : Step → Outcome → View text → Prop
  | advance {ch : Char} {c : Caret text} (h : v.caret.Over [ch] c) :
      Gives v .advance .done (v.moved c)
  | advanceBeyond (h : v.caret.after = []) :
      Gives v .advance (.overflow ⟨v.caret.offset⟩) v
  | retreat {ch : Char} {c : Caret text} (h : c.Over [ch] v.caret) :
      Gives v .retreat .done (v.moved c)
  | retreatBeyond (h : v.caret.before = []) :
      Gives v .retreat (.overflow ⟨v.caret.offset⟩) v
  | save : Gives v .save .done v.kept
  | restore (n : Nat) : Gives v (.restore n) .done (v.moved (v.position n))
  | current : Gives v .current (.char v.caret.after.head?) v
  | atEnd : Gives v .atEnd (.truth v.caret.after.isEmpty) v
  | startsWith (literal : String) :
      Gives v (.startsWith literal) (.truth (literal.toList.isPrefixOf v.caret.after)) v
  | readLiteral {literal : String} {c : Caret text} (h : v.caret.Over literal.toList c) :
      Gives v (.readLiteral literal) (.truth true) (v.moved c)
  | otherLiteral {literal : String} (h : ¬ literal.toList <+: v.caret.after) :
      Gives v (.readLiteral literal) (.truth false) v
  | remaining : Gives v .remaining (.text (String.ofList v.caret.after)) v
  | textSince {n : Nat} {chars : List Char} (h : (v.position n).Over chars v.caret) :
      Gives v (.textSince n) (.text (String.ofList chars)) v
  /-- All characters of the class, up to the first one that is not of it. -/
  | readWhile {p : Char → Bool} {chars : List Char} {c : Caret text}
      (h : v.caret.Over chars c) (hp : ∀ ch ∈ chars, p ch = true)
      (hstop : ∀ ch ∈ c.after.head?, p ch = false) :
      Gives v (.readWhile p) (.text (String.ofList chars)) (v.moved c)
  /-- No character of the class, up to the first one that is of it, or to the end. -/
  | readUntilChar {p : Char → Bool} {required : Bool} {chars : List Char} {c : Caret text}
      (h : v.caret.Over chars c) (hp : ∀ ch ∈ chars, p ch = false)
      (hstop : ∀ ch ∈ c.after.head?, p ch = true) (hend : required = true → c.after ≠ []) :
      Gives v (.readUntilChar p required) (.text (String.ofList chars)) (v.moved c)
  | charMissing {p : Char → Bool} (h : ∀ ch ∈ v.caret.after, p ch = false) :
      Gives v (.readUntilChar p true) (.overflow ⟨v.caret.offset⟩) v
  /-- All before the first occurrence of the mark, which is kept. -/
  | readUntil {mark : String} {required : Bool} {chars : List Char} {c : Caret text}
      (h : v.caret.Over chars c) (hmark : mark.toList <+: c.after)
      (hfirst : Text.Unmet mark.toList chars c.after) :
      Gives v (.readUntil mark required false) (.text (String.ofList chars)) (v.moved c)
  /-- All before the first occurrence of the mark, which is passed but not answered. -/
  | readOver {mark : String} {required : Bool} {chars : List Char} {c d : Caret text}
      (h : v.caret.Over chars c) (hmark : c.Over mark.toList d)
      (hfirst : Text.Unmet mark.toList chars c.after) :
      Gives v (.readUntil mark required true) (.text (String.ofList chars)) (v.moved d)
  | readToEnd {mark : String} {consume : Bool} (h : ¬ mark.toList <:+: v.caret.after) :
      Gives v (.readUntil mark false consume) (.text (String.ofList v.caret.after))
        (v.moved (.finish text))
  | markMissing {mark : String} {consume : Bool} (h : ¬ mark.toList <:+: v.caret.after) :
      Gives v (.readUntil mark true consume) (.overflow ⟨Text.utf8Length text⟩) v
  | readExact {chars : List Char} {c : Caret text} (h : v.caret.Over chars c) :
      Gives v (.readExact chars.length) (.text (String.ofList chars)) (v.moved c)
  | tooFew {count : Nat} (h : v.caret.after.length < count) :
      Gives v (.readExact count) (.overflow ⟨Text.utf8Length text⟩) v

variable {v w : View text} {step : Step} {outcome : Outcome}

theorem position_session (v : View text) (n : Nat) :
    v.session.position n = (v.position n).offset := by
  rw [Session.position, session, position, List.getElem?_map]
  cases v.saved[n]? <;> rfl

/-! ## One step -/

/-- **What a step gives at the caret is what the session answers**, and where it gets to. -/
theorem Gives.step? (h : v.Gives step outcome w) :
    v.session.step? step = some (outcome, w.session) := by
  cases h with
  | advance h => exact congrArg (Option.map _) (Caret.advance?_next h)
  | advanceBeyond h => exact congrArg (Option.map _) (Caret.advance?_finish h)
  | retreat h => exact congrArg (Option.map _) (Caret.retreat?_last h)
  | retreatBeyond h => exact congrArg (Option.map _) (Caret.retreat?_start h)
  | save => rfl
  | restore n =>
    rw [Session.step?, position_session]
    rfl
  | current => exact congrArg (Option.map _) (Caret.current?_scanner v.caret)
  | atEnd =>
    rw [← Caret.atEnd_scanner]
    rfl
  | startsWith literal => exact congrArg (Option.map _) (Caret.startsWith?_scanner v.caret _)
  | readLiteral h => exact congrArg (Option.map _) (Caret.readLiteral?_over h)
  | otherLiteral h => exact congrArg (Option.map _) (Caret.readLiteral?_of_not_prefix h)
  | remaining => exact congrArg (Option.map _) (Caret.remaining?_scanner v.caret)
  | textSince h =>
    rw [Session.step?, position_session]
    exact congrArg (Option.map _) (Caret.textSince?_scanner h)
  | readWhile h hp hstop => exact congrArg (Option.map _) (Caret.readWhile?_over h hp hstop)
  | readUntilChar h hp hstop hend =>
    exact congrArg (Option.map _) (Caret.readUntilChar?_over h hp hstop hend)
  | charMissing h => exact congrArg (Option.map _) (Caret.readUntilChar?_none h)
  | readUntil h hmark hfirst =>
    -- A mark that is kept is found like one that is passed.
    obtain ⟨rest, hrest⟩ := hmark
    obtain ⟨d, hd, -⟩ := Caret.exists_over hrest.symm
    exact congrArg (Option.map _) (Caret.readUntil?_over h hfirst hd)
  | readOver h hmark hfirst => exact congrArg (Option.map _) (Caret.readUntil?_over h hfirst hmark)
  | readToEnd h => exact congrArg (Option.map _) (Caret.readUntil?_finish h)
  | markMissing h => exact congrArg (Option.map _) (Caret.readUntil?_none h)
  | readExact h => exact congrArg (Option.map _) (Caret.readExact?_over h)
  | tooFew h => exact congrArg (Option.map _) (Caret.readExact?_finish h)

/-- A step that fails leaves all as it was. -/
theorem Gives.eq_of_failed (h : v.Gives step outcome w) (hf : outcome.failed = true) : w = v := by
  cases h with
  | advance | retreat | save | restore | readLiteral | readWhile | readUntilChar | readUntil
  | readOver | readToEnd | readExact => nomatch hf
  | _ => rfl

/-- Reading up to a class: there is a character of it, or the end. -/
theorem exists_gives_readUntilChar (v : View text) (p : Char → Bool) (required : Bool) :
    ∃ outcome w, v.Gives (.readUntilChar p required) outcome w := by
  obtain ⟨chars, c, hc, hp, hstop⟩ := v.caret.exists_span fun ch => !p ch
  simp only [Bool.not_eq_true', Bool.not_eq_false'] at hp hstop
  by_cases hend : required = true ∧ c.after = []
  · obtain ⟨rfl, hnil⟩ := hend
    refine ⟨_, v, .charMissing ?_⟩
    rw [hc.after, hnil, List.append_nil]
    exact hp
  · exact ⟨_, _, .readUntilChar hc hp hstop fun hr hnil => hend ⟨hr, hnil⟩⟩

/-- Reading up to a mark: it occurs, or it does not. -/
theorem exists_gives_readUntil (v : View text) (mark : String) (required consume : Bool) :
    ∃ outcome w, v.Gives (.readUntil mark required consume) outcome w := by
  by_cases hmark : mark.toList <:+: v.caret.after
  · obtain ⟨⟨chars, rest⟩, hcut⟩ := Option.ne_none_iff_exists'.mp
      (mt Text.cut?_eq_none.mp (not_not.mpr hmark))
    obtain ⟨hafter, hfirst⟩ := Text.cut?_eq_some.mp hcut
    obtain ⟨c, hc, hrest⟩ := Caret.exists_over hafter
    obtain ⟨d, hd, -⟩ := Caret.exists_over hrest
    rw [← hrest] at hfirst
    cases consume with
    | false => exact ⟨_, _, .readUntil hc ⟨_, hd.after.symm⟩ hfirst⟩
    | true => exact ⟨_, _, .readOver hc hd hfirst⟩
  · cases required with
    | false => exact ⟨_, _, .readToEnd hmark⟩
    | true => exact ⟨_, _, .markMissing hmark⟩

/-- **Every step gives something** at every caret, unless it asks for the text since a later one. -/
theorem exists_gives (v : View text) (step : Step)
    (h : ∀ n, step = .textSince n → (v.position n).offset ≤ v.caret.offset) :
    ∃ outcome w, v.Gives step outcome w := by
  cases step with
  | advance =>
    cases hafter : v.caret.after with
    | nil => exact ⟨_, _, .advanceBeyond hafter⟩
    | cons ch rest =>
      obtain ⟨c, hc, -⟩ := Caret.exists_over (show v.caret.after = [ch] ++ rest from hafter)
      exact ⟨_, _, .advance hc⟩
  | retreat =>
    obtain hbefore | ⟨rest, ch, hbefore⟩ := List.eq_nil_or_concat v.caret.before
    · exact ⟨_, _, .retreatBeyond hbefore⟩
    · rw [List.concat_eq_append] at hbefore
      obtain ⟨c, hc, -⟩ := Caret.exists_over_of_before hbefore
      exact ⟨_, _, .retreat hc⟩
  | save => exact ⟨_, _, .save⟩
  | restore n => exact ⟨_, _, .restore n⟩
  | current => exact ⟨_, _, .current⟩
  | atEnd => exact ⟨_, _, .atEnd⟩
  | startsWith literal => exact ⟨_, _, .startsWith literal⟩
  | readLiteral literal =>
    by_cases hpre : literal.toList <+: v.caret.after
    · obtain ⟨rest, hrest⟩ := hpre
      obtain ⟨c, hc, -⟩ := Caret.exists_over hrest.symm
      exact ⟨_, _, .readLiteral hc⟩
    · exact ⟨_, _, .otherLiteral hpre⟩
  | remaining => exact ⟨_, _, .remaining⟩
  | textSince n =>
    obtain ⟨chars, hchars⟩ := Caret.exists_over_of_le (h n rfl)
    exact ⟨_, _, .textSince hchars⟩
  | readWhile p =>
    obtain ⟨chars, c, hc, hp, hstop⟩ := v.caret.exists_span p
    exact ⟨_, _, .readWhile hc hp hstop⟩
  | readUntilChar p required => exact exists_gives_readUntilChar v p required
  | readUntil mark required consume => exact exists_gives_readUntil v mark required consume
  | readExact count =>
    obtain hfew | hmany := Nat.lt_or_ge v.caret.after.length count
    · exact ⟨_, _, .tooFew hfew⟩
    · obtain ⟨c, hc, -⟩ := Caret.exists_over (List.take_append_drop count v.caret.after).symm
      have hgives := Gives.readExact hc
      rw [List.length_take_of_le hmany] at hgives
      exact ⟨_, _, hgives⟩

/-- Moving back undoes a move over a character. -/
theorem retreat_advance {next : Session}
    (h : v.session.step? .advance = some (.done, next)) :
    next.step? .retreat = some (.done, v.session) := by
  obtain ⟨outcome, w, hgives⟩ := exists_gives v .advance nofun
  obtain ⟨rfl, rfl⟩ := Prod.mk.inj (Option.some.inj (h.symm.trans hgives.step?))
  cases hgives with
  | advance hc => exact congrArg (Option.map _) (Caret.retreat?_last hc)

/-! ## Runs -/

/-- Steps one after another, each as it is for the characters around the caret. -/
inductive Follows : View text → List Step → List Outcome → View text → Prop
  | nil (v : View text) : Follows v [] [] v
  | cons {v w u : View text} {step : Step} {steps : List Step} {outcome : Outcome}
      {outcomes : List Outcome} (h : v.Gives step outcome w) (hrest : Follows w steps outcomes u) :
      Follows v (step :: steps) (outcome :: outcomes) u

variable {steps : List Step} {outcomes : List Outcome}

theorem Follows.run? (h : v.Follows steps outcomes w) :
    v.session.run? steps = some (outcomes, w.session) := by
  induction h with
  | nil => rfl
  | cons h hrest ih =>
    rw [Session.run?, h.step?]
    simp only [Option.bind_eq_bind, Option.bind_some]
    rw [ih]
    rfl

/-- **Every run goes through**, if it does not ask for texts since positions. -/
theorem exists_follows (v : View text) (h : ∀ n, .textSince n ∉ steps) :
    ∃ outcomes w, v.Follows steps outcomes w := by
  induction steps generalizing v with
  | nil => exact ⟨[], v, .nil v⟩
  | cons step steps ih =>
    obtain ⟨outcome, w, hgives⟩ := exists_gives v step fun n he => absurd (he ▸ .head _) (h n)
    obtain ⟨outcomes, u, hfollows⟩ := ih w fun n hn => h n (.tail _ hn)
    exact ⟨_, u, .cons hgives hfollows⟩

end View

namespace Session

/-- **A scanner is a cursor in a list of characters.** Whatever is asked of a session from the
start of a text, every step has an outcome, and the steps follow each other as those of a caret
that knows nothing of bytes. After any of them the offset lies between characters and counts the
bytes of those before it. From there every further step has an outcome, as at the caret; one that
fails leaves the session as it was; moving back undoes a move over a character; and since a saved
position that is not after the offset there is a text, the characters that lie between. -/
theorem view_of_run (source : String) (steps : List Step) (h : ∀ n, .textSince n ∉ steps) :
    ∃ (outcomes : List Outcome) (v : View source.toList),
      (ofString source).run? steps = some (outcomes, v.session) ∧
      (View.start source.toList).Follows steps outcomes v ∧
      (String.Pos.Raw.mk v.session.scanner.offset).IsValid source ∧
      v.session.scanner.offset = Text.utf8Length v.caret.before ∧
      (∀ step, (∀ n, step ≠ .textSince n) → ∃ outcome w, v.Gives step outcome w ∧
        v.session.step? step = some (outcome, w.session) ∧
        (outcome.failed = true → w.session = v.session)) ∧
      (∀ next, v.session.step? .advance = some (.done, next) →
        next.step? .retreat = some (.done, v.session)) ∧
      ∀ n, v.session.position n ≤ v.session.scanner.offset →
        ∃ chars, v.caret.before = (v.position n).before ++ chars ∧
          v.session.step? (.textSince n) = some (.text (String.ofList chars), v.session) := by
  obtain ⟨outcomes, v, hfollows⟩ := View.exists_follows (View.start source.toList) h
  refine ⟨outcomes, v, hfollows.run?, hfollows, ?_, rfl, ?_, fun next => View.retreat_advance, ?_⟩
  · exact Text.isValid_iff.mpr ⟨v.caret.before, v.caret.after, v.caret.text_eq.symm, rfl⟩
  · intro step hstep
    obtain ⟨outcome, w, hgives⟩ := v.exists_gives step fun n he => absurd he (hstep n)
    exact ⟨outcome, w, hgives, hgives.step?,
      fun hf => congrArg View.session (hgives.eq_of_failed hf)⟩
  · intro n hn
    rw [View.position_session] at hn
    obtain ⟨chars, hchars⟩ := Caret.exists_over_of_le hn
    exact ⟨chars, hchars, (View.Gives.textSince hchars).step?⟩

/-- Two bytes are passed with one character, and a mark is missing behind it. -/
theorem view_of_run_accented :
    (∀ n, Step.textSince n ∉ [.advance, .save, .readUntil "]" true true, .retreat, .restore 0]) ∧
      (ofString "é[").run? [.advance, .save, .readUntil "]" true true, .retreat, .restore 0] =
        some ([.done, .done, .overflow ⟨3⟩, .done, .done], ⟨⟨['é', '['], 2⟩, [2]⟩) ∧
      (String.Pos.Raw.mk 2).IsValid "é[" := by
  have hsteps : ∀ n, Step.textSince n ∉
      [.advance, .save, .readUntil "]" true true, .retreat, .restore 0] := by simp
  have hrun : (ofString "é[").run? [.advance, .save, .readUntil "]" true true, .retreat,
      .restore 0] =
        some ([.done, .done, .overflow ⟨3⟩, .done, .done], ⟨⟨['é', '['], 2⟩, [2]⟩) := by rfl
  obtain ⟨outcomes, v, hv, -, hvalid, -⟩ := view_of_run "é[" _ hsteps
  obtain ⟨-, hsession⟩ := Prod.mk.inj (Option.some.inj (hrun.symm.trans hv))
  rw [← hsession] at hvalid
  exact ⟨hsteps, hrun, hvalid⟩

end Session

end Mustache.Scanner
