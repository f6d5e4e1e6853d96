import Mustache.Proofs.Template.Step
import Mustache.Template.Basic

/-!
# A partial on a line of its own

* `Target.Writable`: a name that a partial tag can hold; `Target.Writable.read`: it is read back;
* **`Template.compile_partialLine`**: an indented line with nothing but a partial.
-/

namespace Mustache

/-- A name that a tag between the standard delimiters can hold, where it is not taken for a
dynamic name. -/
structure Target.Writable (name : List Char) : Prop where
  ne_nil : name ≠ []
  no_blank : ∀ c ∈ name, Text.isBlank c = false
  no_star : name.head? ≠ some '*'
  no_stop : ¬ ['}', '}'] <:+: name ++ ['}']

/-- The end delimiter first occurs after a name that it is not in. -/
theorem Target.Writable.unmet {name : List Char} (hn : Writable name) (rest : List Char) :
    Text.Unmet ['}', '}'] name (['}', '}'] ++ rest) := by
  rintro a b rfl hb ⟨t, ht⟩
  match b, hb, ht with
  | [c], _, ht =>
    cases ht
    exact hn.no_stop ⟨a, [], by simp⟩
  | c :: d :: b, _, ht =>
    cases ht
    exact hn.no_stop ⟨a, b ++ ['}'], by simp⟩

theorem Text.trim_of_no_blank {cs : List Char} (h : ∀ c ∈ cs, isBlank c = false) :
    trim cs = cs := by
  have drop {ds : List Char} (hd : ∀ c ∈ ds, isBlank c = false) : ds.dropWhile isBlank = ds := by
    cases ds with
    | nil => rfl
    | cons c ds => rw [List.dropWhile_cons, hd c (.head _)]; rfl
  unfold trim trimEnd trimEndWhile trimStart
  rw [drop h, drop fun c hc => h c (List.mem_reverse.mp hc), List.reverse_reverse]

/-- **A partial tag is read back with its name.** -/
theorem Target.Writable.read {name : List Char} (hn : Writable name) (types : ContentTypes)
    (start offset : Nat) (rest : List Char) :
    ∃ c, Tag.read types .standard start ⟨offset, '>' :: (name ++ '}' :: '}' :: rest)⟩ =
      .ok (.inclusion ⟨String.ofList name, false⟩, c) ∧ c.rest = rest := by
  have hcut : Text.cut? ['}', '}'] (name ++ '}' :: '}' :: rest) = some (name, rest) :=
    Text.cut?_eq_some.mpr ⟨rfl, hn.unmet rest⟩
  have hstar : Text.after? ['*'] (name ++ '}' :: '}' :: rest) = none := by
    obtain ⟨ch, more, rfl⟩ := List.exists_cons_of_ne_nil hn.ne_nil
    have hch : ¬ '*' = ch := fun e => hn.no_star (e ▸ rfl)
    simp [Text.after?, hch]
  have htarget : Tag.target? false (Text.trim name) = some ⟨String.ofList name, false⟩ := by
    rw [Text.trim_of_no_blank hn.no_blank, Tag.target?, if_neg]
    simpa [hn.ne_nil] using hn.no_blank
  refine ⟨Cursor.past ⟨offset + Text.utf8Length ['>'], name ++ '}' :: '}' :: rest⟩
    (name ++ ['}', '}']) rest, ?_, rfl⟩
  show (Tag.readTarget _ start ⟨_, name ++ '}' :: '}' :: rest⟩).map _ = _
  rw [Tag.readTarget, Cursor.after?, hstar, Option.map_none]
  show (Tag.readText start (Tag.target? false) ['}', '}'] _).map _ = _
  rw [Tag.readText, Cursor.through?, hcut, Option.map_some]
  dsimp only
  rw [htarget]
  rfl

/-- The step over a partial on a line of its own. -/
theorem Draft.step_partialLine (types : ContentTypes) {blanks name : List Char} {s : Draft}
    (hs : s.lineStart = true) (hd : s.delimiters = .standard)
    (hr : s.cursor.rest = blanks ++ '{' :: '{' :: '>' :: (name ++ '}' :: '}' :: ['\n']))
    (hb : ∀ c ∈ blanks, Text.isInlineBlank c = true) (hn : Target.Writable name) :
    ∃ c, c.rest = [] ∧ s.step types = .ok { s with
      cursor := c
      tokens := .partialTag ⟨String.ofList name, false⟩ (indentation? blanks) :: s.tokens } := by
  obtain ⟨tag, hblanks, htag⟩ : ∃ tag, s.cursor.Reads blanks tag ∧
      tag.rest = '{' :: '{' :: '>' :: (name ++ '}' :: '}' :: ['\n']) :=
    ⟨_, Cursor.reads_past hr, rfl⟩
  have hstart := reads_start hd htag
  obtain ⟨c, hread, hc⟩ := hn.read types tag.offset
    (tag.offset + Text.utf8Length ['{', '{']) ['\n']
  have hend : c.lineEnd? = some (c.past ['\n'] []) := by
    unfold Cursor.lineEnd? Cursor.skip Cursor.take
    rw [hc]
    rfl
  refine ⟨c.past ['\n'] [], rfl, ?_⟩
  rw [step_of_start types (hd ▸ Delimiters.proper_standard) (fun _ => hs) hb hblanks hstart, hd]
  show (Tag.read types .standard tag.offset ⟨_, _⟩).bind _ = _
  rw [hread]
  show Except.ok ((s.leave blanks c).push _) = _
  unfold leave
  rw [if_pos hs, hend]
  simp only [push, hs, hd, if_true]

/-- **An indented line with nothing but a partial** is that partial with its indentation. -/
theorem Template.compile_partialLine {types : ContentTypes} {blanks name : String}
    (hb : ∀ c ∈ blanks.toList, Text.isInlineBlank c = true) (hn : Target.Writable name.toList) :
    Template.compile types (blanks ++ Tag.standard (">" ++ name) ++ "\n") =
      .ok ⟨[.partialTag ⟨name, false⟩ (indentation? blanks.toList)], types⟩ := by
  have hr : (Draft.start .standard (blanks ++ Tag.standard (">" ++ name) ++ "\n")).cursor.rest =
      blanks.toList ++ '{' :: '{' :: '>' :: (name.toList ++ '}' :: '}' :: ['\n']) := by
    simp [Draft.start, Cursor.ofString]
  obtain ⟨c, hc, hs⟩ := Draft.step_partialLine types rfl rfl hr hb hn
  have hne :
      (Draft.start .standard (blanks ++ Tag.standard (">" ++ name) ++ "\n")).cursor.rest ≠ [] := by
    rw [hr]; simp
  unfold Template.compile Token.parse Token.parseWith
  rw [Draft.run, if_neg (mt List.isEmpty_iff.mp hne), hs]
  dsimp only
  rw [if_pos (by rw [hc]; exact List.length_pos_iff.mpr hne), Draft.run, if_pos (by rw [hc]; rfl)]
  simp [Draft.start, Except.map]

end Mustache
