import Mustache.Proofs.Tag.Sigil
import Mustache.Proofs.Template.Marks
import Mustache.Proofs.Template.Outline

/-!
# Two texts that read alike

What reading does next depends on the delimiters and the text that is left. Two texts with
delimiters of their own read alike if, step by step, both have the same character, or both have a
tag that is read the same.

* `Outlook`: the text that is left and the delimiters; `Outlook.behind`: behind a tag;
* `Outlook.Paired`: the same character or the same tag comes next; `Outlook.Lawful`: a relation
  that goes on;
* **`Outlook.Lawful.text_induction`**; `Outlook.Lawful.skip`, `Outlook.Lawful.line`,
  **`Outlook.Lawful.lineEnd`**: the moves over text;
  **`Draft.ahead_paired`**: what lies ahead of two drafts.
-/

namespace Mustache

/-- What reading goes by: the delimiters around, the delimiters, and the text that is left. -/
structure Outlook where
  outer : List Delimiters
  delimiters : Delimiters
  text : List Char

namespace Outlook

/-- The outlook with another text. -/
def on (v : Outlook) (text : List Char) : Outlook := { v with text }

/-- The outlook behind a tag. -/
def behind (v : Outlook) (t : Tag) (rest : List Char) : Outlook :=
  ⟨(t.scope v.outer v.delimiters).1, (t.scope v.outer v.delimiters).2, rest⟩

@[simp] theorem on_delimiters (v : Outlook) (text : List Char) :
    (v.on text).delimiters = v.delimiters := rfl

@[simp] theorem on_text (v : Outlook) (text : List Char) : (v.on text).text = text := rfl

theorem on_eq {v : Outlook} {text : List Char} (h : v.text = text) : v.on text = v := h ▸ rfl

/-- **What comes next is the same**: the end, a character, a tag, or a fault. -/
inductive Paired (types : ContentTypes) (Q : Outlook → Outlook → Prop) (v v' : Outlook) : Prop
  | done (h : v.text = []) (h' : v'.text = [])
  | char {c : Char} {rest rest' : List Char} (h : v.text = c :: rest) (h' : v'.text = c :: rest')
      (hs : ¬ v.delimiters.start.toList <+: v.text)
      (hs' : ¬ v'.delimiters.start.toList <+: v'.text) (hq : Q (v.on rest) (v'.on rest'))
  | tag {inner inner' rest rest' : List Char} {t : Tag}
      (h : v.text = v.delimiters.start.toList ++ inner)
      (h' : v'.text = v'.delimiters.start.toList ++ inner')
      (hm : Tag.meet types v.delimiters inner = .ok (t, rest))
      (hm' : Tag.meet types v'.delimiters inner' = .ok (t, rest'))
      (hq : Q (v.behind t rest) (v'.behind t rest'))
  | fault {inner inner' : List Char} {cause : Cause}
      (h : v.text = v.delimiters.start.toList ++ inner)
      (h' : v'.text = v'.delimiters.start.toList ++ inner')
      (hm : Tag.meet types v.delimiters inner = .error cause)
      (hm' : Tag.meet types v'.delimiters inner' = .error cause)

/-- **A relation that goes on** until both texts end: with proper delimiters, what comes next is the
same, and `R` relates the sources of sections that start and end at related places. -/
structure Lawful (types : ContentTypes) (Q : Outlook → Outlook → Prop)
    (R : Source → Source → Prop) : Prop where
  proper : ∀ {v v'}, Q v v' → v.delimiters.Proper ∧ v'.delimiters.Proper
  paired : ∀ {v v'}, Q v v' → Paired types Q v v'
  source : ∀ {v v' w w'} {raw raw' : List Char}, Q v v' → Q w w' → v.text = raw ++ w.text →
    v'.text = raw' ++ w'.text →
    R ⟨String.ofList raw, v.delimiters⟩ ⟨String.ofList raw', v'.delimiters⟩

variable {types : ContentTypes} {Q : Outlook → Outlook → Prop} {R : Source → Source → Prop}
  {v v' : Outlook}

namespace Lawful

variable (hQ : Lawful types Q R)

include hQ

/-- Both texts end, or have the same character, or a tag starts in both. -/
theorem next (hq : Q v v') : (v.text = [] ∧ v'.text = []) ∨
    (∃ c rest rest', v.text = c :: rest ∧ v'.text = c :: rest' ∧
      ¬ v.delimiters.start.toList <+: v.text ∧ ¬ v'.delimiters.start.toList <+: v'.text ∧
      Q (v.on rest) (v'.on rest')) ∨
    v.delimiters.start.toList <+: v.text ∧ v'.delimiters.start.toList <+: v'.text := by
  cases hQ.paired hq with
  | done h h' => exact .inl ⟨h, h'⟩
  | char h h' hs hs' hq => exact .inr (.inl ⟨_, _, _, h, h', hs, hs', hq⟩)
  | tag h h' | fault h h' => exact .inr (.inr ⟨⟨_, h.symm⟩, ⟨_, h'.symm⟩⟩)

/-- **Induction over text.** What holds where both texts end and where a tag starts in both, and
before a character if it holds after it, holds everywhere. -/
theorem text_induction {motive : Outlook → Outlook → Prop}
    (done : ∀ v v', Q v v' → v.text = [] → v'.text = [] → motive v v')
    (char : ∀ v v' c rest rest', v.text = c :: rest → v'.text = c :: rest' →
      ¬ v.delimiters.start.toList <+: v.text → ¬ v'.delimiters.start.toList <+: v'.text →
      Q v v' → motive (v.on rest) (v'.on rest') → motive v v')
    (tag : ∀ v v', Q v v' → v.delimiters.start.toList <+: v.text →
      v'.delimiters.start.toList <+: v'.text → motive v v')
    (hq : Q v v') : motive v v' := by
  induction hn : v.text.length using Nat.strong_induction_on generalizing v v' with
  | h n ih =>
    obtain ⟨h, h'⟩ | ⟨c, rest, rest', h, h', hs, hs', hrest⟩ | ⟨h, h'⟩ := hQ.next hq
    · exact done v v' hq h h'
    · refine char v v' c rest rest' h h' hs hs' hq (ih _ ?_ hrest rfl)
      rw [← hn, h, on_text, List.length_cons]
      exact Nat.lt_succ_self _
    · exact tag v v' hq h h'

/-- **A run of blanks** of a class. -/
theorem skip {p : Char → Bool} (hp : ∀ c, p c = true → Text.isBlank c = true) (hq : Q v v') :
    v.text.takeWhile p = v'.text.takeWhile p ∧
      Q (v.on (v.text.dropWhile p)) (v'.on (v'.text.dropWhile p)) := by
  have stop {d : Delimiters} (hd : d.Proper) {text : List Char} (hs : d.start.toList <+: text) :
      text.takeWhile p = [] ∧ text.dropWhile p = text := by
    obtain ⟨c, rest, rfl, hc⟩ := hd.starts hs
    have hpc : ¬ p c = true := fun h => by
      rw [hp c h] at hc
      cases hc
    exact ⟨List.takeWhile_cons_of_neg hpc, List.dropWhile_cons_of_neg hpc⟩
  refine hQ.text_induction (motive := fun v v' => v.text.takeWhile p = v'.text.takeWhile p ∧
    Q (v.on (v.text.dropWhile p)) (v'.on (v'.text.dropWhile p))) ?_ ?_ ?_ hq
  · intro v v' hq h h'
    rw [h, h', List.dropWhile_nil, on_eq h, on_eq h']
    exact ⟨rfl, hq⟩
  · intro v v' c rest rest' h h' _ _ hq ih
    rw [h, h', List.takeWhile_cons, List.takeWhile_cons, List.dropWhile_cons,
      List.dropWhile_cons]
    split_ifs
    · exact ⟨congrArg (c :: ·) ih.1, ih.2⟩
    · rw [on_eq h, on_eq h']
      exact ⟨rfl, hq⟩
  · intro v v' hq h h'
    obtain ⟨htake, hdrop⟩ := stop (hQ.proper hq).1 h
    obtain ⟨htake', hdrop'⟩ := stop (hQ.proper hq).2 h'
    rw [htake, htake', hdrop, hdrop']
    exact ⟨rfl, hq⟩

/-- **The text up to a line feed or a tag.** -/
theorem line (hq : Q v v') :
    (Cursor.splitLine v.delimiters.start.toList v.text).1 =
        (Cursor.splitLine v'.delimiters.start.toList v'.text).1 ∧
      Q (v.on (Cursor.splitLine v.delimiters.start.toList v.text).2)
        (v'.on (Cursor.splitLine v'.delimiters.start.toList v'.text).2) := by
  have stop {d : Delimiters} (hd : d.Proper) {text : List Char} (hs : d.start.toList <+: text) :
      Cursor.splitLine d.start.toList text = ([], text) := by
    obtain ⟨c, rest, rfl, -⟩ := hd.starts hs
    exact Cursor.splitLine_stop (.inr hs)
  refine hQ.text_induction (motive := fun v v' =>
    (Cursor.splitLine v.delimiters.start.toList v.text).1 =
        (Cursor.splitLine v'.delimiters.start.toList v'.text).1 ∧
      Q (v.on (Cursor.splitLine v.delimiters.start.toList v.text).2)
        (v'.on (Cursor.splitLine v'.delimiters.start.toList v'.text).2)) ?_ ?_ ?_ hq
  · intro v v' hq h h'
    rw [h, h', Cursor.splitLine, Cursor.splitLine, on_eq h, on_eq h']
    exact ⟨rfl, hq⟩
  · intro v v' c rest rest' h h' hs hs' hq ih
    rw [h] at hs
    rw [h'] at hs'
    by_cases hc : c = '\n'
    · rw [h, h', Cursor.splitLine_stop (.inl hc), Cursor.splitLine_stop (.inl hc), on_eq h,
        on_eq h']
      exact ⟨rfl, hq⟩
    · rw [h, h', Cursor.splitLine_cons hc hs, Cursor.splitLine_cons hc hs']
      exact ⟨congrArg (c :: ·) ih.1, ih.2⟩
  · intro v v' hq h h'
    rw [stop (hQ.proper hq).1 h, stop (hQ.proper hq).2 h', on_eq rfl, on_eq rfl]
    exact ⟨rfl, hq⟩

/-- **The end of a line.** -/
theorem lineEnd {c c' : Cursor} (hq : Q (v.on c.rest) (v'.on c'.rest)) :
    Option.Rel (fun m m' => Q (v.on m.rest) (v'.on m'.rest)) c.lineEnd? c'.lineEnd? := by
  have hblank (ch : Char) : Text.isInlineBlank ch = true → Text.isBlank ch = true :=
    Text.isBlank_of_isInlineBlank
  have hskip : Q (v.on (c.skip Text.isInlineBlank).rest)
      (v'.on (c'.skip Text.isInlineBlank).rest) :=
    (hQ.skip hblank hq).2
  have other {m : Cursor} {ch : Char} {rest : List Char}
      (h : (m.skip Text.isInlineBlank).rest = ch :: rest) (hc : Text.isBlank ch = false) :
      m.lineEnd? = none := by
    refine Cursor.lineEnd?_eq_none h ?_ ?_
    · rintro rfl
      nomatch hc
    · rintro rfl
      nomatch hc
  obtain ⟨h, h'⟩ | ⟨ch, rest, rest', h, h', -, -, hrest⟩ | ⟨h, h'⟩ := hQ.next hskip
  · rw [Cursor.lineEnd?_nil h, Cursor.lineEnd?_nil h']
    exact .some hskip
  · rw [on_text] at h h'
    by_cases hn : ch = '\n'
    · subst hn
      rw [Cursor.lineEnd?_lineFeed h, Cursor.lineEnd?_lineFeed h']
      exact .some hrest
    by_cases hr : ch = '\r'
    · subst hr
      obtain ⟨hl, hl'⟩ | ⟨x, more, more', hl, hl', -, -, hmore⟩ | ⟨hl, hl'⟩ := hQ.next hrest
      · rw [on_text] at hl hl'
        rw [Cursor.lineEnd?_eq_none h hn fun _ more e => List.cons_ne_nil _ _ (e.symm.trans hl),
          Cursor.lineEnd?_eq_none h' hn fun _ more e => List.cons_ne_nil _ _ (e.symm.trans hl')]
        exact .none
      · rw [on_text] at hl hl'
        by_cases hx : x = '\n'
        · subst hx
          rw [Cursor.lineEnd?_return (hl ▸ h), Cursor.lineEnd?_return (hl' ▸ h')]
          exact .some hmore
        · rw [Cursor.lineEnd?_eq_none h hn fun _ more e => hx (List.cons.inj (hl.symm.trans e)).1,
            Cursor.lineEnd?_eq_none h' hn fun _ more e => hx (List.cons.inj (hl'.symm.trans e)).1]
          exact .none
      · have front {d : Delimiters} {text : List Char} (hd : d.Proper)
            (hs : d.start.toList <+: text) (more : List Char) : text ≠ '\n' :: more := by
          obtain ⟨x, rest, he, hx⟩ := hd.starts hs
          rw [he]
          intro e
          rw [(List.cons.inj e).1] at hx
          nomatch hx
        rw [Cursor.lineEnd?_eq_none h hn fun _ => front (hQ.proper hrest).1 hl,
          Cursor.lineEnd?_eq_none h' hn fun _ => front (hQ.proper hrest).2 hl']
        exact .none
    · rw [Cursor.lineEnd?_eq_none h hn fun e => absurd e hr,
        Cursor.lineEnd?_eq_none h' hn fun e => absurd e hr]
      exact .none
  · obtain ⟨ch, rest, hc, hb⟩ := (hQ.proper hskip).1.starts h
    obtain ⟨ch', rest', hc', hb'⟩ := (hQ.proper hskip).2.starts h'
    rw [other hc hb, other hc' hb']
    exact .none

end Lawful

end Outlook

namespace Draft

/-- What reading the draft goes by. -/
def outlook (s : Draft) : Outlook := ⟨s.scopes, s.delimiters, s.cursor.rest⟩

variable {types : ContentTypes} {Q : Outlook → Outlook → Prop} {R : Source → Source → Prop}
  {s s' : Draft}

/-- **What lies ahead** of two drafts is the same. -/
theorem ahead_paired (hQ : Outlook.Lawful types Q R) (hl : s.lineStart = s'.lineStart)
    (hq : Q s.outlook s'.outlook) :
    s.ahead.1 = s'.ahead.1 ∧ s.ahead.2.1 = s'.ahead.2.1 ∧
      Q (s.outlook.on s.ahead.2.2.rest) (s'.outlook.on s'.ahead.2.2.rest) := by
  unfold ahead
  rw [← hl]
  cases s.lineStart with
  | false =>
    obtain ⟨hline, hleft⟩ := hQ.line hq
    exact ⟨rfl, hline, hleft⟩
  | true =>
    obtain ⟨hblanks, hrest⟩ := hQ.skip (fun c => Text.isBlank_of_isInlineBlank) hq
    obtain ⟨hline, hleft⟩ := hQ.line hrest
    exact ⟨hblanks, hline, hleft⟩

end Draft

end Mustache
