import Mustache.Proofs.Template.Outlook
import Mustache.Proofs.Template.Retrace
import Mustache.Proofs.Token.Alike

/-!
# Texts that read alike have tokens that are alike

Two drafts that have read the same go on to read the same as long as what comes next is the same.
In the end their tokens differ at most in what sections keep of the texts.

* `Frame.Alike`, `Draft.Alike`: drafts that have read the same; `Draft.StepAlike`: results of a
  step;
* `Frame.tokens?_alike`, `Draft.Alike.leave`, **`Draft.Alike.place`**, **`Draft.Alike.step`**;
* **`Draft.Alike.run`**, **`Token.parseWith_alike`**.
-/

namespace Mustache

variable {types : ContentTypes} {Q : Outlook → Outlook → Prop} {R : Source → Source → Prop}

/-- The same tag is open, and its bodies start at related places. -/
structure Frame.Alike (Q : Outlook → Outlook → Prop) (R : Source → Source → Prop)
    (f f' : Frame) : Prop where
  opening : f.opening = f'.opening
  blanks : f.blanks = f'.blanks
  alone : f.alone = f'.alone
  outer : List.Forall₂ (Token.Alike R) f.outer f'.outer
  body : ∃ v v', Q v v' ∧ v.text = f.body ∧ v'.text = f'.body ∧ v.delimiters = f.delimiters ∧
    v'.delimiters = f'.delimiters

namespace Draft

/-- The same has been read. -/
structure Alike (Q : Outlook → Outlook → Prop) (R : Source → Source → Prop) (s s' : Draft) :
    Prop where
  lineStart : s.lineStart = s'.lineStart
  tokens : List.Forall₂ (Token.Alike R) s.tokens s'.tokens
  frames : List.Forall₂ (Frame.Alike Q R) s.frames s'.frames

/-- Both steps succeed alike, or fail for the same cause. -/
inductive StepAlike (Q : Outlook → Outlook → Prop) (R : Source → Source → Prop) :
    Except Fault Draft → Except Fault Draft → Prop
  | ok {next next' : Draft} (h : next.Alike Q R next') (hq : Q next.outlook next'.outlook) :
    StepAlike Q R (.ok next) (.ok next')
  | error {fault fault' : Fault} (h : fault.cause = fault'.cause) :
    StepAlike Q R (.error fault) (.error fault')

variable {s s' next next' : Draft} {tag tag' c c' : Cursor} {t : Tag} {held : List Char}

/-! ## Tokens and frames -/

theorem Alike.push (h : s.Alike Q R s') {t t' : Token} (ht : Token.Alike R t t') :
    (s.push t).Alike Q R (s'.push t') :=
  ⟨h.lineStart, .cons ht h.tokens, h.frames⟩

theorem alike_ofText (text : List Char) :
    List.Forall₂ (Token.Alike R) (Token.ofText text) (Token.ofText text) :=
  Token.alike_of_bodies_nil fun t ht => by
    rw [(Token.mem_ofText.mp ht).2]
    rfl

theorem Alike.pushText (h : s.Alike Q R s') (text : List Char) :
    (s.pushText text).Alike Q R (s'.pushText text) := by
  rw [pushText_eq, pushText_eq]
  exact ⟨h.lineStart, List.rel_append (alike_ofText text) h.tokens, h.frames⟩

theorem insideParent_alike {frames frames' : List Frame}
    (h : List.Forall₂ (Frame.Alike Q R) frames frames') :
    insideParent frames = insideParent frames' := by
  cases h with
  | nil => rfl
  | @cons f f' outer outer' hf _ =>
    obtain ⟨opening, _⟩ := f
    obtain ⟨opening', _⟩ := f'
    obtain rfl : opening = opening' := hf.opening
    cases opening <;> rfl

/-- The tokens that stand for a closed tag. -/
theorem tokens?_alike {f f' : Frame} {outer outer' : List Frame} {raw raw' : String}
    {body body' : List Token} (hf : f.Alike Q R f')
    (ho : List.Forall₂ (Frame.Alike Q R) outer outer')
    (hs : R ⟨raw, f.delimiters⟩ ⟨raw', f'.delimiters⟩)
    (hb : List.Forall₂ (Token.Alike R) body body') (closedAlone : Bool) :
    Option.Rel (List.Forall₂ (Token.Alike R)) (Frame.tokens? f outer raw body closedAlone)
      (Frame.tokens? f' outer' raw' body' closedAlone) := by
  obtain ⟨opening, start, blanks, alone, front, before, d⟩ := f
  obtain ⟨opening', start', blanks', alone', front', before', d'⟩ := f'
  obtain rfl : opening = opening' := hf.opening
  obtain rfl : blanks = blanks' := hf.blanks
  obtain rfl : alone = alone' := hf.alone
  cases opening with
  | present e => exact .some (.cons (.sectionTag e hs hb) .nil)
  | absent e => exact .some (.cons (.invertedTag e hs hb) .nil)
  | block name =>
    have hi := insideParent_alike ho
    cases hinside : insideParent outer' with
    | true =>
      simp only [Frame.tokens?, hi, hinside, if_true]
      exact .some (.cons (.definitionTag name hb) .nil)
    | false =>
      simp only [Frame.tokens?, hi, hinside, Bool.false_eq_true, if_false]
      exact .some (.cons (.blockTag name _ hb) .nil)
  | parent target =>
    have hc := Overrides.collect_alike hb
    simp only [Frame.tokens?]
    generalize Overrides.collect? body = overrides at hc ⊢
    generalize Overrides.collect? body' = overrides' at hc ⊢
    cases hc with
    | none => exact .none
    | some ho =>
      refine .some ?_
      split_ifs
      · exact .cons (.parentTag target _ ho) .nil
      · exact .cons (.parentTag target _ ho) .nil
      · exact .cons (.parentTag target _ ho) (.cons (.leaf rfl) .nil)

/-! ## A tag -/

/-- Behind a tag reading goes by what the tag leaves. -/
theorem outlook_place (hp : s.place held tag t c = .ok next) :
    next.outlook = (s.outlook.behind t c.rest).on next.cursor.rest := by
  have hscope := place_scope hp
  unfold outlook Outlook.behind Outlook.on
  dsimp only
  rw [hscope]

/-- Reaching a tag opens and closes nothing. -/
theorem outlook_reached (s : Draft) (text : List Char) :
    s.reached.1.outlook.on text = s.outlook.on text := by
  obtain ⟨hscopes, hd, -⟩ := s.reaches_reached.scope
  unfold outlook Outlook.on
  dsimp only
  rw [hscopes, hd]

/-- The step over a tag, which starts where the text stops. -/
theorem step_starts (types : ContentTypes) {s : Draft} (hd : s.delimiters.Proper)
    {inner : List Char} (hi : s.ahead.2.2.rest = s.delimiters.start.toList ++ inner) :
    ∃ m : Cursor, s.ahead.2.2.Reads s.delimiters.start.toList m ∧ m.rest = inner ∧
      s.step types = (Tag.read types s.delimiters s.ahead.2.2.offset m).bind
        fun (t, c) => s.reached.1.place s.reached.2 s.ahead.2.2 t c := by
  obtain ⟨c, rest, hc, hblank⟩ := hd.starts ⟨inner, hi.symm⟩
  refine ⟨_, Cursor.reads_past hi, rfl, step_tag ?_ ?_ (Cursor.reads_past hi)⟩
  · rw [hc]
    exact List.cons_ne_nil c rest
  · rintro more hmore
    obtain ⟨rfl, -⟩ := List.cons.inj (hc.symm.trans hmore)
    nomatch hblank

section

variable (hQ : Outlook.Lawful types Q R)

include hQ

/-- **Going on after a tag**, perhaps after the end of its line. -/
theorem Alike.leave (h : s.Alike Q R s')
    (hq : Q (s.outlook.behind t c.rest) (s'.outlook.behind t c'.rest)) (blanks : List Char) :
    (s.leave blanks c).Alike Q R (s'.leave blanks c') ∧
      Q ((s.outlook.behind t c.rest).on (s.leave blanks c).cursor.rest)
        ((s'.outlook.behind t c'.rest).on (s'.leave blanks c').cursor.rest) := by
  have hon : Q ((s.outlook.behind t c.rest).on c.rest) ((s'.outlook.behind t c'.rest).on c'.rest) :=
    hq
  have hend := hQ.lineEnd hon
  have htext := h.pushText blanks
  unfold Draft.leave
  rw [← h.lineStart]
  cases s.lineStart with
  | false => exact ⟨⟨rfl, htext.tokens, htext.frames⟩, hq⟩
  | true =>
    simp only [if_true]
    generalize c.lineEnd? = m at hend ⊢
    generalize c'.lineEnd? = m' at hend ⊢
    cases hend with
    | none => exact ⟨⟨rfl, htext.tokens, htext.frames⟩, hq⟩
    | some hm => exact ⟨⟨rfl, h.tokens, h.frames⟩, hm⟩

/-- **An opening tag**: its bodies start at related places. -/
theorem Alike.enter (h : s.Alike Q R s') (o : Opening)
    (hq : Q (s.outlook.behind (.opening o) c.rest) (s'.outlook.behind (.opening o) c'.rest))
    (blanks : List Char) (start start' : Nat) :
    (s.enter blanks start o c).Alike Q R (s'.enter blanks start' o c') ∧
      Q (s.enter blanks start o c).outlook (s'.enter blanks start' o c').outlook := by
  obtain ⟨hleave, hrest⟩ := h.leave hQ hq blanks
  have hlook (s : Draft) (c : Cursor) (start : Nat) : (s.enter blanks start o c).outlook =
      (s.outlook.behind (.opening o) c.rest).on (s.leave blanks c).cursor.rest :=
    outlook_place (show s.place blanks ⟨start, []⟩ (.opening o) c = .ok _ from rfl)
  refine ⟨⟨?_, .nil, .cons ⟨rfl, rfl, hleave.lineStart, ?_, _, _, hrest, rfl, rfl, rfl, rfl⟩
    h.frames⟩, by rwa [hlook, hlook]⟩
  · cases o with
    | parent => exact h.lineStart
    | present | absent | block => exact hleave.lineStart
  · cases o with
    | parent => exact h.tokens
    | present | absent | block => exact hleave.tokens

/-- **A close tag**: the body that it closes starts and ends at related places. -/
theorem Alike.close (h : s.Alike Q R s') (e : Expression)
    (htag : Q (s.outlook.on tag.rest) (s'.outlook.on tag'.rest))
    (hq : Q (s.outlook.behind (.closing e) c.rest) (s'.outlook.behind (.closing e) c'.rest))
    (hb : ∀ f ∈ s.frames, tag.rest <:+ f.body) (hb' : ∀ f ∈ s'.frames, tag'.rest <:+ f.body) :
    StepAlike Q R (s.close held tag e c) (s'.close held tag' e c') := by
  obtain ⟨hleave, hrest⟩ := h.leave hQ hq held
  have hframes := h.frames
  unfold Draft.close
  cases hf : s.frames with
  | nil =>
    rw [hf, List.forall₂_nil_left_iff] at hframes
    rw [hframes]
    exact .error rfl
  | cons f outer =>
    rw [hf] at hframes
    obtain ⟨f', outer', hff, ho, hf'⟩ := List.forall₂_cons_left_iff.mp hframes
    rw [hf']
    dsimp only
    rw [← hff.opening]
    by_cases he : f.opening.closing = e
    · rw [if_neg (not_not.mpr he), if_neg (not_not.mpr he)]
      have hraw {g : Frame} (rest : List Char) (hs : rest <:+ g.body) :
          g.body = g.body.take (g.body.length - rest.length) ++ rest := by
        obtain ⟨raw, hr⟩ := hs
        rw [← hr, List.length_append, Nat.add_sub_cancel, List.take_left]
      obtain ⟨v, v', hv, hbody, hbody', hd, hd'⟩ := hff.body
      have hs := hQ.source hv htag (hbody.trans (hraw tag.rest (hb f (hf ▸ List.mem_cons_self))))
        (hbody'.trans (hraw tag'.rest (hb' f' (hf' ▸ List.mem_cons_self))))
      rw [hd, hd'] at hs
      have htokens := tokens?_alike hff ho hs (List.forall₂_reverse_iff.mpr hleave.tokens)
        (s.leave held c).lineStart
      rw [← hleave.lineStart]
      revert htokens
      generalize Frame.tokens? f outer _ _ _ = r, Frame.tokens? f' outer' _ _ _ = r'
      intro htokens
      cases htokens with
      | none => exact .error rfl
      | some ht =>
        refine .ok ⟨rfl, List.rel_append ht hff.outer, ho⟩ ?_
        have hscope {s : Draft} {f : Frame} {outer : List Frame} (hs : s.frames = f :: outer)
            (text rest : List Char) : (s.outlook.behind (.closing e) text).on rest =
              ⟨outer.map Frame.delimiters, f.delimiters, rest⟩ := by
          simp [outlook, Outlook.behind, Outlook.on, Tag.scope, scopes, hs]
        rw [hscope hf, hscope hf'] at hrest
        exact hrest
    · rw [if_pos he, if_pos he]
      exact .error rfl

/-- **What a tag adds** is alike. -/
theorem Alike.place (h : s.Alike Q R s')
    (htag : Q (s.outlook.on tag.rest) (s'.outlook.on tag'.rest))
    (hq : Q (s.outlook.behind t c.rest) (s'.outlook.behind t c'.rest))
    (hb : ∀ f ∈ s.frames, tag.rest <:+ f.body) (hb' : ∀ f ∈ s'.frames, tag'.rest <:+ f.body) :
    StepAlike Q R (s.place held tag t c) (s'.place held tag' t c') := by
  obtain ⟨hleave, hrest⟩ := h.leave hQ hq held
  have placed {next next' : Draft} (hp : s.place held tag t c = .ok next)
      (hp' : s'.place held tag' t c' = .ok next') (ha : next.Alike Q R next')
      (hn : Q ((s.outlook.behind t c.rest).on next.cursor.rest)
        ((s'.outlook.behind t c'.rest).on next'.cursor.rest)) :
      StepAlike Q R (s.place held tag t c) (s'.place held tag' t c') := by
    rw [hp, hp']
    exact .ok ha (by rwa [outlook_place hp, outlook_place hp'])
  cases t with
  | interpolation verbatim e =>
    have htokens := ((h.pushText held).push
      (t := if verbatim then .verbatimTag e else .variableTag e) (.leaf (by split_ifs <;> rfl)))
    exact placed rfl rfl ⟨rfl, htokens.tokens, htokens.frames⟩ hq
  | opening o => exact .ok (h.enter hQ o hq held _ _).1 (h.enter hQ o hq held _ _).2
  | closing e => exact h.close hQ e htag hq hb hb'
  | comment => exact placed rfl rfl hleave hrest
  | inclusion target =>
    refine placed rfl rfl (hleave.push ?_) hrest
    rw [hleave.lineStart]
    exact .leaf rfl
  | delimiters d => exact placed rfl rfl ⟨hleave.lineStart, hleave.tokens, hleave.frames⟩ hrest
  | pragma id => exact placed rfl rfl (hleave.push (.leaf rfl)) hrest

/-! ## Steps and runs -/

/-- **A tag is reached** with drafts that are alike. -/
theorem Alike.reached (h : s.Alike Q R s') (hq : Q s.outlook s'.outlook) :
    s.reached.1.Alike Q R s'.reached.1 ∧ s.reached.2 = s'.reached.2 := by
  obtain ⟨hblanks, htext, -⟩ := ahead_paired hQ h.lineStart hq
  unfold Draft.reached
  rw [← hblanks, ← htext]
  split_ifs
  · exact ⟨h, rfl⟩
  · have hpush := h.pushText (s.ahead.1 ++ s.ahead.2.1)
    exact ⟨⟨rfl, hpush.tokens, hpush.frames⟩, rfl⟩

/-- **From one step to the next.** -/
theorem Alike.step (h : s.Alike Q R s') (hq : Q s.outlook s'.outlook) (hb : s.Behind)
    (hb' : s'.Behind) : StepAlike Q R (s.step types) (s'.step types) := by
  obtain ⟨hblanks, htext, hahead⟩ := ahead_paired hQ h.lineStart hq
  have hlook (s : Draft) (text : List Char) (c : Cursor) (lineStart : Bool) :
      ({ s.pushText text with cursor := c, lineStart } : Draft).outlook = s.outlook.on c.rest := by
    rw [pushText_eq]
    rfl
  cases hQ.paired hahead with
  | done hd hd' =>
    rw [step_text hd, step_text hd', ← hblanks, ← htext]
    have hnew := h.pushText (s.ahead.1 ++ s.ahead.2.1)
    exact .ok ⟨hnew.lineStart, hnew.tokens, hnew.frames⟩ (by rwa [hlook, hlook])
  | @char c rest rest' hc hc' hs hs' hnext =>
    obtain rfl : c = '\n' := (s.ahead_spec.stop c rest hc).resolve_right (hc ▸ hs)
    have htail {tag : Cursor} {rest : List Char} (ht : tag.rest = '\n' :: rest) :
        tag.tail.rest = rest :=
      (List.cons.inj ((Cursor.reads_lineFeed ht).1.symm.trans ht)).2
    rw [step_line hc, step_line hc', ← hblanks, ← htext]
    have hnew := h.pushText (s.ahead.1 ++ s.ahead.2.1 ++ ['\n'])
    refine .ok ⟨rfl, hnew.tokens, hnew.frames⟩ ?_
    rw [hlook, hlook, htail hc, htail hc']
    exact hnext
  | @tag inner inner' rest rest' t hi hi' hm hm' hnext =>
    obtain ⟨m, hreads, rfl, hstep⟩ := step_starts types (hQ.proper hahead).1 hi
    obtain ⟨m', hreads', rfl, hstep'⟩ := step_starts types (hQ.proper hahead).2 hi'
    obtain ⟨c, hread, rfl⟩ := Tag.read_of_meet hreads hm
    obtain ⟨c', hread', rfl⟩ := Tag.read_of_meet hreads' hm'
    obtain ⟨hreached, hheld⟩ := h.reached hQ hq
    have hframes {s : Draft} (hb : s.Behind) :
        ∀ f ∈ s.reached.1.frames, s.ahead.2.2.rest <:+ f.body := fun f hf =>
      List.IsSuffix.trans ⟨_, s.ahead_spec.reads.1.symm⟩ (hb f (s.reaches_reached.frames ▸ hf))
    rw [← outlook_reached s, ← outlook_reached s'] at hahead hnext
    rw [hstep, hstep', hread, hread', ← hheld]
    exact hreached.place hQ hahead hnext (hframes hb) (hframes hb')
  | @fault inner inner' cause hi hi' hm hm' =>
    obtain ⟨m, hreads, rfl, hstep⟩ := step_starts types (hQ.proper hahead).1 hi
    obtain ⟨m', hreads', rfl, hstep'⟩ := step_starts types (hQ.proper hahead).2 hi'
    obtain ⟨fault, hread, hcause⟩ := Tag.fault_of_meet hreads hm
    obtain ⟨fault', hread', hcause'⟩ := Tag.fault_of_meet hreads' hm'
    rw [hstep, hstep', hread, hread']
    exact .error (hcause.trans hcause'.symm)

/-- **A run** over texts that read alike. -/
theorem Alike.run (h : s.Alike Q R s') (hq : Q s.outlook s'.outlook) (hb : s.Behind)
    (hb' : s'.Behind) : StepAlike Q R (s.run types) (s'.run types) := by
  induction hn : s.cursor.rest.length using Nat.strong_induction_on generalizing s s' with
  | h n ih =>
    obtain ⟨hd, hd'⟩ := hQ.proper hq
    by_cases hnil : s.cursor.rest = [] ∧ s'.cursor.rest = []
    · rw [run_end hnil.1, run_end hnil.2]
      have hempty : s.frames.isEmpty = s'.frames.isEmpty := by
        rw [Bool.eq_iff_iff, List.isEmpty_iff_length_eq_zero, List.isEmpty_iff_length_eq_zero,
          h.frames.length_eq]
      rw [← hempty]
      split_ifs
      · exact .ok h hq
      · exact .error rfl
    · have hne : s.cursor.rest ≠ [] ∧ s'.cursor.rest ≠ [] := by
        obtain hend | ⟨c, rest, rest', hc, hc', -⟩ | ⟨hs, hs'⟩ := hQ.next hq
        · exact absurd hend hnil
        · exact ⟨List.ne_nil_of_mem (hc ▸ List.mem_cons_self),
            List.ne_nil_of_mem (hc' ▸ List.mem_cons_self)⟩
        · exact ⟨hs.ne_nil hd.start_ne_nil, hs'.ne_nil hd'.start_ne_nil⟩
      rw [run_eq hd.start_ne_nil hne.1, run_eq hd'.start_ne_nil hne.2]
      have hstep := h.step hQ hq hb hb'
      have hnext (next : Draft) (hs : s.step types = .ok next) :
          next.Behind ∧ next.cursor.rest.length < n :=
        ⟨hb.step hd.start_ne_nil hne.1 hs, hn ▸ step_shorter hd.start_ne_nil hne.1 hs⟩
      have hnext' (next : Draft) : s'.step types = .ok next → next.Behind :=
        hb'.step hd'.start_ne_nil hne.2
      generalize s.step types = r at hstep hnext ⊢
      generalize s'.step types = r' at hstep hnext' ⊢
      cases hstep with
      | ok hs hsq => exact ih _ (hnext _ rfl).2 hs hsq (hnext _ rfl).1 (hnext' _ rfl) rfl
      | error hs => exact .error hs

end

end Draft

/-- **Texts that read alike**, read with the delimiters of each, have tokens that are alike, or
faults of the same cause. -/
theorem Token.parseWith_alike (hQ : Outlook.Lawful types Q R) {d d' : Delimiters}
    {source source' : String} (hq : Q ⟨[], d, source.toList⟩ ⟨[], d', source'.toList⟩) :
    ParsedAlike R (parseWith d types source) (parseWith d' types source') := by
  have hrun : Draft.StepAlike Q R ((Draft.start d source).run types)
      ((Draft.start d' source').run types) :=
    Draft.Alike.run hQ ⟨rfl, .nil, .nil⟩ hq nofun nofun
  unfold parseWith
  generalize (Draft.start d source).run types = r at hrun ⊢
  generalize (Draft.start d' source').run types = r' at hrun ⊢
  cases hrun with
  | ok h => exact .ok (List.forall₂_reverse_iff.mpr h.tokens)
  | error h => exact .error h

end Mustache
