import Mustache.Proofs.Template.Extend
import Mustache.Proofs.Template.Retrace

/-!
# Reading up to something solid

A line cannot end before a character that is not a blank. So what is read before such a character
does not depend on the text behind it.

* `Text.Solid`: a text that is not just blanks; `Cursor.settled_of_solid`;
* **`Draft.step_extend_solid`**, **`Draft.step_of_extend_solid`**: a step that leaves such a text;
* `Draft.Leads.extend_solid`, `Draft.leads_of_extend_solid`, **`Draft.leads_upTo`**: all steps on
  the way there.
-/

namespace Mustache

/-- A text that has something other than blanks. -/
def Text.Solid (text : List Char) : Prop := ∃ c ∈ text, Text.isBlank c = false

theorem Text.Solid.of_suffix {left text : List Char} (h : Solid left) (hs : left <:+ text) :
    Solid text := by
  obtain ⟨c, hc, hb⟩ := h
  exact ⟨c, hs.subset hc, hb⟩

theorem Text.Solid.ne_nil {text : List Char} (h : Solid text) : text ≠ [] := by
  obtain ⟨c, hc, -⟩ := h
  exact List.ne_nil_of_mem hc

theorem Text.not_solid_iff {text : List Char} :
    ¬ Solid text ↔ ∀ c ∈ text, Text.isBlank c = true := by
  simp [Solid]

/-- Before something solid it is settled where a line ends. -/
theorem Cursor.settled_of_solid {c : Cursor} (h : Text.Solid c.rest) : c.Settled := by
  obtain ⟨x, hx, hb⟩ := h
  rw [(reads_skip Text.isInlineBlank c).1] at hx
  have hrest : x ∈ (c.skip Text.isInlineBlank).rest := by
    refine (List.mem_append.mp hx).resolve_left fun hm => ?_
    have hi : Text.isInlineBlank x = true := List.mem_takeWhile_imp hm
    rw [Text.isBlank_of_isInlineBlank hi] at hb
    nomatch hb
  constructor <;> intro he <;> rw [he] at hrest
  · nomatch hrest
  · rw [List.mem_singleton.mp hrest] at hb
    nomatch hb

namespace Draft

variable {s next final : Draft} {left more : List Char} {types : ContentTypes}

theorem settles_of_solid (s : Draft) (h : Text.Solid left) : s.Settles left := by
  intro inner c _ _ hs
  exact Cursor.settled_of_solid (h.of_suffix hs)

/-- **A step that leaves something solid** is the same with more text behind. -/
theorem step_extend_solid (hd : s.delimiters.Proper) (h : s.step types = .ok next)
    (hsolid : Text.Solid next.cursor.rest) (more : List Char) :
    (s.extend more).step types = .ok (next.extend more) := by
  have hne : s.ahead.2.2.rest ≠ [] := by
    intro hnil
    rw [step_text hnil] at h
    cases h
    exact hsolid.ne_nil hnil
  exact step_extend_of hd hne (s.settles_of_solid hsolid) h more

/-- What lies ahead of a step that does not reach the text behind. -/
theorem ahead_ne_nil_of_extend (hd : s.delimiters.Proper)
    (h : (s.extend more).step types = .ok next) (hr : next.cursor.rest = left ++ more)
    (hleft : left ++ more ≠ []) : s.ahead.2.2.rest ≠ [] := by
  -- The line feed or the tag that is met lies before the text behind.
  have ahead {blanks text : List Char} (front : List Char) {tag : Cursor}
      (ha : (s.extend more).Ahead blanks text tag) (ht : tag.rest = front ++ more)
      (hf : ∀ ch rest, front = ch :: rest → ch = '\n' ∨ s.delimiters.start.toList <+: ch :: rest)
      (hne : front ≠ []) : s.ahead.2.2.rest ≠ [] := by
    obtain ⟨offset, rest⟩ := tag
    obtain rfl : rest = front ++ more := ht
    have hfront : (s.extend more).Ahead blanks text (Cursor.extend more ⟨offset, front⟩) := ha
    rw [(hfront.of_extend hf).eq hd]
    exact hne
  cases moves_of_step h with
  | finish ha hnil =>
    rw [hnil] at hr
    exact absurd hr.symm hleft
  | @line blanks text rest tag ha ht =>
    have htail : tag.tail.rest = rest :=
      (List.cons.inj ((Cursor.reads_lineFeed ht).1.symm.trans ht)).2
    change tag.tail.rest = left ++ more at hr
    refine ahead ('\n' :: left) ha ?_ ?_ (List.cons_ne_nil _ _)
    · rw [ht, ← htail, hr, List.cons_append]
    · intro ch rest' he
      exact .inl (List.cons.inj he).1.symm
  | @tag s' _ blanks text held tag inner c t ha hi hread hs hp =>
    obtain ⟨used, hused⟩ := Tag.reads_of_read hread
    obtain ⟨front, hfront⟩ := reads_of_place hp
    have hreads := hi.trans (hused.trans hfront)
    rw [show (s.extend more).delimiters = s.delimiters from rfl] at hreads
    refine ahead (s.delimiters.start.toList ++
      (used ++ s.delimiters.stop.toList ++ front) ++ left) ha ?_ ?_ ?_
    · rw [hreads.1, hr]
      simp only [List.append_assoc]
    · intro ch rest' he
      right
      rw [← he, List.append_assoc]
      exact List.prefix_append _ _
    · simp [hd.start_ne_nil]

/-- **A step that leaves something solid before the text behind** is a step without this text. -/
theorem step_of_extend_solid (hd : s.delimiters.Proper)
    (h : (s.extend more).step types = .ok next) (hr : next.cursor.rest = left ++ more)
    (hsolid : Text.Solid left) : ∃ next', s.step types = .ok next' ∧ next'.extend more = next :=
  step_of_extend_of hd
    (ahead_ne_nil_of_extend hd h hr (List.append_ne_nil_of_left_ne_nil hsolid.ne_nil more))
    (s.settles_of_solid hsolid) h hr

/-! ## On the way to something solid -/

/-- **What is read before something solid** is read with more text behind. -/
theorem Leads.extend_solid (hs : s.Proper) (h : s.Leads types final)
    (hsolid : Text.Solid final.cursor.rest) (more : List Char) :
    (s.extend more).Leads types (final.extend more) := by
  induction h with
  | refl => exact .refl
  | @tail b c h hstep ih =>
    have hb := (Leads.proper h hs).1
    obtain ⟨used, -, hreads⟩ := reads_of_step hb.start_ne_nil hstep.1 hstep.2
    have hbsolid : Text.Solid b.cursor.rest := hsolid.of_suffix ⟨used, hreads.1.symm⟩
    exact (ih hbsolid).step (List.append_ne_nil_of_left_ne_nil hstep.1 more)
      (step_extend_solid hb hstep.2 hsolid more)

/-- **What is read before something solid** is read without the text behind. -/
theorem leads_of_extend_solid (hs : s.Proper) (h : (s.extend more).Leads types final)
    (hr : final.cursor.rest = left ++ more) (hsolid : Text.Solid left) :
    ∃ final', s.Leads types final' ∧ final'.extend more = final := by
  induction h generalizing left with
  | refl => exact ⟨s, .refl, rfl⟩
  | @tail b final h hstep ih =>
    obtain ⟨used, -, hreads⟩ :=
      reads_of_step (Leads.proper h (proper_extend hs more)).1.start_ne_nil hstep.1 hstep.2
    have hb : b.cursor.rest = used ++ left ++ more := by
      rw [hreads.1, hr, List.append_assoc]
    obtain ⟨b', hb', rfl⟩ := ih hb (hsolid.of_suffix ⟨used, rfl⟩)
    obtain ⟨final', hf, hfinal⟩ := step_of_extend_solid (hb'.proper hs).1 hstep.2 hr hsolid
    refine ⟨final', hb'.step ?_ hf, hfinal⟩
    intro hnil
    have hrest : used ++ left ++ more = more := by
      rw [← hb]
      show b'.cursor.rest ++ more = more
      rw [hnil, List.nil_append]
    have hnone : used ++ left = [] := List.append_left_eq_self.mp hrest
    exact hsolid.ne_nil (List.append_eq_nil_iff.mp hnone).2

/-- **Up to a character that is not a blank** texts are read alike that are the same that far. -/
theorem leads_upTo {d : Delimiters} (hd : d.Proper) {before gap : List Char} {ch : Char}
    (hc : Text.isBlank ch = false)
    (h : (start d (String.ofList (before ++ ch :: more))).Leads types s)
    (hr : s.cursor.rest = gap ++ ch :: more) :
    ∃ b, (start d (String.ofList (before ++ [ch]))).Leads types b ∧
      b.cursor.rest = gap ++ [ch] ∧ b.extend more = s ∧
      ∀ other, (start d (String.ofList (before ++ ch :: other))).Leads types (b.extend other) := by
  have hproper := proper_start hd (String.ofList (before ++ [ch]))
  have hstart (other : List Char) : (start d (String.ofList (before ++ [ch]))).extend other =
      start d (String.ofList (before ++ ch :: other)) := by
    rw [start_extend, List.append_assoc, List.singleton_append]
  have hsolid : Text.Solid (gap ++ [ch]) := ⟨ch, List.mem_append_right gap (.head _), hc⟩
  rw [← hstart] at h
  rw [← List.singleton_append, ← List.append_assoc] at hr
  obtain ⟨b, hb, rfl⟩ := leads_of_extend_solid hproper h hr hsolid
  have hrest : b.cursor.rest = gap ++ [ch] := List.append_cancel_right hr
  refine ⟨b, hb, hrest, rfl, fun other => ?_⟩
  rw [← hstart]
  exact hb.extend_solid hproper (hrest ▸ hsolid) other

end Draft

end Mustache
