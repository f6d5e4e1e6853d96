import Mustache.Proofs.Fault
import Mustache.Proofs.Template.Progress
import Mustache.Proofs.Template.Solid

/-!
# Faults that more text does not heal

A text can be at fault because it is cut short, or because of something that has been read in full.
A fault of the second kind stays where it is with any text behind, though the step that finds it may
look ahead to the end of the text.

* `Cause.Lasting`: the causes of the second kind;
* `Tag.read_lasting`, `Draft.close_lasting`, **`Draft.step_lasting`**: a tag that is at fault;
* `Draft.run_blanks`: nothing but blanks are left; **`Draft.run_lasting`**;
* `ParseError.locate_within`: the place of a fault within a text;
* **`Token.parse_lasting`**.
-/

namespace Mustache

/-- The cause is something that has been read in full. -/
def Cause.Lasting : Cause → Prop
  | .mismatchedClose | .transformedBlock | .strayInParent | .unknownPragma => True
  | _ => False

/-! ## Tags -/

namespace Tag

open Cursor

variable {types : ContentTypes} {d : Delimiters} {start : Nat} {c : Cursor} {fault : Fault}

theorem readBlock_lasting {stop : List Char} (h : readBlock stop start c = .error fault)
    (hf : fault.cause.Lasting) (more : List Char) :
    fault.offset = start ∧ readBlock stop start (c.extend more) = .error fault := by
  unfold readBlock at h
  split at h
  · rename_i e he
    cases h
    rw [readText_error he] at hf
    exact hf.elim
  · rename_i expr n hn
    split_ifs at h with ht
    cases h
    refine ⟨rfl, ?_⟩
    obtain ⟨used, hused⟩ := ends_readText hn
    have hmore := readText_local hn hused (hused.extend more) (c.extend more).offset
    rw [readBlock, hmore]
    exact if_neg ht

theorem readPragma_lasting {stop : List Char} (hs : stop ≠ [])
    (h : readPragma types stop start c = .error fault) (hf : fault.cause.Lasting)
    (more : List Char) :
    fault.offset = start ∧ readPragma types stop start (c.extend more) = .error fault := by
  unfold readPragma at h
  split at h
  · cases h
    exact hf.elim
  · rename_i name value n hn
    split_ifs at h with ht
    cases h
    refine ⟨rfl, ?_⟩
    obtain ⟨used, hused⟩ := ends_setting hn
    rw [readPragma, setting_local hs hn hused (hused.extend more)]
    exact if_neg ht

/-- **A tag that is at fault for good** is so with any text behind. -/
theorem read_lasting (hs : d.stop.toList ≠ []) (h : read types d start c = .error fault)
    (hf : fault.cause.Lasting) (more : List Char) :
    fault.offset = start ∧ read types d start (c.extend more) = .error fault := by
  have unfinished {α : Type} {accept : List Char → Option α} {f : α × Cursor → Tag × Cursor}
      {place : Nat} {stop : List Char} {c : Cursor}
      (h : (readText place accept stop c).map f = .error fault) : False := by
    rw [readText_error (map_error h)] at hf
    exact hf
  have target {f : Target × Cursor → Tag × Cursor}
      (h : (readTarget d.stop.toList start c.tail).map f = .error fault) : False := by
    have ht := map_error h
    unfold readTarget at ht
    split at ht <;> (rw [readText_error ht] at hf; exact hf)
  have front {ch : Char} (hc : c.rest.head? = some ch) :
      (c.extend more).rest.head? = some ch ∧ (c.extend more).tail = c.tail.extend more := by
    obtain ⟨offset, rest⟩ := c
    cases rest with
    | nil => nomatch hc
    | cons x rest => exact ⟨hc, rfl⟩
  revert h
  unfold read
  dsimp only
  split
  case h_3 hc =>
    obtain ⟨hhead, htail⟩ := front hc
    rw [hhead, htail]
    exact fun h => readBlock_lasting h hf more
  case h_8 | h_9 => exact fun h => (target h).elim
  case h_10 =>
    intro h
    split at h
    · cases h
      exact hf.elim
    · nomatch h
  case h_11 hc =>
    obtain ⟨hhead, htail⟩ := front hc
    rw [hhead, htail]
    exact fun h => readPragma_lasting hs h hf more
  all_goals exact fun h => (unfinished h).elim

end Tag

/-! ## Close tags -/

namespace Overrides

theorem collect?_blanks {blanks : List Char} (hb : ∀ ch ∈ blanks, Text.isBlank ch = true)
    (body : List Token) : collect? (body ++ Token.ofText blanks) = collect? body := by
  unfold Token.ofText
  split_ifs with h
  · rw [List.append_nil]
  · have hblank : (Token.text (String.ofList blanks)).isBlank = true := by
      simpa [Token.isBlank] using hb
    cases hc : collect? body with
    | none =>
      unfold collect? at hc ⊢
      rw [List.foldlM_append, hc]
      rfl
    | some overrides =>
      unfold collect? at hc ⊢
      rw [List.foldlM_append, hc]
      simp [hblank]

end Overrides

namespace Draft

variable {types : ContentTypes} {s next : Draft} {fault : Fault} {held : List Char}
  {tag c : Cursor}

/-- What a parent collects does not depend on the blanks before its close tag. -/
theorem collect?_leave (hb : ∀ ch ∈ held, Text.isInlineBlank ch = true) (s : Draft) (c : Cursor) :
    Overrides.collect? (s.leave held c).tokens.reverse = Overrides.collect? s.tokens.reverse := by
  obtain ⟨-, c', -, he⟩ | ⟨-, he⟩ := s.leave_cases held c <;> rw [he]
  rw [pushText_tokens, List.reverse_append]
  have hrev : (Token.ofText held).reverse = Token.ofText held := by
    unfold Token.ofText
    split_ifs <;> rfl
  rw [hrev, Overrides.collect?_blanks (blank_of_inline hb)]

/-- Only a parent can hold what it may not hold. -/
theorem tokens?_eq_none_iff {f : Frame} {outer : List Frame} {raw : String} {body : List Token}
    {closedAlone : Bool} : Frame.tokens? f outer raw body closedAlone = none ↔
      (∃ target, f.opening = .parent target) ∧ Overrides.collect? body = none := by
  obtain ⟨opening, _⟩ := f
  cases opening with
  | block name =>
    rw [Frame.tokens?]
    split_ifs <;> simp
  | present | absent => simp [Frame.tokens?]
  | parent target => simp [Frame.tokens?]

/-- **A close tag that is at fault** is so with any text behind. -/
theorem close_lasting (hb : ∀ ch ∈ held, Text.isInlineBlank ch = true) {e : Expression}
    (h : s.close held tag e c = .error fault) (more : List Char) :
    (fault.offset = tag.offset ∨ ∃ f ∈ s.frames, fault.offset = f.start) ∧
      (s.extend more).close held (tag.extend more) e (c.extend more) = .error fault := by
  unfold close at h ⊢
  cases hf : s.frames with
  | nil =>
    have hframes : (s.extend more).frames = [] := by rw [extend, hf]; rfl
    rw [hf] at h
    rw [hframes]
    cases h
    exact ⟨.inl rfl, rfl⟩
  | cons f outer =>
    have hframes : (s.extend more).frames =
        f.extend more :: outer.map (Frame.extend more) := by rw [extend, hf]; rfl
    rw [hf] at h
    rw [hframes]
    dsimp only at h ⊢
    have hopening : (f.extend more).opening = f.opening := rfl
    rw [hopening]
    by_cases he : f.opening.closing ≠ e
    · rw [if_pos he] at h ⊢
      cases h
      exact ⟨.inl rfl, rfl⟩
    · rw [if_neg he] at h ⊢
      generalize hraw : String.ofList (f.body.take _) = raw at h
      cases ht : Frame.tokens? f outer raw (s.leave held c).tokens.reverse
          (s.leave held c).lineStart with
      | some tokens =>
        rw [ht] at h
        cases h
      | none =>
        rw [ht] at h
        cases h
        -- The text behind decides at most about the blanks before the close tag.
        obtain ⟨⟨target, hp⟩, hc⟩ := tokens?_eq_none_iff.mp ht
        rw [collect?_leave hb] at hc
        have hnone (outer : List Frame) (raw : String) :
            Frame.tokens? (f.extend more) outer raw
              ((s.extend more).leave held (c.extend more)).tokens.reverse
              ((s.extend more).leave held (c.extend more)).lineStart = none := by
          refine tokens?_eq_none_iff.mpr ⟨⟨target, hp⟩, ?_⟩
          rw [collect?_leave hb]
          exact hc
        rw [hnone]
        exact ⟨.inr ⟨f, List.mem_cons_self, rfl⟩, rfl⟩

/-! ## Steps and runs -/

/-- All that is open starts before the end of the text. -/
def StartsWithin (s : Draft) : Prop := ∀ f ∈ s.frames, f.start ≤ s.cursor.stop

theorem Reaches.held_inline {blanks text : List Char} {s' : Draft}
    (hr : s.Reaches blanks text s' held) (ha : s.Ahead blanks text tag) :
    ∀ ch ∈ held, Text.isInlineBlank ch = true := by
  obtain ⟨-, -, rfl⟩ | ⟨-, -, rfl⟩ := hr
  · exact ha.blanks_inline
  · nofun

theorem StartsWithin.step (h : s.StartsWithin) (hs : s.step types = .ok next) :
    next.StartsWithin := by
  unfold StartsWithin at h ⊢
  cases moves_of_step hs with
  | finish ha hr =>
    rw [pushText_frames]
    exact fun f hf => (h f hf).trans_eq ha.reads.stop.symm
  | line ha hr =>
    rw [pushText_frames]
    exact fun f hf =>
      (h f hf).trans_eq (ha.reads.trans (Cursor.reads_lineFeed hr)).stop.symm
  | @tag s' _ blanks text held tag inner c t ha hi hread hr hp =>
    obtain ⟨used, hused⟩ := Tag.reads_of_read hread
    obtain ⟨front, hfront⟩ := reads_of_place hp
    have htag := (hi.trans (hused.trans hfront)).stop
    rw [htag.trans ha.reads.stop]
    have hopen : ∀ f ∈ s'.frames, f.start ≤ s.cursor.stop := fun f hf => h f (hr.frames ▸ hf)
    cases t with
    | opening o =>
      cases hp
      refine List.forall_mem_cons.mpr ⟨?_, hopen⟩
      have hstop : tag.stop = s.cursor.stop := ha.reads.stop
      rw [← hstop]
      exact Nat.le_add_right _ _
    | closing e =>
      obtain ⟨f, outer, tokens, hf, -, -, rfl⟩ := close_spec hp
      rw [hf] at hopen
      exact (List.forall_mem_cons.mp hopen).2
    | interpolation | comment | inclusion | delimiters | pragma =>
      cases hp
      simpa using hopen

/-- **A step that fails for good** does so with any text behind, at a place within the text. -/
theorem step_lasting (hd : s.delimiters.Proper) (hs : s.StartsWithin)
    (h : s.step types = .error fault) (hf : fault.cause.Lasting) (more : List Char) :
    fault.offset ≤ s.cursor.stop ∧ (s.extend more).step types = .error fault := by
  have ha := s.ahead_spec
  by_cases hne : s.ahead.2.2.rest = []
  · nomatch (step_text hne).symm.trans h
  by_cases hl : ∃ rest, s.ahead.2.2.rest = '\n' :: rest
  · obtain ⟨rest, hr⟩ := hl
    nomatch (step_line hr).symm.trans h
  rw [not_exists] at hl
  obtain ⟨inner, hi⟩ := ha.reads_start hne hl
  have htag : s.ahead.2.2.offset ≤ s.cursor.stop := by
    rw [← ha.reads.stop]
    exact Nat.le_add_right _ _
  rw [step_tag hne hl hi] at h
  rw [step_tag_extend hd hne hl hi]
  cases hread : Tag.read types s.delimiters s.ahead.2.2.offset inner with
  | error e =>
    rw [hread] at h
    cases h
    obtain ⟨hoffset, hmore⟩ := Tag.read_lasting hd.stop_ne_nil hread hf more
    rw [hmore]
    exact ⟨hoffset.trans_le htag, rfl⟩
  | ok r =>
    obtain ⟨t, c⟩ := r
    rw [hread] at h
    change s.reached.1.place s.reached.2 s.ahead.2.2 t c = .error fault at h
    obtain ⟨used, hused⟩ := Tag.reads_of_read hread
    rw [Tag.read_local hd.stop_ne_nil hread hused (hused.extend more) s.ahead.2.2.offset]
    show _ ∧ (s.reached.1.extend more).place s.reached.2 (s.ahead.2.2.extend more) t
      (c.extend more) = _
    cases t with
    | closing e =>
      obtain ⟨hoffset, hmore⟩ := close_lasting (s.reaches_reached.held_inline ha) h more
      refine ⟨?_, hmore⟩
      obtain hoffset | ⟨f, hfm, hoffset⟩ := hoffset
      · exact hoffset.trans_le htag
      · exact hoffset.trans_le (hs f (s.reaches_reached.frames ▸ hfm))
    | interpolation | opening | comment | inclusion | delimiters | pragma => nomatch h

/-- With nothing but blanks left, only an open tag can be at fault. -/
theorem run_blanks (hs : s.Proper) (hb : ∀ ch ∈ s.cursor.rest, Text.isBlank ch = true)
    (h : s.run types = .error fault) : fault.cause = .unclosedSection := by
  fun_induction run types s with
  | case1 => cases h
  | case2 => cases h; rfl
  | case3 s he e hstep =>
    cases h
    obtain ⟨blanks, text, tag, ha, ⟨-, ho⟩ | ⟨rest, -, ho⟩ | ⟨inner, s', held, hi, -, -⟩⟩ :=
      s.step_cases types
    · cases hstep.symm.trans ho
    · cases hstep.symm.trans ho
    · -- A start delimiter is not blank.
      obtain ⟨m, mark, hm, hblank⟩ := hs.1.starts List.prefix_rfl
      rw [hb m (by rw [(ha.reads.trans hi).1, hm]; simp)] at hblank
      cases hblank
  | case4 s he next hstep _ ih =>
    obtain ⟨used, -, hreads⟩ :=
      reads_of_step hs.1.start_ne_nil (mt List.isEmpty_iff.mpr he) hstep
    exact ih (hs.step hstep)
      (fun ch hc => hb ch (hreads.1 ▸ List.mem_append_right used hc)) h
  | case5 s he next hstep hlong =>
    exact absurd (step_shorter hs.1.start_ne_nil (mt List.isEmpty_iff.mpr he) hstep) hlong

/-- **A run that fails for good** does so with any text behind, at a place within the text. -/
theorem run_lasting (hs : s.Proper) (hw : s.StartsWithin) (h : s.run types = .error fault)
    (hf : fault.cause.Lasting) (more : List Char) :
    fault.offset ≤ s.cursor.stop ∧ (s.extend more).run types = .error fault := by
  induction hn : s.cursor.rest.length using Nat.strong_induction_on generalizing s with
  | h n ih =>
    by_cases hne : s.cursor.rest = []
    · rw [run_end hne] at h
      split_ifs at h
      cases h
      exact hf.elim
    have hmore : (s.extend more).cursor.rest ≠ [] :=
      List.append_ne_nil_of_left_ne_nil hne more
    rw [run_eq hs.1.start_ne_nil hne] at h
    rw [run_eq (s := s.extend more) hs.1.start_ne_nil hmore]
    cases hstep : s.step types with
    | error e =>
      rw [hstep] at h
      cases h
      obtain ⟨hoffset, hx⟩ := step_lasting hs.1 hw hstep hf more
      rw [hx]
      exact ⟨hoffset, rfl⟩
    | ok next =>
      rw [hstep] at h
      change next.run types = .error fault at h
      have hnext := hs.step hstep
      by_cases hsolid : Text.Solid next.cursor.rest
      · obtain ⟨used, -, hreads⟩ := reads_of_step hs.1.start_ne_nil hne hstep
        have hshorter := step_shorter hs.1.start_ne_nil hne hstep
        obtain ⟨hoffset, hx⟩ := ih _ (hn ▸ hshorter) hnext (hw.step hstep) h rfl
        rw [step_extend_solid hs.1 hstep hsolid]
        exact ⟨hoffset.trans_eq hreads.stop, hx⟩
      · have hcause := run_blanks hnext (Text.not_solid_iff.mp hsolid) h
        rw [hcause] at hf
        exact hf.elim

end Draft

/-! ## Places -/

theorem Text.splitBytes_within {text : List Char} {n : ℕ} (h : n ≤ utf8Length text)
    (more : List Char) : (splitBytes n (text ++ more)).1 = (splitBytes n text).1 := by
  induction text generalizing n with
  | nil =>
    obtain rfl : n = 0 := Nat.le_zero.mp h
    rw [List.nil_append, splitBytes_zero]
    rfl
  | cons c text ih =>
    rw [List.cons_append, splitBytes, splitBytes]
    split_ifs with hc
    · rw [utf8Length] at h
      have hrest := ih (n := n - c.utf8Size) (by omega)
      simp only [hrest]
    · rfl

/-- **A fault within a text** is at the same place with more text behind. -/
theorem ParseError.locate_within {first second : String} {fault : Fault}
    (h : fault.offset ≤ Text.utf8Length first.toList) :
    (locate (first ++ second) fault).cause = (locate first fault).cause ∧
      (locate (first ++ second) fault).offset = (locate first fault).offset ∧
      (locate (first ++ second) fault).line = (locate first fault).line ∧
      (locate (first ++ second) fault).column = (locate first fault).column := by
  have hsplit := Text.splitBytes_within h second.toList
  rw [← String.toList_append] at hsplit
  unfold locate
  dsimp only
  rw [hsplit]
  exact ⟨rfl, rfl, rfl, rfl⟩

/-- **Faults in what has been read are there for good.** If a source is at fault for a close tag,
for transforms of a block, for what a parent holds, or for an unknown setting, so is every source
that starts with it, at the same offset, line and column. So a source that is cut off from a
template can only be at fault for what is missing: the close tag of a section, or the rest of a
tag. -/
theorem Token.parse_lasting {types : ContentTypes} {first : String} {e : ParseError}
    (h : Token.parse types first = .error e) (second : String) :
    (e.cause.Lasting → ∃ e', Token.parse types (first ++ second) = .error e' ∧
      e'.cause = e.cause ∧ e'.offset = e.offset ∧ e'.line = e.line ∧ e'.column = e.column) ∧
    ((∃ tokens, Token.parse types (first ++ second) = .ok tokens) →
      e.cause ∈ [.unclosedSection, .unfinishedName, .invalidDelimiters, .malformedPragma]) := by
  have hproper := Draft.proper_start Delimiters.proper_standard first
  have hstart : (Draft.start .standard first).extend second.toList =
      Draft.start .standard (first ++ second) := by
    simp [Draft.start, Draft.extend, Cursor.ofString, Cursor.extend]
  obtain ⟨fault, hrun, rfl⟩ : ∃ fault, (Draft.start .standard first).run types = .error fault ∧
      e = .locate first fault := by
    unfold Token.parse Token.parseWith at h
    cases hr : (Draft.start .standard first).run types with
    | ok final =>
      rw [hr] at h
      cases h
    | error fault =>
      rw [hr] at h
      exact ⟨fault, rfl, (Except.error.inj h).symm⟩
  have lasting (hf : fault.cause.Lasting) : ∃ e', Token.parse types (first ++ second) = .error e' ∧
      e'.cause = fault.cause ∧ e'.offset = (ParseError.locate first fault).offset ∧
      e'.line = (ParseError.locate first fault).line ∧
      e'.column = (ParseError.locate first fault).column := by
    have hwithin : (Draft.start .standard first).StartsWithin := List.forall_mem_nil _
    obtain ⟨hoffset, hx⟩ := Draft.run_lasting hproper hwithin hrun hf second.toList
    have hle : fault.offset ≤ Text.utf8Length first.toList := hoffset.trans_eq (Nat.zero_add _)
    refine ⟨.locate (first ++ second) fault, ?_, ParseError.locate_within hle⟩
    rw [Token.parse, Token.parseWith, ← hstart, hx]
  refine ⟨lasting, ?_⟩
  rintro ⟨tokens, hok⟩
  have hne := Draft.run_cause_ne hproper hrun
  have hhealed : ¬ fault.cause.Lasting := by
    intro hf
    obtain ⟨e', he', -⟩ := lasting hf
    cases hok.symm.trans he'
  show fault.cause ∈ _
  revert hne hhealed
  cases fault.cause <;> simp [Cause.Lasting]

/-- A close tag too many. -/
theorem Token.parse_lasting_close :
    Token.parse Config.builtIn.types "x\n{{/s}}" = .error ⟨.mismatchedClose, 2, 2, 1, "{{/s}}"⟩ ∧
      ∃ e, Token.parse Config.builtIn.types ("x\n{{/s}}" ++ "{{>p}}\n") = .error e ∧
        e.cause = .mismatchedClose ∧ e.offset = 2 ∧ e.line = 2 ∧ e.column = 1 := by
  have hp : Token.parse Config.builtIn.types "x\n{{/s}}" =
      .error ⟨.mismatchedClose, 2, 2, 1, "{{/s}}"⟩ := by
    cbv
  exact ⟨hp, (Token.parse_lasting hp "{{>p}}\n").1 trivial⟩

end Mustache
