import Mustache.Config.Basic
import Mustache.Proofs.Fault
import Mustache.Proofs.Template.Atop
import Mustache.Proofs.Template.Extend
import Mustache.Proofs.Template.Retrace

/-!
# A source of whole lines with more behind it

Up to the end of whole lines, reading does not look at what comes after them. So both parts of a
source are read one after the other, with the delimiters that the first part leaves.

* `Draft.settles_of_whole`: what is found before the end of a line;
* **`Draft.step_extend`**: a step within whole lines; **`Draft.step_of_extend`**: a step that ends
  before the text behind;
* `Draft.Leads.extend`, **`Draft.leads_of_extend`**: all steps through whole lines;
* **`Draft.run_extend`**: the run over whole lines; **`Token.parse_append`**.
-/

namespace Mustache

/-! ## Before the end of a line -/

namespace Text

/-- What is left of whole lines, with something left, is whole lines. -/
theorem Whole.of_append {text rest : List Char} (h : Whole (text ++ rest)) : Whole rest := by
  obtain rfl | ⟨front, c, rfl⟩ := List.eq_nil_or_concat rest
  · exact .inl rfl
  · rw [List.concat_eq_append] at h ⊢
    obtain h | ⟨whole, h⟩ := h
    · simp at h
    · rw [← List.append_assoc] at h
      exact .inr ⟨front, by rw [(List.append_inj' h rfl).2]⟩

/-- Whole lines do not end with a text without line feeds. -/
theorem Whole.ne_nil_of_append {front stop rest : List Char} (h : Whole (front ++ stop ++ rest))
    (hs : stop ≠ []) (hn : '\n' ∉ stop) : rest ≠ [] := by
  rintro rfl
  rw [List.append_nil] at h
  obtain rfl | ⟨line, rfl⟩ := h.of_append
  · exact hs rfl
  · exact hn (List.mem_append_right line (List.mem_singleton.mpr rfl))

end Text

/-- Within whole lines it is settled where a line ends. -/
theorem Cursor.settled_of_whole {c : Cursor} (hw : Text.Whole c.rest) (hne : c.rest ≠ []) :
    c.Settled := by
  have hreads := reads_skip Text.isInlineBlank c
  have hblank : ∀ ch ∈ (c.take Text.isInlineBlank).1, Text.isInlineBlank ch = true :=
    fun ch hc => List.mem_takeWhile_imp hc
  have hwhole : Text.Whole (c.skip Text.isInlineBlank).rest := .of_append (hreads.1 ▸ hw)
  constructor
  · intro hnil
    obtain ⟨front, hr⟩ := hw.resolve_left hne
    rw [hreads.1, hnil, List.append_nil] at hr
    rw [hr] at hblank
    exact absurd (hblank '\n' (List.mem_append_right front (.head _))) (by decide)
  · intro hreturn
    rw [hreturn] at hwhole
    obtain h | ⟨front, h⟩ := hwhole
    · nomatch h
    · have hlast := congrArg List.getLast? h
      rw [List.getLast?_append] at hlast
      nomatch hlast

namespace Draft

variable {s next final : Draft} {more : List Char} {tag c : Cursor} {types : ContentTypes}

/-- After a tag that stands alone a line starts. -/
theorem lineStart_of_standsAlone {blanks : List Char} {t : Tag}
    (hp : s.place blanks tag t c = .ok next) (h : s.standsAlone t c = true) :
    next.lineStart = true := by
  have hs : s.lineStart = true := by
    simp only [standsAlone, Bool.and_eq_true] at h
    exact h.1.2
  have hleave (ht : t.isInterpolation = false) : (s.leave blanks c).lineStart = true :=
    (s.leave_outline ht blanks).1.trans h
  cases t with
  | interpolation => cases h
  | opening opening =>
    cases hp
    cases opening with
    | parent target => exact hs
    | present | absent | block => exact hleave rfl
  | closing expr =>
    obtain ⟨f, outer, tokens, -, -, -, rfl⟩ := close_spec hp
    exact hleave rfl
  | comment | inclusion | delimiters | pragma =>
    cases hp
    exact hleave rfl

/-- What is left of whole lines at the next line feed or tag. -/
theorem Ahead.whole {blanks text : List Char} (ha : s.Ahead blanks text tag)
    (hw : Text.Whole s.cursor.rest) (hne : s.cursor.rest ≠ []) :
    Text.Whole tag.rest ∧ tag.rest ≠ [] := by
  refine ⟨.of_append (ha.reads.1 ▸ hw), fun hnil => ?_⟩
  obtain ⟨front, hr⟩ := hw.resolve_left hne
  rw [ha.reads.1, hnil, List.append_nil] at hr
  have hn := ha.front_no_lineFeed
  rw [hr] at hn
  exact hn (List.mem_append_right front (List.mem_singleton.mpr rfl))

section

variable (hd : s.delimiters.Proper) (hw : Text.Whole s.cursor.rest) (hne : s.cursor.rest ≠ [])

include hd hw hne

/-- A tag that is read within whole lines has whole lines behind it. -/
theorem whole_of_read {inner c : Cursor} {used : List Char}
    (hi : s.ahead.2.2.Reads s.delimiters.start.toList inner)
    (hused : inner.Reads (used ++ s.delimiters.stop.toList) c) :
    Text.Whole c.rest ∧ c.rest ≠ [] := by
  obtain ⟨hwhole, -⟩ := s.ahead_spec.whole hw hne
  have hreads := hi.trans hused
  rw [← List.append_assoc] at hreads
  exact ⟨.of_append (hreads.1 ▸ hwhole),
    Text.Whole.ne_nil_of_append (hreads.1 ▸ hwhole) hd.stop_ne_nil hd.stop_lineFeed⟩

/-- Behind a tag within whole lines it is settled where the line ends. -/
theorem settles_of_whole (left : List Char) : s.Settles left := by
  rintro inner c hi ⟨used, hused⟩ -
  obtain ⟨hc, hcne⟩ := whole_of_read hd hw hne hi hused
  exact Cursor.settled_of_whole hc hcne

/-- **A step within whole lines** does not look at what comes after them, and does not end before
the end of a line. -/
theorem step_extend (h : s.step types = .ok next) (more : List Char) :
    (s.extend more).step types = .ok (next.extend more) ∧ Text.Whole next.cursor.rest ∧
      (next.cursor.rest = [] → next.lineStart = true) := by
  obtain ⟨hwhole, hnil⟩ := s.ahead_spec.whole hw hne
  refine ⟨step_extend_of hd hnil (settles_of_whole hd hw hne _) h more, ?_⟩
  by_cases hl : ∃ rest, s.ahead.2.2.rest = '\n' :: rest
  · obtain ⟨rest, hr⟩ := hl
    rw [step_line hr] at h
    cases h
    exact ⟨.of_append ((Cursor.reads_lineFeed hr).1 ▸ hwhole), fun _ => rfl⟩
  · rw [not_exists] at hl
    obtain ⟨inner, hi⟩ := s.ahead_spec.reads_start hnil hl
    rw [step_tag hnil hl hi] at h
    cases hread : Tag.read types s.delimiters s.ahead.2.2.offset inner with
    | error fault =>
      rw [hread] at h
      nomatch h
    | ok r =>
      obtain ⟨t, c⟩ := r
      rw [hread] at h
      have hp : s.reached.1.place s.reached.2 s.ahead.2.2 t c = .ok next := h
      obtain ⟨used, hused⟩ := Tag.reads_of_read hread
      obtain ⟨hc, hcne⟩ := whole_of_read hd hw hne hi hused
      refine ⟨?_, fun hend => ?_⟩
      · obtain ⟨front, hfront⟩ := reads_of_place hp
        exact .of_append (hfront.1 ▸ hc)
      · obtain ⟨hs, -⟩ | ⟨-, he⟩ := place_cursor hp
        · exact lineStart_of_standsAlone hp hs
        · exact absurd (he ▸ hend) hcne

/-- **A step that does not reach the text behind whole lines** is a step over these lines alone. -/
theorem step_of_extend (h : (s.extend more).step types = .ok next)
    (hmore : more.length ≤ next.cursor.rest.length) :
    ∃ next', s.step types = .ok next' ∧ next'.extend more = next := by
  obtain ⟨-, hnil⟩ := s.ahead_spec.whole hw hne
  have hxne : (s.extend more).cursor.rest ≠ [] := List.append_ne_nil_of_left_ne_nil hne more
  obtain ⟨used, -, hreads⟩ := reads_of_step (s := s.extend more) hd.start_ne_nil hxne h
  obtain ⟨left, hleft⟩ : more <:+ next.cursor.rest :=
    List.suffix_of_suffix_length_le ⟨s.cursor.rest, rfl⟩ ⟨used, hreads.1.symm⟩ hmore
  exact step_of_extend_of hd hnil (settles_of_whole hd hw hne left) h hleft.symm

end

/-! ## On the way through whole lines -/

/-- **What is read of whole lines** is read with more text behind them. Where they end, a line
starts. -/
theorem Leads.extend (hs : s.Proper) (hw : Text.Whole s.cursor.rest)
    (hl : s.cursor.rest = [] → s.lineStart = true) (h : s.Leads types final) (more : List Char) :
    (s.extend more).Leads types (final.extend more) ∧ Text.Whole final.cursor.rest ∧
      (final.cursor.rest = [] → final.lineStart = true) := by
  induction h with
  | refl => exact ⟨.refl, hw, hl⟩
  | @tail b final h hstep ih =>
    obtain ⟨hleads, hwhole, -⟩ := ih
    obtain ⟨hx, hnext⟩ := step_extend (Leads.proper h hs).1 hwhole hstep.1 hstep.2 more
    exact ⟨hleads.step (List.append_ne_nil_of_left_ne_nil hstep.1 more) hx, hnext⟩

/-- **What is read of whole lines** is read without what comes behind them. -/
theorem leads_of_extend (hs : s.Proper) (hw : Text.Whole s.cursor.rest)
    (h : (s.extend more).Leads types final) (hmore : more.length ≤ final.cursor.rest.length) :
    ∃ final', s.Leads types final' ∧ final'.extend more = final ∧
      Text.Whole final'.cursor.rest := by
  induction h with
  | refl => exact ⟨s, .refl, rfl, hw⟩
  | tail h hstep ih =>
    have hd := (Leads.proper h (proper_extend hs more)).1.start_ne_nil
    have hshorter := step_shorter hd hstep.1 hstep.2
    obtain ⟨b, hb, rfl, hwb⟩ := ih (by omega)
    have hbd := (hb.proper hs).1
    have hne : b.cursor.rest ≠ [] := by
      intro hnil
      have hlength : (b.extend more).cursor.rest.length = more.length := by
        show (b.cursor.rest ++ more).length = more.length
        rw [hnil, List.nil_append]
      omega
    obtain ⟨b', hb', rfl⟩ := step_of_extend hbd hwb hne hstep.2 hmore
    exact ⟨b', hb.step hne hb', rfl, (step_extend hbd hwb hne hb' more).2.1⟩

/-! ## Runs -/

/-- **The run over whole lines**, with more text behind them. It ends where a line starts. -/
theorem run_extend (hs : s.Proper) (hw : Text.Whole s.cursor.rest)
    (hl : s.cursor.rest = [] → s.lineStart = true) (h : s.run types = .ok final)
    (more : List Char) :
    (s.extend more).run types = (final.extend more).run types ∧ final.lineStart = true ∧
      final.cursor.offset = s.cursor.stop := by
  fun_induction run types s with
  | case1 s he hf =>
    cases h
    have hrest := List.isEmpty_iff.mp he
    refine ⟨rfl, hl hrest, ?_⟩
    rw [Cursor.stop, hrest]
    rfl
  | case2 => cases h
  | case3 => cases h
  | case4 s he next hstep hlt ih =>
    have hne : s.cursor.rest ≠ [] := mt List.isEmpty_iff.mpr he
    obtain ⟨hx, hwhole, hline⟩ := step_extend hs.1 hw hne hstep more
    obtain ⟨hrun, hstart, hoffset⟩ := ih (hs.step hstep) hwhole hline h
    obtain ⟨used, -, hreads⟩ := reads_of_step hs.1.start_ne_nil hne hstep
    have hxne : (s.extend more).cursor.rest ≠ [] := by
      show s.cursor.rest ++ more ≠ []
      simp [hne]
    refine ⟨?_, hstart, hoffset.trans hreads.stop⟩
    rw [run_eq (s := s.extend more) hs.1.start_ne_nil hxne, hx]
    exact hrun
  | case5 => cases h

end Draft

/-- **A source of whole lines and more behind it are read one after the other**, the second part
with the delimiters that the first one leaves: its tokens follow those of the first part, and its
fault is the same, that many bytes and lines further down. -/
theorem Token.parse_append {types : ContentTypes} {first : String} {tokens : List Token}
    (hw : Text.Whole first.toList) (h : Token.parse types first = .ok tokens) (second : String) :
    ∃ final, (Draft.start .standard first).run types = .ok final ∧
      final.tokens.reverse = tokens ∧
      Token.parse types (first ++ second) =
        match Token.parseWith final.delimiters types second with
        | .ok more => .ok (tokens ++ more)
        | .error e =>
          .error (e.later (Text.utf8Length first.toList) (first.toList.count '\n')) := by
  obtain ⟨final, hr, ht⟩ := Token.parseWith_eq_ok.mp h
  refine ⟨final, hr, ht, ?_⟩
  have hproper := Draft.proper_start Delimiters.proper_standard first
  obtain ⟨-, hframes, hrest⟩ := Draft.run_keeps (P := fun _ => True) (fun _ _ _ _ => trivial)
    trivial hr
  obtain ⟨hrun, hline, hoffset⟩ := Draft.run_extend hproper hw (fun _ => rfl) hr second.toList
  have hstart : Draft.start .standard (first ++ second) =
      (Draft.start .standard first).extend second.toList := by
    simp only [Draft.start, Draft.extend, Cursor.ofString, Cursor.extend, String.toList_append,
      List.map_nil]
  have hafter : final.extend second.toList = final.atop (Draft.start final.delimiters second) := by
    obtain ⟨⟨offset, rest⟩, lineStart, d, read, frames⟩ := final
    cases hframes
    cases hrest
    cases hline
    rfl
  rw [← hstart, hafter, Draft.run_atop hframes] at hrun
  rw [Token.parse, Token.parseWith, hrun, Token.parseWith]
  have hbytes : final.cursor.offset = Text.utf8Length first.toList := hoffset.trans (Nat.zero_add _)
  cases hsecond : (Draft.start final.delimiters second).run types with
  | error fault =>
    simp only [Draft.atopResult, Fault.shift, hbytes]
    rw [ParseError.locate_append hw]
  | ok last =>
    obtain ⟨-, hlast, -⟩ := Draft.run_keeps (P := fun _ => True) (fun _ _ _ _ => trivial)
      trivial hsecond
    simp only [Draft.atopResult, Draft.atop, hlast, Draft.tokensAtop, List.reverse_append, ht]

/-- A line that changes the delimiters, and a tag with the new ones. -/
theorem Token.parse_append_delimiters :
    Text.Whole "{{=<% %>=}}\n".toList ∧
      Token.parse Config.builtIn.types "{{=<% %>=}}\n" = .ok [] ∧
      Token.parse Config.builtIn.types ("{{=<% %>=}}\n" ++ "<%x%>") =
        .ok ([] ++ [.variableTag (.plain "x")]) := by
  have hw : Text.Whole "{{=<% %>=}}\n".toList :=
    .inr ⟨"{{=<% %>=}}".toList, by decide⟩
  have hp : Token.parse Config.builtIn.types "{{=<% %>=}}\n" = .ok [] := by cbv
  have hf : (Draft.start .standard "{{=<% %>=}}\n").run Config.builtIn.types =
      .ok ⟨⟨12, []⟩, true, ⟨"<%", "%>"⟩, [], []⟩ := by
    cbv
  have hs : Token.parseWith ⟨"<%", "%>"⟩ Config.builtIn.types "<%x%>" =
      .ok [.variableTag (.plain "x")] := by
    cbv
  obtain ⟨final, hr, -, happend⟩ := Token.parse_append hw hp "<%x%>"
  rw [hf] at hr
  cases hr
  rw [hs] at happend
  exact ⟨hw, hp, happend⟩

end Mustache
