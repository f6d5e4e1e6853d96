import Mustache.Proofs.Tag.Sigil
import Mustache.Proofs.Template.Lasting

/-!
# A fault is that of the first tag that has one

Reading stops at a tag that is at fault, or at the close tag of a parent that holds something else
than blocks; then the parent is to blame. The fault points at the tag, and what comes before the tag
lacks close tags at most.

* `Tag.IsPlace`: the places in a tag that a fault can point at; `Tag.place_of_read`;
* `Draft.TagAt`: reading meets a tag; `Draft.tagAt_of_leads`: so it has met every tag that is open;
* `Draft.exists_step_of_extend`: a step that succeeds with more text behind it;
  **`Draft.run_upTo`**: the text before a tag on its own;
* **`Draft.tagAt_of_step`**, **`Token.parse_blames`**.
-/

namespace Mustache

/-! ## Places in a tag -/

namespace Tag

/-- The places in a tag behind `before` that a fault can point at: the start of the tag, what comes
behind the start delimiter, and what comes behind a sigil. -/
def IsPlace (d : Delimiters) (before inner : List Char) (offset : Nat) : Prop :=
  offset = Text.utf8Length before ∨ offset = Text.utf8Length (before ++ d.start.toList) ∨
    ∃ mark rest, inner = mark :: rest ∧ mark ∈ Sigil.marks ∧
      offset = Text.utf8Length (before ++ d.start.toList ++ [mark])

variable {types : ContentTypes} {d : Delimiters} {stop : List Char} {start : Nat} {c : Cursor}
  {fault : Fault}

theorem place_of_readBlock (h : readBlock stop start c = .error fault) :
    fault.offset = start ∨ fault.offset = c.offset := by
  unfold readBlock at h
  split at h
  · rename_i e he
    cases h
    exact .inr (by rw [readText_error he])
  · split_ifs at h
    cases h
    exact .inl rfl

theorem place_of_readTarget (h : readTarget stop start c = .error fault) :
    fault.offset = start := by
  unfold readTarget at h
  split at h <;> rw [readText_error h]

theorem place_of_readPragma (h : readPragma types stop start c = .error fault) :
    fault.offset = start := by
  unfold readPragma at h
  split at h
  · cases h
    rfl
  · split_ifs at h
    cases h
    rfl

/-- **Where a tag is at fault**: at its start, behind its start delimiter or behind its sigil. -/
theorem place_of_read (h : read types d start c = .error fault) :
    fault.offset = start ∨ fault.offset = c.offset ∨
      ∃ mark ∈ Sigil.marks, c.rest.head? = some mark ∧ fault.offset = c.tail.offset := by
  have text {α : Type} {accept : List Char → Option α} {f : α × Cursor → Tag × Cursor}
      {place : Nat} {stop : List Char} {c : Cursor}
      (h : (readText place accept stop c).map f = .error fault) : fault.offset = place := by
    rw [readText_error (map_error h)]
  have sigil {mark : Char} (hc : c.rest.head? = some mark) (hm : mark ∈ Sigil.marks)
      (ho : fault.offset = c.tail.offset) : fault.offset = start ∨ fault.offset = c.offset ∨
        ∃ mark ∈ Sigil.marks, c.rest.head? = some mark ∧ fault.offset = c.tail.offset :=
    .inr (.inr ⟨mark, hm, hc, ho⟩)
  unfold read at h
  simp only at h
  split at h
  case h_1 hc | h_2 hc | h_4 hc | h_5 hc | h_6 hc => exact sigil hc (by decide) (text h)
  case h_3 hc =>
    obtain ho | ho := place_of_readBlock h
    · exact .inl ho
    · exact sigil hc (by decide) ho
  case h_7 => exact .inl (text h)
  case h_8 | h_9 => exact .inl (place_of_readTarget (map_error h))
  case h_10 =>
    split at h
    · cases h
      exact .inl rfl
    · nomatch h
  case h_11 => exact .inl (place_of_readPragma h)
  case h_12 => exact .inr (.inl (text h))

end Tag

namespace Draft

variable {types : ContentTypes} {d : Delimiters} {source : String} {s next final : Draft}
  {fault : Fault} {blanks text left more : List Char} {tag inner : Cursor}

/-! ## Where reading meets a tag -/

theorem Leads.reads (h : s.Leads types next) (hs : s.Proper) :
    ∃ used, s.cursor.Reads used next.cursor := by
  induction h with
  | refl => exact ⟨[], rfl, rfl⟩
  | tail h hstep ih =>
    obtain ⟨front, hfront⟩ := ih
    obtain ⟨used, -, hused⟩ := reads_of_step (Leads.proper h hs).1.start_ne_nil hstep.1 hstep.2
    exact ⟨_, hfront.trans hused⟩

/-- Reading a source that starts with the delimiters `d` meets a tag behind `before`: it starts with
the start delimiter of those that are in force there, and goes on with `inner`. -/
def TagAt (types : ContentTypes) (d : Delimiters) (source : String) (here : Delimiters)
    (before inner : List Char) : Prop :=
  ∃ s blanks text tag, (start d source).Leads types s ∧ s.delimiters = here ∧
    s.Ahead blanks text tag ∧ tag.rest = here.start.toList ++ inner ∧
    source.toList = before ++ tag.rest ∧ tag.offset = Text.utf8Length before

/-- A tag that lies ahead is met. -/
theorem Ahead.tagAt (ha : s.Ahead blanks text tag) (hd : d.Proper)
    (hs : (start d source).Leads types s) (hi : tag.Reads s.delimiters.start.toList inner) :
    ∃ before, TagAt types d source s.delimiters before inner.rest ∧
      tag.offset = Text.utf8Length before := by
  obtain ⟨used, hused⟩ := hs.reads (proper_start hd source)
  obtain ⟨hsource, hoffset⟩ := hused.trans ha.reads
  have hbefore : tag.offset = Text.utf8Length (used ++ (blanks ++ text)) :=
    hoffset.trans (Nat.zero_add _)
  exact ⟨_, ⟨s, blanks, text, tag, hs, rfl, ha, hi.1, hsource, hbefore⟩, hbefore⟩

/-- **Every tag that is open has been met.** -/
theorem tagAt_of_leads (hd : d.Proper) (h : (start d source).Leads types s) :
    ∀ f ∈ s.frames, ∃ here before inner, TagAt types d source here before inner ∧
      f.start = Text.utf8Length before := by
  induction h with
  | refl => exact nofun
  | @tail b next hb hstep ih =>
    cases moves_of_step hstep.2 with
    | finish | line =>
      rw [pushText_frames]
      exact ih
    | @tag s' _ blanks text held tag inner c t ha hi hread hr hp =>
      rw [← hr.frames] at ih
      cases t with
      | opening o =>
        cases hp
        obtain ⟨before, hat, hoffset⟩ := ha.tagAt hd hb hi
        exact List.forall_mem_cons.mpr ⟨⟨_, before, _, hat, hoffset⟩, ih⟩
      | closing e =>
        obtain ⟨f, outer, tokens, hf, -, -, rfl⟩ := close_spec hp
        rw [hf] at ih
        exact (List.forall_mem_cons.mp ih).2
      | interpolation | comment | inclusion | delimiters | pragma =>
        cases hp
        simpa using ih

/-! ## The text before a tag -/

/-- **A step that succeeds with more text behind it** succeeds without this text, though it may take
more of the line: if nothing but blanks were left before the text behind, nothing but blanks are
left. -/
theorem exists_step_of_extend (hd : s.delimiters.Proper)
    (h : (s.extend more).step types = .ok next) (hr : next.cursor.rest = left ++ more)
    (hne : left ++ more ≠ []) (hb : ∀ ch ∈ left, Text.isBlank ch = true) :
    ∃ next', s.step types = .ok next' ∧ ∀ ch ∈ next'.cursor.rest, Text.isBlank ch = true := by
  have hahead := ahead_ne_nil_of_extend hd h hr hne
  by_cases hl : ∃ rest, s.ahead.2.2.rest = '\n' :: rest
  · obtain ⟨rest, hrest⟩ := hl
    rw [step_line_extend hd hahead hrest, step_line hrest] at h
    cases h
    refine ⟨_, step_line hrest, ?_⟩
    rwa [List.append_cancel_right hr]
  · rw [not_exists] at hl
    obtain ⟨inner, hi⟩ := s.ahead_spec.reads_start hahead hl
    rw [step_tag_extend hd hahead hl hi] at h
    cases hread : Tag.read types s.delimiters s.ahead.2.2.offset (inner.extend more) with
    | error fault =>
      rw [hread] at h
      nomatch h
    | ok r =>
      obtain ⟨t, c⟩ := r
      rw [hread] at h
      change (s.reached.1.extend more).place s.reached.2 (s.ahead.2.2.extend more) t c = _ at h
      obtain ⟨used, hused⟩ := Tag.reads_of_read hread
      obtain ⟨front, hfront, hblank, -⟩ := silent_of_place h
      -- The tag ends before the text behind.
      obtain ⟨offset, crest⟩ := c
      obtain rfl : crest = front ++ left ++ more := by
        rw [List.append_assoc, ← hr]
        exact hfront.1
      have hinner : inner.Reads (used ++ s.delimiters.stop.toList) ⟨offset, front ++ left⟩ :=
        Cursor.Reads.of_extend hused
      have hread' := Tag.read_local hd.stop_ne_nil hread hused hinner s.ahead.2.2.offset
      rw [step_tag hahead hl hi, hread']
      show ∃ next', s.reached.1.place s.reached.2 s.ahead.2.2 t ⟨offset, front ++ left⟩ =
        .ok next' ∧ _
      cases hp : s.reached.1.place s.reached.2 s.ahead.2.2 t ⟨offset, front ++ left⟩ with
      | error fault =>
        cases t with
        | closing e =>
          have hheld := s.reaches_reached.held_inline s.ahead_spec
          nomatch h.symm.trans (close_lasting hheld hp more).2
        | interpolation | opening | comment | inclusion | delimiters | pragma => nomatch hp
      | ok next' =>
        obtain ⟨front', hfront'⟩ := reads_of_place hp
        refine ⟨next', rfl, fun ch hch => ?_⟩
        have hall : ∀ ch ∈ front ++ left, Text.isBlank ch = true :=
          List.forall_mem_append.mpr ⟨hblank, hb⟩
        have hrest : front ++ left = front' ++ next'.cursor.rest := hfront'.1
        exact hall ch (hrest ▸ List.mem_append_right front' hch)

/-- Behind the last tag there is only text. -/
theorem run_ahead (hs : s.Proper) (ha : s.Ahead blanks text tag) (hr : tag.rest = [])
    (h : s.run types = .error fault) : fault.cause = .unclosedSection := by
  have atEnd {s : Draft} (he : s.cursor.rest = []) (h : s.run types = .error fault) :
      fault.cause = .unclosedSection := by
    rw [run_end he] at h
    split_ifs at h
    cases h
    rfl
  by_cases hne : s.cursor.rest = []
  · exact atEnd hne h
  · have hahead : s.ahead.2.2.rest = [] := by rw [ha.eq hs.1, hr]
    rw [run_eq hs.1.start_ne_nil hne, step_text hahead] at h
    exact atEnd hahead h

/-- **The text before a tag on its own**, if reading gets to the tag, lacks close tags at most. -/
theorem run_upTo (hs : s.Proper) (h : (s.extend more).Leads types final)
    (ha : final.Ahead blanks text tag) (hr : tag.rest = more) (hne : more ≠ [])
    (hrun : s.run types = .error fault) : fault.cause = .unclosedSection := by
  induction hn : s.cursor.rest.length using Nat.strong_induction_on generalizing s with
  | h n ih =>
    obtain rfl | ⟨next, ⟨hnil, hstep⟩, hnext⟩ := Relation.ReflTransGen.cases_head h
    · obtain ⟨offset, rest⟩ := tag
      obtain rfl : rest = [] ++ more := hr
      have ha' : s.Ahead blanks text ⟨offset, []⟩ := Ahead.of_extend ha nofun
      exact run_ahead hs ha' rfl hrun
    · have hproper := proper_extend hs more
      have hshorter := step_shorter hproper.1.start_ne_nil hnil hstep
      -- What is left after the step ends with the text behind, which starts with the tag.
      obtain ⟨left, hleft⟩ : more <:+ next.cursor.rest := by
        have htag : more <:+ final.cursor.rest := ⟨blanks ++ text, by rw [ha.reads.1, hr]⟩
        exact htag.trans (Leads.suffix hnext (hproper.step hstep))
      have hshort : left.length < s.cursor.rest.length := by
        rw [← hleft, List.length_append] at hshorter
        have hextend : (s.extend more).cursor.rest = s.cursor.rest ++ more := rfl
        rw [hextend, List.length_append] at hshorter
        omega
      have hsne : s.cursor.rest ≠ [] := List.ne_nil_of_length_pos (by omega)
      have hleft' : left ++ more ≠ [] := List.append_ne_nil_of_right_ne_nil left hne
      rw [run_eq hs.1.start_ne_nil hsne] at hrun
      by_cases hsolid : Text.Solid left
      · obtain ⟨next', hs', rfl⟩ := step_of_extend_solid hs.1 hstep hleft.symm hsolid
        rw [hs'] at hrun
        have hrest : next'.cursor.rest = left := List.append_cancel_right hleft.symm
        exact ih _ (by rw [hrest, ← hn]; exact hshort) (hs.step hs') hnext hrun rfl
      · obtain ⟨next', hs', hblank⟩ :=
          exists_step_of_extend hs.1 hstep hleft.symm hleft' (Text.not_solid_iff.mp hsolid)
        rw [hs'] at hrun
        exact run_blanks (hs.step hs') hblank hrun

section

variable {here : Delimiters} {before inner : List Char}

theorem TagAt.toList_eq (h : TagAt types d source here before inner) :
    source.toList = before ++ here.start.toList ++ inner := by
  obtain ⟨s, blanks, text, tag, -, -, -, hr, hsource, -⟩ := h
  rw [hsource, hr, List.append_assoc]

/-- The text before a tag that reading meets. -/
theorem TagAt.run (hd : d.Proper) (h : TagAt types d source here before inner)
    (hrun : (start d (String.ofList before)).run types = .error fault) :
    fault.cause = .unclosedSection := by
  obtain ⟨s, blanks, text, tag, hs, rfl, ha, hr, hsource, -⟩ := h
  have hstart : (start d (String.ofList before)).extend tag.rest = start d source := by
    rw [start_extend, ← hsource, String.ofList_toList]
  have hne : tag.rest ≠ [] := by
    rw [hr]
    have hproper := (hs.proper (proper_start hd source)).1
    exact List.append_ne_nil_of_left_ne_nil hproper.start_ne_nil inner
  exact run_upTo (proper_start hd _) (hstart ▸ hs) ha rfl hne hrun

end

/-! ## The tag that is at fault -/

/-- **A step that fails** is at fault with a tag that has been met: the one that it reads, or the
parent that it closes. -/
theorem tagAt_of_step (hd : d.Proper) (hs : (start d source).Leads types s)
    (h : s.step types = .error fault) : ∃ here before inner,
      TagAt types d source here before inner ∧ Tag.IsPlace here before inner fault.offset := by
  obtain ⟨blanks, text, tag, ha, ⟨-, ho⟩ | ⟨rest, -, ho⟩ | ⟨inner, s', held, hi, hr, ho⟩⟩ :=
    s.step_cases types
  · nomatch ho.symm.trans h
  · nomatch ho.symm.trans h
  obtain ⟨before, hat, hoffset⟩ := ha.tagAt hd hs hi
  rw [ho] at h
  cases hread : Tag.read types s.delimiters tag.offset inner with
  | error e =>
    rw [hread] at h
    cases h
    refine ⟨_, before, _, hat, ?_⟩
    have hinner : inner.offset =
        Text.utf8Length (before ++ s.delimiters.start.toList) := by
      rw [hi.2, hoffset, Text.utf8Length_append]
    obtain hplace | hplace | ⟨mark, hm, hhead, hplace⟩ := Tag.place_of_read hread
    · exact .inl (hplace.trans hoffset)
    · exact .inr (.inl (hplace.trans hinner))
    · have htail := Cursor.reads_tail hhead
      refine .inr (.inr ⟨mark, inner.tail.rest, htail.1, hm, ?_⟩)
      rw [hplace, htail.2, hinner, ← Text.utf8Length_append]
  | ok r =>
    obtain ⟨t, c⟩ := r
    rw [hread] at h
    change s'.place held tag t c = .error fault at h
    cases t with
    | closing e =>
      obtain hfault | ⟨f, hf, hfault⟩ := (close_lasting (hr.held_inline ha) h []).1
      · exact ⟨_, before, _, hat, .inl (hfault.trans hoffset)⟩
      · obtain ⟨here, before, inner, hat, hstart⟩ := tagAt_of_leads hd hs f (hr.frames ▸ hf)
        exact ⟨here, before, inner, hat, .inl (hfault.trans hstart)⟩
    | interpolation | opening | comment | inclusion | delimiters | pragma => nomatch h

/-- **A run that fails** does so at the end of the source, or at a tag that has been met. -/
theorem tagAt_of_run (hd : d.Proper) (h : (start d source).run types = .error fault) :
    fault.cause = .unclosedSection ∧ fault.offset = Text.utf8Length source.toList ∨
      ∃ here before inner, TagAt types d source here before inner ∧
        Tag.IsPlace here before inner fault.offset := by
  have hproper := proper_start hd source
  obtain ⟨n, last, hlast, hend⟩ := exists_last types hproper
  have hleads := hlast.leads
  rw [hleads.run hproper] at h
  by_cases hnil : last.cursor.rest = []
  · rw [run_end hnil] at h
    split_ifs at h
    cases h
    obtain ⟨used, hsource, hoffset⟩ := hleads.reads hproper
    rw [hnil, List.append_nil] at hsource
    refine .inl ⟨rfl, hoffset.trans ?_⟩
    rw [← hsource]
    exact Nat.zero_add _
  · obtain ⟨e, hstep⟩ := hend.resolve_left hnil
    rw [run_eq (hleads.proper hproper).1.start_ne_nil hnil, hstep] at h
    cases h
    exact .inr (tagAt_of_step hd hleads hstep)

end Draft

/-! ## The place that is reported -/

/-- A place in a tag comes behind a part of the source. -/
theorem Tag.IsPlace.front {d : Delimiters} {before inner : List Char} {offset : Nat}
    (h : IsPlace d before inner offset) : ∃ front rest,
      before ++ d.start.toList ++ inner = front ++ rest ∧ offset = Text.utf8Length front := by
  obtain ho | ho | ⟨mark, rest, rfl, -, ho⟩ := h
  · exact ⟨before, _, List.append_assoc _ _ _, ho⟩
  · exact ⟨_, inner, rfl, ho⟩
  · exact ⟨_, rest, by simp, ho⟩

/-- **The fault that is reported is the first, and points at its tag.** If a template cannot be
read, it ends inside a section, or there is a tag to blame, which reading meets and which starts
with the start delimiter that is in force there. The fault is reported at the start of this tag,
behind its start delimiter or behind its sigil, and the text before the tag can be read, or at most
ends inside a section. -/
theorem Token.parse_blames {types : ContentTypes} {source : String} {e : ParseError}
    (h : parse types source = .error e) :
    e.cause = .unclosedSection ∧ e.offset = Text.utf8Length source.toList ∨
      ∃ here before inner, Draft.TagAt types .standard source here before inner ∧
        source.toList = before ++ here.start.toList ++ inner ∧
        Tag.IsPlace here before inner e.offset ∧
        ((∃ tokens, parse types (String.ofList before) = .ok tokens) ∨
          ∃ e', parse types (String.ofList before) = .error e' ∧ e'.cause = .unclosedSection) := by
  have hd := Delimiters.proper_standard
  obtain ⟨fault, hrun, rfl⟩ := parseWith_eq_error.mp h
  have reported {front rest : List Char} (hsource : source.toList = front ++ rest)
      (ho : fault.offset = Text.utf8Length front) :
      (ParseError.locate source fault).offset = fault.offset := by
    obtain ⟨cause, offset⟩ := fault
    subst ho
    exact ParseError.offset_locate hsource cause
  obtain ⟨hcause, ho⟩ | ⟨here, before, inner, hat, hplace⟩ := Draft.tagAt_of_run hd hrun
  · exact .inl ⟨hcause, (reported (List.append_nil _).symm ho).trans ho⟩
  · have hsource := hat.toList_eq
    obtain ⟨front, rest, hfront, ho⟩ := hplace.front
    refine .inr ⟨here, before, inner, hat, hsource, ?_, ?_⟩
    · rwa [reported (hsource.trans hfront) ho]
    · cases hbefore : parse types (String.ofList before) with
      | ok tokens => exact .inl ⟨tokens, rfl⟩
      | error e' =>
        obtain ⟨fault', hrun', rfl⟩ := parseWith_eq_error.mp hbefore
        exact .inr ⟨_, rfl, hat.run hd hrun'⟩

/-- A parent that holds a text, inside a section and after a change of delimiters. -/
theorem Token.parse_blames_parent :
    Token.parse Config.builtIn.types "{{=<% %>=}}\n<%#s%>\n<%<p%>x<%/p%>" =
        .error ⟨.strayInParent, 19, 3, 1, "<%<p%>x<%/p%>"⟩ ∧
      ∃ here before inner,
        Draft.TagAt Config.builtIn.types .standard
            "{{=<% %>=}}\n<%#s%>\n<%<p%>x<%/p%>" here before inner ∧
          Tag.IsPlace here before inner 19 := by
  have hp : Token.parse Config.builtIn.types "{{=<% %>=}}\n<%#s%>\n<%<p%>x<%/p%>" =
      .error ⟨.strayInParent, 19, 3, 1, "<%<p%>x<%/p%>"⟩ := by
    cbv
  obtain ⟨here, before, inner, hat, -, hplace, -⟩ := (Token.parse_blames hp).resolve_left (by simp)
  exact ⟨hp, here, before, inner, hat, hplace⟩

end Mustache
