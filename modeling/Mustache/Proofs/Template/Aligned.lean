import Mustache.Config.Basic
import Mustache.Proofs.Template.Append
import Mustache.Proofs.Template.Sections
import Mustache.Render

/-!
# A section of whole lines is the same on its own

The body of a section is compiled in place, and again from its text when a lambda answers with that
text. If a line starts where the body does, and the body ends where a line does, both give the same
tokens, layout included.

* `Draft.BodyAt`: where in a source the body of a token starts;
* `Draft.Traced`: what holds of every draft that reading a source leads to; **`Draft.Traced.step`**;
* **`Draft.Traced.parseWith`**: when a section of whole lines is closed;
* **`Token.reparse_of_parse`**.
-/

namespace Mustache

namespace Draft

variable {types : ContentTypes} {d : Delimiters} {source : String} {s next final : Draft}
  {f : Frame} {outer : List Frame} {more : List Char} {t : Token}

/-! ## Where a body starts -/

/-- Reading the source closes a tag whose body starts behind `before`, and the token stands for
it. -/
def BodyAt (types : ContentTypes) (d : Delimiters) (source : String) (before : List Char)
    (t : Token) : Prop :=
  ∃ s next f, (start d source).Leads types s ∧ s.cursor.rest ≠ [] ∧ s.step types = .ok next ∧
    s.frames = f :: next.frames ∧ next.tokens = t :: f.outer ∧ source.toList = before ++ f.body

/-- If the token is a section, its body is at a place in the source where its text is. -/
def Located (types : ContentTypes) (d : Delimiters) (source : String) (t : Token) : Prop :=
  ∀ src body, t.section? = some (src, body) → ∃ before after,
    BodyAt types d source before t ∧ source.toList = before ++ (src.raw.toList ++ after)

theorem located_of_section?_eq_none (ht : t.section? = none) : Located types d source t := by
  intro src body h
  rw [ht] at h
  nomatch h

/-- **What holds of every draft that reading a source leads to**: every body that is open, other
than a parent's, can be read on its own, it stands alone if it starts behind a line feed, and the
sections that are closed are where their texts are. -/
structure Traced (types : ContentTypes) (d : Delimiters) (source : String) (s : Draft) : Prop where
  leads : (start d source).Leads types s
  proper : s.Proper
  behind : s.Behind
  retraces : ∀ f outer, f :: outer <:+ s.frames → (∀ target, f.opening ≠ .parent target) →
    Retraces types s f outer
  starts : ∀ f ∈ s.frames, f.body <:+ source.toList ∧
    ∀ before, source.toList = before ++ '\n' :: f.body → f.alone = true
  sections : s.Holds (Located types d source)

theorem traced_start (types : ContentTypes) (hd : d.Proper) (source : String) :
    (start d source).Traced types d source where
  leads := .refl
  proper := proper_start hd source
  behind := nofun
  retraces f outer h := by
    have hnil : f :: outer = [] := List.suffix_nil.mp h
    cases hnil
  starts := nofun
  sections := ⟨nofun, nofun⟩

/-- A body that starts behind a line feed is that of a tag that stands alone: an end delimiter has
no line feed. -/
theorem Traced.starts_step (hd : d.Proper) (h : s.Traced types d source) (hne : s.cursor.rest ≠ [])
    (hs : s.step types = .ok next) : ∀ f ∈ next.frames, f.body <:+ source.toList ∧
      ∀ before, source.toList = before ++ '\n' :: f.body → f.alone = true := by
  have hstart := proper_start hd source
  obtain hframes | ⟨s', held, start, o, c, used, hframes, hreads, rfl⟩ := frames_of_step hs
  · exact fun f hf => h.starts f (hframes.subset hf)
  refine List.forall_mem_cons.mpr ⟨⟨?_, fun before hbefore => ?_⟩, fun f hf =>
    h.starts f (hframes ▸ hf)⟩
  · exact (h.leads.step hne hs).suffix hstart
  · obtain ⟨front, hfront⟩ : s.cursor.rest <:+ source.toList := h.leads.suffix hstart
    change source.toList = before ++ '\n' :: (s'.leave held c).cursor.rest at hbefore
    show (s'.leave held c).lineStart = true
    obtain ⟨-, c', -, he⟩ | ⟨-, he⟩ := s'.leave_cases held c
    · rw [he]
    · rw [he, ← hfront, hreads.1] at hbefore
      have hstop := h.proper.1.stop_lineFeed
      obtain hnil | ⟨more, x, hx⟩ := List.eq_nil_or_concat s.delimiters.stop.toList
      · exact absurd hnil h.proper.1.stop_ne_nil
      · have hlast : front ++ (used ++ more) ++ [x] = before ++ ['\n'] := by
          refine List.append_cancel_right (?_ : _ ++ c.rest = _ ++ c.rest)
          simpa [hx] using hbefore
        obtain rfl : x = '\n' := List.singleton_inj.mp (List.append_inj' hlast rfl).2
        exact absurd (by simp [hx]) hstop

/-- **From one step to the next.** -/
theorem Traced.step (hd : d.Proper) (h : s.Traced types d source) (hne : s.cursor.rest ≠ [])
    (hs : s.step types = .ok next) : next.Traced types d source where
  leads := h.leads.step hne hs
  proper := h.proper.step hs
  behind := h.behind.step h.proper.1.start_ne_nil hne hs
  retraces _ _ hopen hf := retraces_step h.retraces hne hs hopen hf
  starts := h.starts_step hd hne hs
  sections := by
    have hnone (t : Token) : t.section? = none → Located types d source t :=
      located_of_section?_eq_none
    cases moves_of_step hs with
    | finish | line => exact h.sections.pushText hnone _
    | @tag s' _ blanks text held tag inner c t ha hi hread hr hp =>
      have hs' : s'.Holds (Located types d source) := by
        obtain ⟨-, rfl, -⟩ | ⟨-, rfl, -⟩ := hr
        · exact h.sections
        · exact h.sections.pushText hnone _
      refine hs'.place hnone (fun f outer e new hf _ _ hframes htokens hnew => ?_) hp
      have hf' : s.frames = f :: outer := hr.frames.symm.trans hf
      obtain ⟨before, hbefore⟩ := (h.starts f (hf' ▸ List.mem_cons_self)).1
      intro src body hsection
      rw [hnew] at hsection
      cases hsection
      refine ⟨before, f.body.drop (f.body.length - tag.rest.length),
        ⟨s, next, f, h.leads, hne, hs, by rw [hf', hframes], htokens, hbefore.symm⟩, ?_⟩
      rw [String.toList_ofList, List.take_append_drop, hbefore]

/-- Every draft that reading a source leads to. -/
theorem traced_of_leads (hd : d.Proper) (h : (start d source).Leads types s) :
    s.Traced types d source := by
  induction h with
  | refl => exact traced_start types hd source
  | tail _ hstep ih => exact ih.step hd hstep.1 hstep.2

/-! ## When a section is closed -/

/-- A single token that is a section is that of a tag other than a parent. -/
theorem section_of_tokens? {raw : String} {body : List Token} {closedAlone : Bool}
    (h : Frame.tokens? f outer raw body closedAlone = some [t]) (hs : t.section?.isSome = true) :
    (∀ target, f.opening ≠ .parent target) ∧ t.section? = some (⟨raw, f.delimiters⟩, body) := by
  obtain ⟨opening, _⟩ := f
  cases opening with
  | present expr | absent expr =>
    cases h
    exact ⟨fun target => Opening.noConfusion, rfl⟩
  | block name =>
    rw [Frame.tokens?] at h
    split_ifs at h <;> cases h <;> cases hs
  | parent target =>
    obtain ⟨overrides, -, h⟩ := Option.map_eq_some_iff.mp h
    split_ifs at h <;> cases h
    · cases hs
    · cases hs

/-- The step that closes a section: where its close tag is, and the body that it had. -/
theorem closes_of_step (hs : s.step types = .ok next) (hframes : s.frames = f :: next.frames)
    (htokens : next.tokens = t :: f.outer) (ht : t.section?.isSome = true) :
    ∃ blanks text tag s' held c, s.Ahead blanks text tag ∧ s.Reaches blanks text s' held ∧
      (∀ target, f.opening ≠ .parent target) ∧
      t.section? = some
        (⟨String.ofList (f.body.take (f.body.length - tag.rest.length)), f.delimiters⟩,
          (s'.leave held c).tokens.reverse) := by
  cases moves_of_step hs with
  | finish | line => simp at hframes
  | @tag s' _ blanks text held tag inner c t' ha hi hread hr hp =>
    have hs' := hr.frames
    cases t' with
    | closing e =>
      obtain ⟨g, outer, tokens, hg, -, htokens', rfl⟩ := close_spec hp
      obtain ⟨rfl, -⟩ := List.cons.inj (hg.symm.trans (hs'.trans hframes))
      obtain rfl : tokens = [t] := List.append_cancel_right htokens
      exact ⟨blanks, text, tag, s', held, c, ha, hr, section_of_tokens? htokens' ht⟩
    | opening o =>
      cases hp
      have hlength := congrArg List.length hframes
      simp only [enter, hs', List.length_cons] at hlength
      omega
    | interpolation | comment | inclusion | delimiters | pragma =>
      cases hp
      simp [hs'] at hframes

/-- **When a section of whole lines is closed**, its text is a template for the tokens of its
body. -/
theorem Traced.parseWith {src : Source} {body : List Token} (h : s.Traced types d source)
    (hs : s.step types = .ok next) (hframes : s.frames = f :: next.frames)
    (htokens : next.tokens = t :: f.outer) (ht : t.section? = some (src, body))
    (halone : f.alone = true) (hw : Text.Whole src.raw.toList) :
    Token.parseWith src.delimiters types src.raw = .ok body := by
  obtain ⟨blanks, text, tag, s', held, c, ha, hr, hparent, hsection⟩ :=
    closes_of_step hs hframes htokens (by rw [ht]; rfl)
  rw [ht] at hsection
  cases hsection
  rw [String.toList_ofList] at hw
  obtain ⟨offset, b, hb, hatop⟩ :=
    h.retraces f next.frames (hframes ▸ List.suffix_refl _) hparent
  have hd : f.delimiters.Proper := h.proper.2 _ (List.mem_map_of_mem (hframes ▸ List.mem_cons_self))
  -- The body is the text of the section, and the close tag with what follows.
  obtain ⟨read, hread⟩ := h.behind f (hframes ▸ List.mem_cons_self)
  have hbody : f.body = read ++ (blanks ++ text) ++ tag.rest := by
    rw [← hread, ha.reads.1]
    simp only [List.append_assoc]
  have hraw : f.body.take (f.body.length - tag.rest.length) = read ++ (blanks ++ text) := by
    rw [hbody, List.length_append, Nat.add_sub_cancel, List.take_left]
  rw [hraw] at hw ⊢
  have hstart : bodyStart f =
      (start f.delimiters (String.ofList (read ++ (blanks ++ text)))).extend tag.rest := by
    simp [bodyStart, start, extend, Cursor.ofString, Cursor.extend, halone, hbody]
  have hrest : b.cursor.rest = blanks ++ text ++ tag.rest := by
    rw [← ha.reads.1, hatop]
    rfl
  obtain ⟨b', hb', rfl, hwhole⟩ := leads_of_extend (proper_start hd _)
    (by simpa [start, Cursor.ofString] using hw) (hstart ▸ hb)
    (by rw [hrest, List.length_append]; omega)
  -- Between the last line of the body and the close tag there is nothing.
  have hfront : b'.cursor.rest = blanks ++ text := List.append_cancel_right hrest
  have hend : b'.cursor.rest = [] := by
    obtain hnil | ⟨line, hline⟩ := hwhole
    · exact hnil
    · exact absurd (by rw [← hfront, hline]; simp) ha.front_no_lineFeed
  obtain ⟨rfl, rfl⟩ := List.append_eq_nil_iff.mp (hfront.symm.trans hend)
  obtain ⟨-, rfl, rfl⟩ : [] = [] ∧ s' = s ∧ held = [] := hr.resolve_right fun hr => hr.1 rfl
  have hleave : (s'.leave [] c).tokens = s'.tokens := by
    obtain ⟨-, c', -, he⟩ | ⟨-, he⟩ := s'.leave_cases [] c <;> rw [he]
    rfl
  have hnone : b'.frames = [] := by
    have hlength := congrArg List.length (congrArg Draft.frames hatop)
    change s'.frames.length =
      ((under offset (f :: next.frames)).framesAtop (b'.extend tag.rest).frames).length at hlength
    rw [hframes, length_framesAtop] at hlength
    simpa [under, extend] using hlength
  have htokens' : s'.tokens = b'.tokens := by
    rw [hatop]
    show (under offset (f :: next.frames)).tokensAtop b'.tokens (b'.extend tag.rest).frames = _
    rw [extend, hnone]
    exact List.append_nil _
  refine Token.parseWith_eq_ok.mpr ⟨b', ?_, by rw [hleave, htokens']⟩
  rw [hb'.run (proper_start hd _), run_end hend, hnone]
  rfl

end Draft

/-- **A section of whole lines is the same on its own.** In every source that is read, a section at
any depth has its body where its text is. If a line feed is in front of the body and the text is
whole lines, the text read with the delimiters that are kept with it gives the tokens of the body,
layout included. So a lambda that answers with the text it is given has the body rendered just as
`true` has. -/
theorem Token.reparse_of_parse {types : ContentTypes} {source : String} {tokens : List Token}
    (h : Token.parse types source = .ok tokens) {t : Token} (ho : Token.Occurs t tokens)
    {e : Expression} {src : Source} {body : List Token} (ht : t = .sectionTag e src body) :
    (∃ before after, Draft.BodyAt types .standard source before t ∧
        source.toList = before ++ (src.raw.toList ++ after)) ∧
      ∀ before, Draft.BodyAt types .standard source (before ++ ['\n']) t →
        Text.Whole src.raw.toList →
        Token.parseWith src.delimiters types src.raw = .ok body ∧
          ∀ (go : Renderer) (c : Context) (calls called answered : Calls) (number : Nat)
            (answer : Nat → String → Value), c.contentTypes = types →
            resolve c e calls = (.value (.lambda number answer), called) →
            (Value.lambda number answer).settle src.raw called = (.text src.raw, answered) →
            renderSection go e src body c calls = go body c answered ∧
              ∀ present before, resolve c present before = (.value (.bool true), answered) →
                renderSection go present src body c before = go body c answered := by
  subst ht
  obtain ⟨final, hrun, rfl⟩ := Token.parseWith_eq_ok.mp h
  have hd := Delimiters.proper_standard
  constructor
  · have hsections := (Draft.traced_of_leads hd (Draft.leads_of_run hrun).1).sections
    have heverywhere : Token.Everywhere (Draft.Located types .standard source)
        final.tokens.reverse :=
      Token.everywhere_iff.mpr fun t ht => hsections.1 t (List.mem_reverse.mp ht)
    exact heverywhere _ ho src body rfl
  · rintro before ⟨s, next, f, hleads, hne, hs, hframes, htokens, hsource⟩ hw
    have htraced := Draft.traced_of_leads hd hleads
    have halone : f.alone = true := by
      refine (htraced.starts f (hframes ▸ List.mem_cons_self)).2 before ?_
      rw [hsource, List.append_assoc, List.singleton_append]
    have hparse := htraced.parseWith hs hframes htokens rfl halone hw
    refine ⟨hparse, fun go c calls called answered number answer hc hresolve hsettle => ⟨?_, ?_⟩⟩
    · rw [renderSection, hresolve]
      dsimp only
      rw [hsettle]
      dsimp only
      rw [hc, hparse]
    · intro present before hpresent
      rw [renderSection, hpresent]
      rfl

/-- A section over a partial on an indented line of its own, rendered for a lambda. -/
theorem Token.reparse_of_parse_lines :
    ∃ tokens t,
      Token.parse Config.builtIn.types "{{#s}}\n {{>p}}\n{{/s}}" = .ok tokens ∧
      Token.Occurs t tokens ∧
      t = .sectionTag (.plain "s") ⟨" {{>p}}\n", .standard⟩ [.partialTag ⟨"p", false⟩ (some " ")] ∧
      Draft.BodyAt Config.builtIn.types .standard "{{#s}}\n {{>p}}\n{{/s}}"
        ("{{#s}}".toList ++ ['\n']) t ∧
      Text.Whole " {{>p}}\n".toList ∧
      Token.parseWith .standard Config.builtIn.types " {{>p}}\n" =
        .ok [.partialTag ⟨"p", false⟩ (some " ")] := by
  have hp : Token.parse Config.builtIn.types "{{#s}}\n {{>p}}\n{{/s}}" = .ok
      [.sectionTag (.plain "s") ⟨" {{>p}}\n", .standard⟩
        [.partialTag ⟨"p", false⟩ (some " ")]] := by
    cbv
  have ho : Token.Occurs _ [Token.sectionTag (.plain "s") ⟨" {{>p}}\n", .standard⟩
      [.partialTag ⟨"p", false⟩ (some " ")]] := .here (List.mem_singleton.mpr rfl)
  -- The open tag, the partial, and the close tag.
  let f : Frame := ⟨.present (.plain "s"), 0, [], true, " {{>p}}\n{{/s}}".toList, [], .standard⟩
  let opened : Draft := ⟨⟨7, " {{>p}}\n{{/s}}".toList⟩, true, .standard, [], [f]⟩
  let closing : Draft := ⟨⟨15, "{{/s}}".toList⟩, true, .standard,
    [.partialTag ⟨"p", false⟩ (some " ")], [f]⟩
  have hopen : (Draft.start .standard "{{#s}}\n {{>p}}\n{{/s}}").step
      Config.builtIn.types = .ok opened := by
    cbv
  have hpartial : opened.step Config.builtIn.types = .ok closing := by cbv
  have hclose : closing.step Config.builtIn.types = .ok ⟨⟨21, []⟩, true, .standard,
      [.sectionTag (.plain "s") ⟨" {{>p}}\n", .standard⟩
        [.partialTag ⟨"p", false⟩ (some " ")]], []⟩ := by
    cbv
  have hleads : (Draft.start .standard "{{#s}}\n {{>p}}\n{{/s}}").Leads
      Config.builtIn.types closing :=
    (Draft.Leads.step .refl (by decide) hopen).step (by decide) hpartial
  have hat : Draft.BodyAt Config.builtIn.types .standard "{{#s}}\n {{>p}}\n{{/s}}"
      ("{{#s}}".toList ++ ['\n']) (.sectionTag (.plain "s") ⟨" {{>p}}\n", .standard⟩
        [.partialTag ⟨"p", false⟩ (some " ")]) :=
    ⟨closing, _, f, hleads, by decide, hclose, rfl, rfl, by decide⟩
  have hw : Text.Whole " {{>p}}\n".toList := .inr ⟨" {{>p}}".toList, by decide⟩
  exact ⟨_, _, hp, ho, rfl, hat, hw, ((Token.reparse_of_parse hp ho rfl).2 _ hat hw).1⟩

end Mustache
