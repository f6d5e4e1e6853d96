import Mustache.Config.Basic
import Mustache.Proofs.Render.Along
import Mustache.Proofs.Tag.Repeat
import Mustache.Proofs.Tag.Sigil
import Mustache.Proofs.Template.Edit
import Mustache.Proofs.Template.Solid

/-!
# A parent without blocks is a partial

A partial and a parent that fills in no block both stand for the template that they name. They are
read in different ways: a partial is one tag, which stands alone or not, while a parent is opened
and closed, holds back the blanks before it, and is told to stand alone by its close tag. But
wherever one of them stands, the other could.

* `Target.Plain`: a name that partials, parents and close tags can hold; `Target.Plain.read`;
* `Token.AsParent`: the tokens of both; `Draft.emptyParent`: one for the other behind the tokens of
  a draft;
* `Draft.close_enter_parent`: a parent that is closed where it is opened;
* `Draft.Parallel.ahead`: two texts that have a tag at the same place;
  **`Draft.edited_emptyParent`**;
* **`Token.parse_emptyParent`**.
-/

namespace Mustache

/-! ## Names -/

/-- A name without blanks, parentheses, stars and braces. -/
structure Target.Plain (name : List Char) : Prop where
  ne_nil : name ≠ []
  no_blank : ∀ c ∈ name, Text.isBlank c = false
  no_mark : ∀ c ∈ name, c ∉ ['(', ')', '*', '{', '}']

/-- A tag with the standard delimiters: a character that tells its kind, and a name. -/
def Tag.plainText (kind : Char) (name : List Char) : List Char :=
  '{' :: '{' :: kind :: (name ++ ['}', '}'])

namespace Target.Plain

variable {name rest : List Char} {k : Sigil} {kind : Char} {t : Tag}

theorem not_mem (hn : Plain name) {c : Char} (hc : c ∈ ['(', ')', '*', '{', '}']) : c ∉ name :=
  fun h => hn.no_mark c h hc

/-- Whatever the kind of a tag is, the name does not make another kind of it. -/
theorem fits (hn : Plain name) (hk : k ≠ .none) (rest : List Char) : k.Fits (name ++ rest) := by
  obtain ⟨c, more, rfl⟩ := List.exists_cons_of_ne_nil hn.ne_nil
  have hstar : some c ≠ some '*' := by
    rintro ⟨⟩
    exact hn.not_mem (by decide) (.head _)
  cases k with
  | none => exact absurd rfl hk
  | inclusion dynamic | parent dynamic =>
    cases dynamic with
    | true => trivial
    | false => exact hstar
  | present | absent | block | close | brace | ampersand | exclamation => trivial

/-- **A tag with such a name** is what its sigil makes of the name. -/
theorem read (hn : Plain name) (types : ContentTypes) (hk : k ≠ .brace) (hmark : k.mark = [kind])
    (ht : k.tag? name = .ok t) {tag : Cursor} (hr : tag.rest = Tag.plainText kind name ++ rest) :
    ∃ inner c, tag.Reads Delimiters.standard.start.toList inner ∧
      Tag.read types .standard tag.offset inner = .ok (t, c) ∧
      tag.Reads (Tag.plainText kind name) c ∧ c.rest = rest := by
  have hrest : tag.rest = ['{', '{'] ++ (kind :: (name ++ (['}', '}'] ++ rest))) := by
    rw [hr]
    simp [Tag.plainText]
  have hcut : Text.cut? ['}', '}'] (name ++ (['}', '}'] ++ rest)) = some (name, rest) :=
    Text.cut?_eq_some.mpr ⟨rfl, Text.unmet_of_head (hn.not_mem (by decide))⟩
  have hnone : k ≠ .none := by
    rintro rfl
    nomatch hmark
  have hmeet := Tag.meet_sigil types .standard k (hn.fits hnone (['}', '}'] ++ rest))
  have hstop : k.terminator .standard = ['}', '}'] := k.terminator_eq .standard hk
  rw [hstop, hcut, hmark] at hmeet
  dsimp only at hmeet
  rw [Text.trim_of_no_blank hn.no_blank, ht] at hmeet
  have hstart : tag.Reads Delimiters.standard.start.toList
      (tag.past ['{', '{'] (kind :: (name ++ (['}', '}'] ++ rest)))) := Cursor.reads_past hrest
  obtain ⟨c, hread, hc⟩ := Tag.read_of_meet hstart hmeet
  obtain ⟨used, hused⟩ := Tag.reads_of_read hread
  exact ⟨_, c, hstart, hread, (hstart.trans hused).of_rest (by rw [hr, hc]), hc⟩

theorem target? (hn : Plain name) (dynamic : Bool) :
    Tag.target? dynamic name = some ⟨String.ofList name, dynamic⟩ := by
  rw [Tag.target?, if_neg]
  simpa [hn.ne_nil] using hn.no_blank

theorem closing? (hn : Plain name) :
    Tag.closing? name = some (.plain (String.ofList name)) :=
  (Tag.closing?_name_iff hn.no_blank).mpr ⟨hn.not_mem (by decide), hn.not_mem (by decide),
    fun h => hn.not_mem (by decide) (List.mem_of_mem_tail h)⟩

theorem tag?_inclusion (hn : Plain name) :
    (Sigil.inclusion false).tag? name = .ok (.inclusion ⟨String.ofList name, false⟩) := by
  rw [Sigil.tag?, hn.target?]
  rfl

theorem tag?_parent (hn : Plain name) :
    (Sigil.parent false).tag? name = .ok (.opening (.parent ⟨String.ofList name, false⟩)) := by
  rw [Sigil.tag?, hn.target?]
  rfl

theorem tag?_close (hn : Plain name) :
    Sigil.close.tag? name = .ok (.closing (.plain (String.ofList name))) := by
  rw [Sigil.tag?, hn.closing?]
  rfl

end Target.Plain

/-! ## Tokens -/

/-- A partial, and a parent without blocks in its place. -/
def Token.AsParent (target : Target) (t t' : Token) : Prop :=
  ∃ indentation, t = .partialTag target indentation ∧ t' = .parentTag target indentation []

theorem Token.AsParent.interchangeable {target : Target} (t t' : Token)
    (h : AsParent target t t') : t.Interchangeable t' := by
  obtain ⟨indentation, rfl, rfl⟩ := h
  exact ⟨fun _ _ _ => rfl, nofun, nofun⟩

theorem Token.AsParent.fixed {target : Target} (t t' : Token) (h : AsParent target t t') :
    t.Fixed ∧ t'.Fixed := by
  obtain ⟨indentation, rfl, rfl⟩ := h
  exact ⟨⟨rfl, nofun⟩, rfl, nofun⟩

/-- Behind the tokens of a draft a parent without blocks stands for a partial. -/
def Draft.emptyParent (s : Draft) (target : Target) (indentation : Option String) : Token.Change :=
  s.changed [.partialTag target indentation] [.parentTag target indentation []]

theorem Draft.asParent (s : Draft) (target : Target) (indentation : Option String) :
    ButOne (Token.AsParent target) (s.emptyParent target indentation).old
      (s.emptyParent target indentation).new :=
  .here ⟨indentation, rfl, rfl⟩ []

/-! ## Drafts -/

namespace Draft

variable {types : ContentTypes} {s u : Draft} {blanks text : List Char} {tag tag' c m : Cursor}

/-- Behind the open tag of a parent no line ends: the blanks before it are held back. -/
theorem enter_parent (s : Draft) (blanks : List Char) (start : ℕ) (target : Target)
    (hm : m.lineEnd? = none) :
    s.enter blanks start (.parent target) m =
      { s with
        cursor := m
        tokens := []
        frames := ⟨.parent target, start, blanks, false, m.rest, s.tokens, s.delimiters⟩ ::
          s.frames } := by
  have hleave : s.leave blanks m = { s.pushText blanks with cursor := m, lineStart := false } := by
    unfold leave
    rw [hm, ite_self]
  unfold enter
  rw [hleave, pushText_eq]
  rfl

/-- **A parent that is closed where it is opened** stands for what a partial does there: the close
tag tells whether both stand alone. -/
theorem close_enter_parent (s : Draft) (blanks : List Char) (start : ℕ) (target : Target)
    (hm : m.lineEnd? = none) (tag c : Cursor) :
    (s.enter blanks start (.parent target) m).close [] tag (.plain target.closing) c =
      .ok ((s.leave blanks c).push (.parentTag target
        (if (s.leave blanks c).lineStart then indentation? blanks else none) [])) := by
  have hclosing : (Opening.parent target).closing = .plain target.closing := rfl
  rw [enter_parent s blanks start target hm]
  unfold close
  dsimp only
  rw [if_neg (not_not.mpr hclosing)]
  unfold leave
  dsimp only
  cases s.lineStart with
  | true =>
    cases c.lineEnd? with
    | some c' => rfl
    | none => cases blanks <;> rfl
  | false => cases blanks <;> rfl

end Draft

/-! ## The same place in two texts -/

namespace Draft.Parallel

variable {s u : Draft} {blanks text : List Char} {tag tag' c : Cursor} {e : Edit} {k : ℕ}

theorem pushText (h : s.Parallel u) (text : List Char) :
    (s.pushText text).Parallel (u.pushText text) := by
  rw [pushText_eq, pushText_eq]
  exact { h with tokens := congrArg (Token.ofText text ++ ·) h.tokens }

/-- Going on after a tag, with the same text behind it. -/
theorem leave (h : s.Parallel u) (blanks : List Char) (c : Cursor) (k : ℕ) :
    (s.leave blanks c).Parallel (u.leave blanks (c.shift k)) ∧
      (u.leave blanks (c.shift k)).cursor = (s.leave blanks c).cursor.shift k := by
  have stay : ({ s.pushText blanks with cursor := c, lineStart := false } : Draft).Parallel
      { u.pushText blanks with cursor := c.shift k, lineStart := false } :=
    { h.pushText blanks with lineStart := rfl }
  unfold Draft.leave
  rw [lineEnd_shift, h.lineStart]
  cases s.lineStart with
  | false => exact ⟨stay, rfl⟩
  | true =>
    cases c.lineEnd? with
    | none => exact ⟨stay, rfl⟩
    | some c' => exact ⟨{ h with lineStart := rfl }, rfl⟩

/-- **The same lies ahead**, if a tag comes there in both texts. -/
theorem ahead (h : s.Parallel u) (ha : s.Ahead blanks text tag) {inner inner' : Cursor}
    (hi : tag.Reads s.delimiters.start.toList inner) (hr : u.cursor.Reads (blanks ++ text) tag')
    (hi' : tag'.Reads u.delimiters.start.toList inner') : u.Ahead blanks text tag' where
  reads := hr
  blanks_inline := ha.blanks_inline
  blanks_eq_nil hl := ha.blanks_eq_nil (h.lineStart ▸ hl)
  head_not_blank hl := ha.head_not_blank (h.lineStart ▸ hl)
  no_lineFeed := ha.no_lineFeed
  unmet := by
    have hunmet := ha.unmet
    rw [hi.1] at hunmet
    rw [hi'.1, h.delimiters]
    exact hunmet.before_mark _
  stop ch rest he := .inr ⟨inner'.rest, hi'.1.symm.trans he⟩

/-- A tag is reached alike. -/
theorem reached (h : s.Parallel u) (hd : s.delimiters.Proper) (ha : s.Ahead blanks text tag)
    (ha' : u.Ahead blanks text tag') :
    s.reached.1.Parallel u.reached.1 ∧ u.reached.2 = s.reached.2 := by
  unfold Draft.reached
  rw [ha.eq hd, ha'.eq (h.delimiters ▸ hd)]
  dsimp only
  split_ifs
  · exact ⟨h, rfl⟩
  · exact ⟨{ h.pushText (blanks ++ text) with lineStart := rfl }, rfl⟩

theorem push (h : s.Parallel u) (t : Token) : (s.push t).Parallel (u.push t) :=
  { h with tokens := congrArg (t :: ·) h.tokens }

end Draft.Parallel

namespace Draft

variable {s u : Draft} {blanks text : List Char} {tag tag' : Cursor} {e : Edit}
  {name rest : List Char}

/-- The step over a partial. -/
theorem step_partial (types : ContentTypes) (hn : Target.Plain name)
    (hd : s.delimiters = .standard) (ha : s.Ahead blanks text tag)
    (ht : tag.rest = Tag.plainText '>' name ++ rest) :
    ∃ inner c, tag.Reads s.delimiters.start.toList inner ∧
      tag.Reads (Tag.plainText '>' name) c ∧ c.rest = rest ∧
      s.step types = .ok ((s.reached.1.leave s.reached.2 c).push
        (.partialTag ⟨String.ofList name, false⟩
          (if (s.reached.1.leave s.reached.2 c).lineStart then indentation? s.reached.2
            else none))) := by
  obtain ⟨inner, c, hi, hread, hc, hrest⟩ :=
    hn.read types (k := .inclusion false) nofun rfl hn.tag?_inclusion ht
  rw [← hd] at hi
  refine ⟨inner, c, hi, hc, hrest, ?_⟩
  rw [ha.step (hd ▸ Delimiters.proper_standard) hi, hd, hread]
  rfl

/-- **The steps over a parent without blocks**: the first opens it, the second closes it. -/
theorem steps_emptyParent (types : ContentTypes) (hn : Target.Plain name)
    (hd : s.delimiters = .standard) (ha : s.Ahead blanks text tag)
    (ht : tag.rest = Tag.plainText '<' name ++ (Tag.plainText '/' name ++ rest)) :
    ∃ opened c, s.step types = .ok opened ∧ opened.cursor.rest ≠ [] ∧
      tag.Reads (Tag.plainText '<' name ++ Tag.plainText '/' name) c ∧ c.rest = rest ∧
      opened.step types = .ok ((s.reached.1.leave s.reached.2 c).push
        (.parentTag ⟨String.ofList name, false⟩
          (if (s.reached.1.leave s.reached.2 c).lineStart then indentation? s.reached.2
            else none) [])) := by
  obtain ⟨inner, m, hi, hread, hm, hmrest⟩ :=
    hn.read types (k := .parent false) nofun rfl hn.tag?_parent ht
  obtain ⟨inner', c, hi', hread', hc, hrest⟩ :=
    hn.read types (k := .close) nofun rfl hn.tag?_close hmrest
  rw [← hd] at hi
  have hopen : s.step types =
      .ok (s.reached.1.enter s.reached.2 tag.offset (.parent ⟨String.ofList name, false⟩) m) := by
    rw [ha.step (hd ▸ Delimiters.proper_standard) hi, hd, hread]
    rfl
  have hend : m.lineEnd? = none := by
    have hskip : (m.skip Text.isInlineBlank).rest = m.rest := by
      show m.rest.dropWhile _ = _
      rw [hmrest]
      rfl
    exact Cursor.lineEnd?_eq_none (hskip.trans hmrest) (by decide) fun he => absurd he (by decide)
  -- The close tag comes right behind the open tag.
  have hclose := s.reached.1.close_enter_parent s.reached.2 tag.offset
    ⟨String.ofList name, false⟩ hend m c
  have henter := s.reached.1.enter_parent s.reached.2 tag.offset ⟨String.ofList name, false⟩ hend
  have hcursor : _ = m := congrArg Draft.cursor henter
  have hstandard := (congrArg Draft.delimiters henter).trans
    (s.reaches_reached.scope.2.1.trans hd)
  generalize s.reached.1.enter s.reached.2 tag.offset _ m = opened at *
  subst hcursor
  rw [← hstandard] at hi'
  refine ⟨opened, c, hopen, by rw [hmrest]; nofun, hm.trans hc, hrest, ?_⟩
  rw [step_of_start types (hstandard ▸ Delimiters.proper_standard) (absurd rfl) nofun
    ⟨rfl, rfl⟩ hi', hstandard, hread', ← hclose]
  rfl

/-- **At the place of the change**: behind the partial, and behind the parent in its place, the
drafts differ at one token. They do not, if the parent is put in the place of the partial. -/
theorem edited_emptyParent (types : ContentTypes) (hn : Target.Plain name) (hu : s.Parallel u)
    (hd : s.delimiters = .standard) (ha : s.Ahead blanks text tag)
    (ht : tag.rest = Tag.plainText '>' name ++ e.after)
    (hr : u.cursor.Reads (blanks ++ text) tag') (hoffset : tag'.offset = tag.offset)
    (ht' : tag'.rest = Tag.plainText '<' name ++ (Tag.plainText '/' name ++ e.after))
    (hframes : List.Forall₂ (Frame.Edited e) s.frames u.frames) :
    ∃ (d : Draft) (indentation : Option String) (opened next' : Draft),
      s.step types = .ok (d.push (.partialTag ⟨String.ofList name, false⟩ indentation)) ∧
      u.step types = .ok opened ∧ opened.cursor.rest ≠ [] ∧ opened.step types = .ok next' ∧
      (d.push (.partialTag ⟨String.ofList name, false⟩ indentation)).Edited e
        (d.emptyParent ⟨String.ofList name, false⟩ indentation)
        (Text.utf8Length (Tag.plainText '/' name)) next' ∧
      (d.push (.parentTag ⟨String.ofList name, false⟩ indentation [])).Edited e
        ((d.push (.parentTag ⟨String.ofList name, false⟩ indentation [])).changed [] [])
        (Text.utf8Length (Tag.plainText '/' name)) next' := by
  have hdu : u.delimiters = .standard := hu.delimiters.trans hd
  have hi' : tag'.Reads u.delimiters.start.toList _ := reads_start hdu ht'
  obtain ⟨inner, c, hi, hc, hrest, hstep⟩ := step_partial types hn hd ha ht
  have ha' := hu.ahead ha hi hr hi'
  obtain ⟨opened, c', hopen, hne, hc', hrest', hclose⟩ := steps_emptyParent types hn hdu ha' ht'
  have hshift : c' = c.shift (Text.utf8Length (Tag.plainText '/' name)) := by
    have hlength : Text.utf8Length (Tag.plainText '<' name) =
        Text.utf8Length (Tag.plainText '>' name) := rfl
    have ho : c'.offset = Text.utf8Length (Tag.plainText '/' name) + c.offset := by
      rw [hc'.2, hc.2, hoffset, Text.utf8Length_append, hlength]
      omega
    show Cursor.mk c'.offset c'.rest = Cursor.mk _ c.rest
    rw [ho, hrest', hrest]
  obtain ⟨hreached, hheld⟩ := hu.reached (hd ▸ Delimiters.proper_standard) ha ha'
  obtain ⟨hleave, hcursor⟩ :=
    hreached.leave s.reached.2 c (Text.utf8Length (Tag.plainText '/' name))
  have hbehind : (s.reached.1.leave s.reached.2 c).cursor.rest <:+ e.after := by
    obtain ⟨used, hused⟩ := s.reached.1.reads_leave s.reached.2 c
    exact ⟨used, hused.1.symm.trans hrest⟩
  rw [hheld, hshift, hleave.lineStart] at hclose
  have hopened (k : ℕ) : List.Forall₂ (Frame.Edited e) (s.reached.1.leave s.reached.2 c).frames
      (u.reached.1.leave s.reached.2 (c.shift k)).frames := by
    rwa [leave_frames, leave_frames, s.reaches_reached.frames, u.reaches_reached.frames]
  exact ⟨_, _, opened, _, hstep, hopen, hne, hclose,
    hleave.edited hcursor hbehind (hopened _) [.partialTag _ _] [.parentTag _ _ []],
    (hleave.push _).edited hcursor hbehind (hopened _) [] []⟩

end Draft

/-! ## Templates -/

/-- A partial of this name between `before` and `after` becomes a parent without blocks. -/
def Edit.emptyParent (before name after : List Char) : Edit where
  before := before
  old := Tag.plainText '>' name
  new := Tag.plainText '<' name ++ Tag.plainText '/' name
  after := after

/-- **A parent without blocks is a partial.** Wherever reading a template comes to a partial, there
could be a parent without blocks, closed at once. At the place where the partial is added the parent
stands, and all other tokens are the same but for what the sections around the place keep of the
text; reading on behind the parent comes to the tokens of the other template. Or both templates are
at fault for the same cause. And both have the same output. -/
theorem Token.parse_emptyParent {types : ContentTypes} {before name after : List Char}
    (hn : Target.Plain name) {s : Draft}
    (hs : (Draft.start .standard
      (String.ofList (Edit.emptyParent before name after).source)).Leads types s)
    (hd : s.delimiters = .standard) (ht : s.ahead.2.2.rest = Tag.plainText '>' name ++ after) :
    (∃ (d : Draft) (indentation : Option String),
        s.step types = .ok (d.push (.partialTag ⟨String.ofList name, false⟩ indentation)) ∧
        ParsedChange (d.emptyParent ⟨String.ofList name, false⟩ indentation)
          (Edit.emptyParent before name after).Encloses
          (parse types (String.ofList (Edit.emptyParent before name after).source))
          (parse types (String.ofList (Edit.emptyParent before name after).target)) ∧
        ∀ tokens', parse types (String.ofList (Edit.emptyParent before name after).target) =
            .ok tokens' → ∃ final,
          (d.push (.parentTag ⟨String.ofList name, false⟩ indentation [])).run types = .ok final ∧
          ButOne (Along (fun _ _ => False) (Edit.emptyParent before name after).Encloses)
            final.tokens.reverse tokens') ∧
      ∀ tokens tokens',
        parse types (String.ofList (Edit.emptyParent before name after).source) = .ok tokens →
        parse types (String.ofList (Edit.emptyParent before name after).target) = .ok tokens' →
          SameOutput tokens tokens' := by
  have ha := s.ahead_spec
  generalize s.ahead.1 = blanks, s.ahead.2.1 = text, s.ahead.2.2 = tag at ha ht
  -- Up to the first brace of the tag both texts are the same.
  let old : List Char := '{' :: '>' :: (name ++ ['}', '}'])
  let new : List Char := '{' :: '<' :: (name ++ ['}', '}']) ++ Tag.plainText '/' name
  have hold : (Edit.emptyParent before name after).old = ['{'] ++ old := rfl
  have hnew : (Edit.emptyParent before name after).new = ['{'] ++ new := rfl
  have hleft : s.cursor.rest = blanks ++ text ++ '{' :: (old ++ after) := by
    rw [ha.reads.1, ht]
    rfl
  change (Draft.start .standard (String.ofList (before ++ '{' :: (old ++ after)))).Leads types s
    at hs
  obtain ⟨b, hb, hrest, rfl, hother⟩ :=
    Draft.leads_upTo Delimiters.proper_standard (by decide) hs hleft
  have hu := hother (new ++ after)
  -- Where the tag is met, the open tags are the same, but for the text of their bodies.
  have hframes := hb.edited (e := Edit.emptyParent before name after) Delimiters.proper_standard
    hrest hold hnew
  have hreads : (b.extend (new ++ after)).cursor.Reads (blanks ++ text)
      ⟨tag.offset, '{' :: (new ++ after)⟩ := by
    refine ⟨?_, ha.reads.2⟩
    show b.cursor.rest ++ _ = _
    rw [hrest, List.append_assoc]
    rfl
  have htarget' : '{' :: (new ++ after) =
      Tag.plainText '<' name ++ (Tag.plainText '/' name ++ after) := by
    simp [Tag.plainText, new]
  obtain ⟨d, indentation, opened, next', hstep, hopen, hne, hclose, hedited, hsame⟩ :=
    Draft.edited_emptyParent (e := Edit.emptyParent before name after)
      (s := b.extend (old ++ after)) (u := b.extend (new ++ after)) types hn ⟨rfl, rfl, rfl⟩
      hd ha ht hreads rfl htarget' hframes
  have hnil : (b.extend (old ++ after)).cursor.rest ≠ [] := by
    rw [hleft]
    simp
  have hnil' : (b.extend (new ++ after)).cursor.rest ≠ [] := by
    rw [hreads.1]
    simp
  have hchange := d.asParent ⟨String.ofList name, false⟩ indentation
  have hs' := hs.step hnil hstep
  have hu' := (hu.step hnil' hopen).step hne hclose
  have hparsed := Token.parsedChange_of_edited (e := Edit.emptyParent before name after)
    (hchange.mono AsParent.fixed) hs' hu' hedited
  have hproper : (d.push (.parentTag ⟨String.ofList name, false⟩ indentation [])).Proper :=
    hs'.proper (Draft.proper_start Delimiters.proper_standard _)
  refine ⟨⟨d, indentation, hstep, hparsed, fun tokens' h' => ?_⟩, fun tokens tokens' h h' => ?_⟩
  · exact Token.along_of_edited (e := Edit.emptyParent before name after) hproper hu' hsame h'
  rw [h, h'] at hparsed
  cases hparsed with
  | ok hwithin =>
    exact sameOutput_of_butOne AsParent.interchangeable (hwithin.butOne AsParent.fixed hchange)

/-- A partial on an indented line of its own, in a section: the section has the parent instead. -/
theorem Token.parse_emptyParent_section :
    Target.Plain ['p'] ∧ ∃ tokens tokens', tokens = [.sectionTag (.plain "s")
        ⟨"  {{>p}}\n", .standard⟩ [.partialTag ⟨"p", false⟩ (some "  ")]] ∧
      tokens' = [.sectionTag (.plain "s")
        ⟨"  {{<p}}{{/p}}\n", .standard⟩ [.parentTag ⟨"p", false⟩ (some "  ") []]] ∧
      Token.parse Config.builtIn.types "{{#s}}\n  {{>p}}\n{{/s}}" = .ok tokens ∧
      Token.parse Config.builtIn.types "{{#s}}\n  {{<p}}{{/p}}\n{{/s}}" = .ok tokens' ∧
      (∃ d : Draft, d.tokens = [] ∧ Draft.fronts d.frames = [[]] ∧
        (d.emptyParent ⟨"p", false⟩ (some "  ")).Within
          (Edit.emptyParent "{{#s}}\n  ".toList ['p'] "\n{{/s}}".toList).Encloses [[]]
          tokens tokens') ∧
      Token.SameOutput tokens tokens' := by
  have hn : Target.Plain ['p'] :=
    { ne_nil := by decide
      no_blank := List.forall_mem_singleton.mpr (by decide)
      no_mark := List.forall_mem_singleton.mpr (by decide) }
  have hp : Token.parse Config.builtIn.types "{{#s}}\n  {{>p}}\n{{/s}}" =
      .ok [.sectionTag (.plain "s") ⟨"  {{>p}}\n", .standard⟩
        [.partialTag ⟨"p", false⟩ (some "  ")]] := by
    cbv
  have hp' : Token.parse Config.builtIn.types "{{#s}}\n  {{<p}}{{/p}}\n{{/s}}" =
      .ok [.sectionTag (.plain "s") ⟨"  {{<p}}{{/p}}\n", .standard⟩
        [.parentTag ⟨"p", false⟩ (some "  ") []]] := by
    cbv
  let e := Edit.emptyParent "{{#s}}\n  ".toList ['p'] "\n{{/s}}".toList
  have hsource : String.ofList e.source = "{{#s}}\n  {{>p}}\n{{/s}}" := by decide
  have htarget : String.ofList e.target = "{{#s}}\n  {{<p}}{{/p}}\n{{/s}}" := by decide
  let f : Frame :=
    ⟨.present (.plain "s"), 0, [], true, "  {{>p}}\n{{/s}}".toList, [], .standard⟩
  let opened : Draft := ⟨⟨7, "  {{>p}}\n{{/s}}".toList⟩, true, .standard, [], [f]⟩
  have hopen : (Draft.start .standard (String.ofList e.source)).step Config.builtIn.types =
      .ok opened := by
    rw [hsource]
    cbv
  have hne : (Draft.start .standard (String.ofList e.source)).cursor.rest ≠ [] := by
    rw [hsource]
    decide
  have hadded : opened.step Config.builtIn.types = .ok ⟨⟨16, "{{/s}}".toList⟩, true, .standard,
      [.partialTag ⟨"p", false⟩ (some "  ")], [f]⟩ := by
    cbv
  have hleads := Draft.Leads.step .refl hne hopen
  obtain ⟨⟨d, indentation, hstep, hparsed, -⟩, hsame⟩ :=
    Token.parse_emptyParent hn hleads rfl (by decide)
  obtain ⟨htoken, htokens⟩ := List.cons.inj
    (congrArg Draft.tokens (Except.ok.inj (hstep.symm.trans hadded)))
  obtain rfl := (Token.partialTag.inj htoken).2
  have hframes : d.frames = [f] := congrArg Draft.frames (Except.ok.inj (hstep.symm.trans hadded))
  have hfronts : Draft.fronts d.frames = [[]] := by rw [hframes]; rfl
  rw [hsource, htarget] at hsame
  rw [hsource, htarget, hp, hp'] at hparsed
  refine ⟨hn, _, _, rfl, rfl, hp, hp', ⟨d, htokens, hfronts, ?_⟩, hsame _ _ hp hp'⟩
  cases hparsed with
  | ok hwithin =>
    rw [← hfronts]
    exact hwithin

end Mustache
