import Mustache.Config.Basic
import Mustache.Proofs.Template.Replay
import Mustache.Proofs.Template.Sections
import Mustache.Render

/-!
# The text of a section is a template for its body

A section keeps the text of its body and the delimiters in force at its start, for a lambda that may
change the text. The text as it is can always be read with these delimiters, and apart from layout
it has the tokens of the body.

* `Token.Rereads`: the text of a section is a template for its body; `Draft.Sound`: so it is for
  all sections that have been read;
* `Draft.Rereadable`: what holds of a draft from tag to tag; **`Draft.Rereadable.step`**,
  **`Draft.Rereadable.run`**;
* **`Token.reread_of_parse`**.
-/

namespace Mustache

/-- If the token is a section, its text is a template with the bare tokens of its body. -/
def Token.Rereads (types : ContentTypes) (t : Token) : Prop :=
  ∀ e source body, t = .sectionTag e source body ∨ t = .invertedTag e source body →
    ∃ again, Token.parseWith source.delimiters types source.raw = .ok again ∧
      Token.bareAll again = Token.bareAll body

namespace Draft

open Token (Throughout Rereads)

/-- The texts of all sections that have been read are templates for their bodies. -/
def Sound (types : ContentTypes) (s : Draft) : Prop :=
  (∀ t ∈ s.tokens, Throughout (Rereads types) t) ∧
    ∀ f ∈ s.frames, ∀ t ∈ f.outer, Throughout (Rereads types) t

variable {types : ContentTypes} {s s' next final : Draft} {held text : List Char} {tag c : Cursor}
  {t : Tag} {p : Piece} {after : List Piece × List Char}

/-! ## Tokens -/

theorem rereads_of_section?_eq_none (types : ContentTypes) (t : Token) (ht : t.section? = none) :
    Rereads types t := by
  rintro e source body (rfl | rfl) <;> nomatch ht

theorem Sound.adds (hs : s.Sound types) (h : s.Adds text s') : s'.Sound types := by
  obtain ⟨new, hn, ht, -⟩ := h.tokens
  refine ⟨?_, h.frames.symm ▸ hs.2⟩
  rw [hn]
  refine List.forall_mem_append.mpr ⟨fun t hm => ?_, hs.1⟩
  obtain ⟨content, rfl⟩ := ht t hm
  exact Token.throughout_of_bodies_nil rfl (rereads_of_section?_eq_none types _ rfl)

/-- **A tag keeps the texts of sections templates for their bodies**, if that holds of the section
that it closes. -/
theorem Sound.place (hs : s.Sound types) (hheld : ∀ ch ∈ held, Text.isInlineBlank ch = true)
    (hclose : ∀ f outer e, s.frames = f :: outer → t = .closing e →
      (∀ target, f.opening ≠ .parent target) →
        ∃ again, Token.parseWith f.delimiters types
            (String.ofList (f.body.take (f.body.length - tag.rest.length))) = .ok again ∧
          Token.bareAll again = (Token.bareAll s.tokens).reverse)
    (hp : s.place held tag t c = .ok next) : next.Sound types := by
  refine Holds.place (rereads_of_section?_eq_none types) hs ?_ hp
  intro f outer e new hf ht hparent _ _ hnew
  obtain ⟨again, hagain, hbare⟩ := hclose f outer e hf ht hparent
  rintro e source body (rfl | rfl) <;> cases hnew
  all_goals exact ⟨again, hagain, by rw [hbare, Token.bareAll_reverse, leave_bare hheld]⟩

/-! ## From tag to tag -/

/-- What holds of a draft from tag to tag: the body of every tag that is open, other than a parent,
can be read on its own, and the texts of the sections that are closed are templates. -/
structure Rereadable (types : ContentTypes) (s : Draft) : Prop where
  proper : s.Proper
  held : s.Held
  sound : s.Sound types
  replays : ∀ f outer, f :: outer <:+ s.frames → (∀ target, f.opening ≠ .parent target) →
    ∃ read pieces front b, Replays types s f outer read pieces front b

/-- The text of a section is a template when the section is closed. -/
theorem Rereadable.close (h : s.Rereadable types)
    (hcut : Piece.cut? types s.scopes s.delimiters s.cursor = some (p :: after.1, after.2))
    (hm : Meets types s p after s' held tag c) {f : Frame} {outer : List Frame}
    (hf : s.frames = f :: outer) (hparent : ∀ target, f.opening ≠ .parent target) :
    ∃ again, Token.parseWith f.delimiters types
        (String.ofList (f.body.take (f.body.length - tag.rest.length))) = .ok again ∧
      Token.bareAll again = (Token.bareAll s'.tokens).reverse := by
  obtain ⟨read, pieces, front, b, hr⟩ := h.replays f outer (hf ▸ List.suffix_refl _) hparent
  have hlength := hr.length
  have hb : b.frames = [] := by
    rw [hf] at hlength
    exact List.length_eq_zero_iff.mp (by omega)
  have hd : f.delimiters.Proper :=
    h.proper.2 _ (List.mem_map_of_mem (hf ▸ List.mem_cons_self))
  exact hr.parseWith hb h.proper hd hcut hm

/-- **From one tag to the next.** -/
theorem Rereadable.step (h : s.Rereadable types) (hm : Meets types s p after s' held tag c)
    (hcut : Piece.cut? types s.scopes s.delimiters s.cursor = some (p :: after.1, after.2))
    (hp : s'.place held tag p.tag c = .ok next) : next.Rereadable types where
  proper := by
    obtain ⟨_, _, hl⟩ := hm.place h.proper hp
    exact hl.proper
  held := .place (.of_adds hm.adds h.held) hm.held_inline hp
  sound := by
    refine (h.sound.adds hm.adds).place hm.held_inline (fun f outer e hf _ hparent => ?_) hp
    exact h.close hcut hm (hm.adds.frames ▸ hf) hparent
  replays := by
    intro f outer hsuffix hparent
    -- A tag that was open before, and that this tag does not close.
    have later (hs : f :: outer <:+ s.frames)
        (hclosing : ∀ e, p.tag = .closing e → (f :: outer).length < s.frames.length) :
        ∃ read pieces front b, Replays types next f outer read pieces front b := by
      obtain ⟨read, pieces, front, b, hr⟩ := h.replays f outer hs hparent
      refine hr.step hparent h.proper h.held hcut hm hp fun hb e he => ?_
      have hlength := hr.length
      have hlt := hclosing e he
      rw [hb, List.length_nil, Nat.zero_add] at hlength
      omega
    have hframes := hm.adds.frames
    cases ht : p.tag with
    | opening opening =>
      rw [ht] at hp
      cases hp
      obtain ⟨g, hg, hreplays⟩ := replays_enter types s' held tag.offset opening c
      rw [hg] at hsuffix
      obtain hs | hs := List.suffix_cons_iff.mp hsuffix
      · obtain ⟨rfl, rfl⟩ := List.cons.inj hs
        exact ⟨_, _, _, _, hreplays⟩
      · exact later (hframes ▸ hs) fun e he => by rw [ht] at he; cases he
    | closing expr =>
      rw [ht] at hp
      obtain ⟨g, around, tokens, hg, -, -, hnext⟩ := close_spec hp
      have hs : f :: outer <:+ around := by
        rw [hnext] at hsuffix
        exact hsuffix
      have hall : s.frames = g :: around := hframes.symm.trans hg
      refine later (hall ▸ hs.trans (List.suffix_cons g around)) fun _ _ => ?_
      rw [hall]
      exact Nat.lt_succ_of_le hs.length_le
    | interpolation | comment | inclusion | delimiters | pragma =>
      rw [ht] at hp
      cases hp
      refine later ?_ fun e he => by rw [ht] at he; cases he
      simpa [hframes] using hsuffix

/-- **The run from a tag on**: in the end the texts of all sections are templates for their
bodies. -/
theorem Rereadable.run (h : s.Rereadable types) {r : List Piece × List Char}
    (hcut : Piece.cut? types s.scopes s.delimiters s.cursor = some r)
    (hrun : s.run types = .ok final) : final.Sound types := by
  refine pieces_induction
    (motive := fun s _ => s.Rereadable types → s.run types = .ok final → final.Sound types)
    ?text ?tag h.proper hcut h hrun
  case text =>
    intro s s' last hadds _ hr heq h hrun
    rw [heq, run_end hr] at hrun
    split_ifs at hrun
    cases hrun
    exact h.sound.adds hadds
  case tag =>
    intro s p after s' held tag c _ hcut hm ih h hrun
    rw [hm.run] at hrun
    cases hp : s'.place held tag p.tag c with
    | error fault =>
      rw [hp] at hrun
      cases hrun
    | ok next =>
      rw [hp] at hrun
      obtain ⟨_, _, -, hnext⟩ := ih next hp
      exact hnext (h.step hm hcut hp) hrun

/-- At the start of a source there is no body and no section. -/
theorem rereadable_start (types : ContentTypes) {d : Delimiters} (hd : d.Proper)
    (source : String) : (start d source).Rereadable types where
  proper := proper_start hd source
  held := nofun
  sound := ⟨nofun, nofun⟩
  replays f outer h := by
    have hnil : f :: outer = [] := List.suffix_nil.mp h
    cases hnil

end Draft

/-- **The text of a section is a template for its body.** In every source that is read, at any
depth, the text of a section can be read with the delimiters that are kept with it, and apart from
layout its tokens are those of the body. So a lambda that answers with the text it is given has
them rendered in place of the body. -/
theorem Token.reread_of_parse {types : ContentTypes} {source : String} {tokens : List Token}
    (h : Token.parse types source = .ok tokens) {t : Token} (ho : Token.Occurs t tokens)
    {e : Expression} {src : Source} {body : List Token}
    (ht : t = .sectionTag e src body ∨ t = .invertedTag e src body) :
    ∃ again, Token.parseWith src.delimiters types src.raw = .ok again ∧
      Token.bareAll again = Token.bareAll body ∧
      ∀ (go : Renderer) (c : Context) (calls called answered : Calls) (number : Nat)
        (answer : Nat → String → Value), c.contentTypes = types →
        resolve c e calls = (.value (.lambda number answer), called) →
        (Value.lambda number answer).settle src.raw called = (.text src.raw, answered) →
        renderSection go e src body c calls = go again c answered := by
  obtain ⟨final, hrun, rfl⟩ := Token.parseWith_eq_ok.mp h
  have hstart := Draft.rereadable_start types Delimiters.proper_standard source
  obtain ⟨r, hcut, -⟩ := Draft.outlined_of_run hrun hstart.proper
  have hsound := hstart.run hcut hrun
  have heverywhere : Token.Everywhere (Token.Rereads types) final.tokens.reverse :=
    Token.everywhere_iff.mpr fun t ht => hsound.1 t (List.mem_reverse.mp ht)
  obtain ⟨again, hagain, hbare⟩ := heverywhere t ho e src body ht
  refine ⟨again, hagain, hbare, ?_⟩
  intro go c calls called answered number answer hc hresolve hsettle
  rw [renderSection, hresolve]
  dsimp only
  rw [hsettle]
  dsimp only
  rw [hc, hagain]

/-- A partial beside its section, which stands alone when the body is read on its own. -/
theorem Token.reread_of_parse_partial :
    ∃ tokens t, Token.parse Config.builtIn.types "{{#s}} {{>p}} {{/s}}" = .ok tokens ∧
      Token.Occurs t tokens ∧
      t = .sectionTag (.plain "s") ⟨" {{>p}} ", .standard⟩
        [.text " ", .partialTag ⟨"p", false⟩ none, .text " "] ∧
      Token.parseWith .standard Config.builtIn.types " {{>p}} " =
        .ok [.partialTag ⟨"p", false⟩ (some " ")] ∧
      ∃ again, Token.parseWith .standard Config.builtIn.types " {{>p}} " = .ok again ∧
        Token.bareAll again = [.partialTag ⟨"p", false⟩ none] := by
  have hp : Token.parse Config.builtIn.types "{{#s}} {{>p}} {{/s}}" = .ok
      [.sectionTag (.plain "s") ⟨" {{>p}} ", .standard⟩
        [.text " ", .partialTag ⟨"p", false⟩ none, .text " "]] := by
    cbv
  have hr : Token.parseWith .standard Config.builtIn.types " {{>p}} " =
      .ok [.partialTag ⟨"p", false⟩ (some " ")] := by
    cbv
  have ho : Token.Occurs _ [Token.sectionTag (.plain "s") ⟨" {{>p}} ", .standard⟩
      [.text " ", .partialTag ⟨"p", false⟩ none, .text " "]] := .here (List.mem_singleton.mpr rfl)
  obtain ⟨again, hagain, hbare, -⟩ := Token.reread_of_parse hp ho (.inl rfl)
  exact ⟨_, _, hp, ho, rfl, hr, again, hagain, hbare⟩

end Mustache
