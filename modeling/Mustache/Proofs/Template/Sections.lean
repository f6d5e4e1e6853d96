import Mustache.Proofs.Template.Law

/-!
# What holds of all sections of a template

A property that does not speak of other tokens holds of all tokens of a template, at any depth, if
it holds of every section when its close tag is read: only then a section becomes a token.

* `Token.section?`: the text of a section and the tokens of its body;
* `Draft.Holds`: a property of all tokens that have been read;
* `Draft.throughout_closed`, **`Draft.Holds.place`**: the tokens that a tag adds.
-/

namespace Mustache

/-- The text of a section, present or absent, with the tokens of its body. -/
def Token.section? : Token → Option (Source × List Token)
  | .sectionTag _ source body => some (source, body)
  | .invertedTag _ source body => some (source, body)
  | _ => none

namespace Draft

open Token (Throughout)

/-- The property holds of all tokens that have been read, at any depth. -/
def Holds (p : Token → Prop) (s : Draft) : Prop :=
  (∀ t ∈ s.tokens, Throughout p t) ∧ ∀ f ∈ s.frames, ∀ t ∈ f.outer, Throughout p t

variable {p : Token → Prop} {s next : Draft} {held : List Char} {tag c : Cursor} {t : Tag}

theorem Holds.push (hs : s.Holds p) {t : Token} (ht : Throughout p t) : (s.push t).Holds p :=
  ⟨List.forall_mem_cons.mpr ⟨ht, hs.1⟩, hs.2⟩

section

variable (hp : ∀ t : Token, t.section? = none → p t)

include hp

theorem throughout_ofText (text : List Char) : ∀ t ∈ Token.ofText text, Throughout p t := by
  intro t ht
  rw [(Token.mem_ofText.mp ht).2]
  exact Token.throughout_of_bodies_nil rfl (hp _ rfl)

theorem Holds.pushText (hs : s.Holds p) (text : List Char) : (s.pushText text).Holds p := by
  rw [pushText_eq]
  exact ⟨List.forall_mem_append.mpr ⟨throughout_ofText hp text, hs.1⟩, hs.2⟩

theorem Holds.leave (hs : s.Holds p) (blanks : List Char) (c : Cursor) :
    (s.leave blanks c).Holds p := by
  obtain ⟨-, c', -, e⟩ | ⟨-, e⟩ := s.leave_cases blanks c <;> rw [e]
  · exact hs
  · exact hs.pushText hp blanks

/-- A closed tag: if it is a section, the property has to hold of it. -/
theorem throughout_closed {f : Frame} {outer : List Frame} {raw : String}
    {body tokens : List Token} {closedAlone : Bool} (hbody : ∀ t ∈ body, Throughout p t)
    (hsection : ∀ t, tokens = [t] → t.section? = some (⟨raw, f.delimiters⟩, body) →
      (∀ target, f.opening ≠ .parent target) → p t)
    (ht : Frame.tokens? f outer raw body closedAlone = some tokens) :
    ∀ t ∈ tokens, Throughout p t := by
  have hinside : Token.Everywhere p body := Token.everywhere_iff.mpr hbody
  obtain ⟨opening, start, blanks, alone, front, before, d⟩ := f
  cases opening with
  | present expr | absent expr =>
    cases ht
    exact List.forall_mem_singleton.mpr (Token.throughout_of_bodies_singleton rfl
      (hsection _ rfl rfl nofun) hinside)
  | block name =>
    rw [Frame.tokens?] at ht
    split_ifs at ht <;> cases ht <;>
      exact List.forall_mem_singleton.mpr
        (Token.throughout_of_bodies_singleton rfl (hp _ rfl) hinside)
  | parent target =>
    obtain ⟨overrides, hc, rfl⟩ := Option.map_eq_some_iff.mp ht
    have hparent (indentation : Option String) :
        Throughout p (.parentTag target indentation overrides) := by
      refine ⟨hp _ rfl, fun inner hi => ?_⟩
      obtain ⟨e, he, rfl⟩ := List.mem_map.mp hi
      exact (hbody _ (Overrides.mem_collect? hc e he)).2 e.2 (List.mem_singleton.mpr rfl)
    by_cases ha : (alone || closedAlone) = true
    · rw [if_pos ha]
      exact List.forall_mem_singleton.mpr (hparent _)
    · rw [if_neg ha]
      exact List.forall_mem_cons.mpr ⟨hparent _, throughout_ofText hp blanks⟩

/-- **The tokens that a tag adds.** Where it closes a section, the property has to hold of the
section. -/
theorem Holds.place (hs : s.Holds p)
    (hclose : ∀ f outer e new, s.frames = f :: outer → t = .closing e →
      (∀ target, f.opening ≠ .parent target) → next.frames = outer →
      next.tokens = new :: f.outer → new.section? = some
        (⟨String.ofList (f.body.take (f.body.length - tag.rest.length)), f.delimiters⟩,
          (s.leave held c).tokens.reverse) → p new)
    (hplace : s.place held tag t c = .ok next) : next.Holds p := by
  have hleave := hs.leave hp held c
  cases t with
  | interpolation verbatim expr =>
    cases hplace
    refine (hs.pushText hp held).push (Token.throughout_of_bodies_nil ?_ (hp _ ?_)) <;>
      cases verbatim <;> rfl
  | opening opening =>
    cases hplace
    refine ⟨nofun, List.forall_mem_cons.mpr ⟨?_, hs.2⟩⟩
    cases opening with
    | parent target => exact hs.1
    | present | absent | block => exact hleave.1
  | closing expr =>
    obtain ⟨f, outer, tokens, hf, -, htokens, rfl⟩ := close_spec hplace
    have hclosed : ∀ t ∈ tokens, Throughout p t := by
      refine throughout_closed hp (fun t ht => hleave.1 t (List.mem_reverse.mp ht)) ?_ htokens
      rintro new rfl hnew hparent
      exact hclose f outer expr new hf rfl hparent rfl rfl hnew
    have houter := hs.2
    rw [hf] at houter
    obtain ⟨hbefore, hrest⟩ := List.forall_mem_cons.mp houter
    exact ⟨List.forall_mem_append.mpr ⟨hclosed, hbefore⟩, hrest⟩
  | comment | delimiters =>
    cases hplace
    exact hleave
  | inclusion | pragma =>
    cases hplace
    exact hleave.push (Token.throughout_of_bodies_nil rfl (hp _ rfl))

end

end Draft

end Mustache
