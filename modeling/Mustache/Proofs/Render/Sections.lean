import Mathlib
import Mustache.Config.Basic
import Mustache.Proofs.Render.Join
import Mustache.Proofs.Value.Steady

/-!
# Sections and inverted sections

A section renders its body for what is present, once or for every element, and an inverted section
for what is absent. They decide it each on their own, with other special cases. Still exactly one of
them renders the body, unless a lambda puts a text in its place.

* `renderEach`: a body in several contexts, one after the other;
* `Context.present`: the contexts of a section, with `renderPresent_eq_renderEach`;
  `Context.absent`: the context of an inverted section, with `renderAbsent_eq`;
* `Value.followed`, `Value.Rewrites`: what a pure lambda answers with, and whether that takes the
  place of the body; `renderSections_of_settle`, `renderSections_of_resolve`;
* **`renderToken_complement`**.
-/

namespace Mustache

/-! ## Several contexts -/

/-- The body in one context after the other, after an output. -/
def renderEach (go : Renderer) (body : List Token) (indentation : Option String) :
    List Context → String → Calls → Rendered
  | [], output, calls => .ok (output, calls)
  | c :: contexts, output, calls =>
    (go body c calls).bind fun r =>
      renderEach go body indentation contexts (append output r.1 indentation) r.2

/-- The contexts that a section renders its body in, for a value or for none. -/
def Context.present (c : Context) : Option Value → List Context
  | none => []
  | some (.sequence items) =>
    items.mapIdx fun index item => c.withElement item ⟨index, items.length⟩
  | some (.bool true) => [c]
  | some value => if value.isFalsy then [] else [c.withObject value]

/-- The context that an inverted section renders its body in. An empty sequence is entered. -/
def Context.absent (c : Context) : Option Value → Context
  | some (.sequence []) => c.withObject (.sequence [])
  | _ => c

section

variable (go : Renderer) (body : List Token) (c : Context) (calls : Calls)

theorem renderEach_singleton (indentation : Option String) :
    renderEach go body indentation [c] "" calls = go body c calls :=
  bind_empty_append _ indentation

theorem renderElements_eq_renderEach (length index : Nat) (items : List Value) (output : String) :
    renderElements go body c length index items output calls =
      renderEach go body c.indentation
        (items.mapIdx fun i item => c.withElement item ⟨index + i, length⟩) output calls := by
  induction items generalizing index output calls with
  | nil => rfl
  | cons item items ih =>
    have hshift : (fun i item => c.withElement item ⟨index + (i + 1), length⟩) =
        fun i item => c.withElement item ⟨index + 1 + i, length⟩ := by
      funext i item
      rw [Nat.add_right_comm, Nat.add_assoc]
    rw [renderElements_cons, List.mapIdx_cons, hshift, renderEach]
    exact congrArg (Except.bind _) (funext fun r => ih r.2 (index + 1) _)

/-- **What a section does with a value**: its body in each of the contexts. -/
theorem renderPresent_eq_renderEach (v : Value) :
    renderPresent go v body c calls =
      renderEach go body c.indentation (c.present (some v)) "" calls := by
  have general (h : renderPresent go v body c calls =
      if v.isFalsy then .ok ("", calls) else go body (c.withObject v) calls)
      (hc : c.present (some v) = if v.isFalsy then [] else [c.withObject v]) :
      renderPresent go v body c calls =
        renderEach go body c.indentation (c.present (some v)) "" calls := by
    rw [h, hc]
    split_ifs
    · rfl
    · rw [renderEach_singleton]
  cases v with
  | sequence items =>
    simp only [renderPresent, Context.present, renderElements_eq_renderEach, Nat.zero_add]
  | bool b =>
    cases b with
    | true => exact (renderEach_singleton go body c calls _).symm
    | false => exact general rfl rfl
  | null | int | float | text | map | lambda | object => exact general rfl rfl

/-- **What an inverted section does with a value**: its body once, if a section has no context for
it. -/
theorem renderAbsent_eq (v : Value) :
    renderAbsent go v body c calls =
      if (c.present (some v)).isEmpty then go body (c.absent (some v)) calls
      else .ok ("", calls) := by
  have general (h : renderAbsent go v body c calls =
      if v.isFalsy then go body c calls else .ok ("", calls))
      (hp : c.present (some v) = if v.isFalsy then [] else [c.withObject v])
      (ha : c.absent (some v) = c) :
      renderAbsent go v body c calls =
        if (c.present (some v)).isEmpty then go body (c.absent (some v)) calls
        else .ok ("", calls) := by
    rw [h, hp, ha]
    cases v.isFalsy <;> rfl
  cases v with
  | sequence items =>
    cases items with
    | nil => rfl
    | cons item items =>
      rw [Context.present, List.mapIdx_cons]
      rfl
  | bool b =>
    cases b with
    | true => rfl
    | false => exact general rfl rfl rfl
  | null | int | float | text | map | lambda | object => exact general rfl rfl rfl

end

/-! ## Lambdas -/

namespace Value

/-- What a pure lambda answers with in the end; any other value is that itself. -/
def followed (input : String) (v : Value) : Value := (v.settle input []).1

/-- The value is a lambda that answers with a text in the end, which takes the place of the body. -/
def Rewrites (input : String) (v : Value) : Prop :=
  ∃ number answer text, v = .lambda number answer ∧ v.followed input = .text text

theorem Pure.exists_settle {v : Value} (hv : v.Pure) (input : String) (calls : Calls) :
    ∃ after, v.settle input calls = (v.followed input, after) :=
  ⟨(v.settle input calls).2, Prod.ext (hv.settle input [] calls) rfl⟩

end Value

section

variable {c : Context} {e : Expression} {source : Source} {calls after last : Calls}
  {found v : Value} (hr : resolve c e calls = (.value found, after))

include hr

/-- Sections whose body stays in its place, for the value that is followed to. -/
theorem renderSections_of_settle (hs : found.settle source.raw after = (v, last))
    (hv : ∀ number answer text, found = .lambda number answer → v ≠ .text text) (go : Renderer)
    (body : List Token) :
    renderSection go e source body c calls = renderPresent go v body c last ∧
      renderInverted go e source body c calls = renderAbsent go v body c last := by
  rw [renderSection, renderInverted, hr]
  cases found with
  | lambda number answer =>
    dsimp only
    rw [hs]
    cases v with
    | text text => exact absurd rfl (hv number answer text rfl)
    | _ => exact ⟨rfl, rfl⟩
  | _ =>
    cases hs
    exact ⟨rfl, rfl⟩

/-- Sections for a value that is not a lambda. -/
theorem renderSections_of_resolve (hf : found.NotLambda) (go : Renderer) (body : List Token) :
    renderSection go e source body c calls = renderPresent go found body c after ∧
      renderInverted go e source body c calls = renderAbsent go found body c after :=
  renderSections_of_settle hr (hf.settle source.raw after)
    (fun number answer _ hl => absurd hl (hf number answer)) go body

end

/-- **Sections and inverted sections are complements.** Let both resolve to the same, or both to
nothing, and let it be pure if it is a lambda. If it is no lambda that answers with a text, the
section renders its body in each of several contexts; the inverted section renders the same body
exactly once if they are none, and nothing otherwise. Its context is the same one, but that an empty
sequence is entered. If a lambda answers with a text, the inverted section renders nothing. If the
expression sorts values whose comparison is no order, both stop. -/
theorem renderToken_complement {c : Context} {e : Expression} {calls calls' : Calls}
    {found : Found Value} (hs : (resolve c e calls).1 = found)
    (hi : (resolve c e calls').1 = found) (hp : ∀ v ∈ found, v.Pure) (source : Source) :
    (found ≠ .disorder → (∀ v ∈ found, ¬ v.Rewrites source.raw) → ∃ after after', ∀ go body,
      renderToken go c (.sectionTag e source body) calls =
          renderEach go body c.indentation
            (c.present (found.toOption.map (·.followed source.raw))) "" after ∧
        renderToken go c (.invertedTag e source body) calls' =
          if (c.present (found.toOption.map (·.followed source.raw))).isEmpty then
            go body (c.absent (found.toOption.map (·.followed source.raw))) after'
          else .ok ("", after')) ∧
      ((∃ v ∈ found, v.Rewrites source.raw) → ∃ after', ∀ go body,
        renderToken go c (.invertedTag e source body) calls' = .ok ("", after')) ∧
      (found = .disorder → ∀ go body,
        renderToken go c (.sectionTag e source body) calls = .error .disorder ∧
          renderToken go c (.invertedTag e source body) calls' = .error .disorder) := by
  obtain ⟨after, hr⟩ : ∃ after, resolve c e calls = (found, after) := ⟨_, Prod.ext hs rfl⟩
  obtain ⟨after', hr'⟩ : ∃ after', resolve c e calls' = (found, after') := ⟨_, Prod.ext hi rfl⟩
  refine ⟨fun horder hn => ?_, ?_, ?_⟩
  · cases found with
    | disorder => exact absurd rfl horder
    | miss =>
      refine ⟨after, after', fun go body => ⟨?_, ?_⟩⟩
      · rw [renderToken, renderSection, hr]
        rfl
      · rw [renderToken, renderInverted, hr']
        rfl
    | value v =>
      have hv : ∀ number answer text, v = .lambda number answer →
          v.followed source.raw ≠ .text text :=
        fun number answer text hl ht => hn v rfl ⟨number, answer, text, hl, ht⟩
      obtain ⟨last, hsettle⟩ := (hp v rfl).exists_settle source.raw after
      obtain ⟨last', hsettle'⟩ := (hp v rfl).exists_settle source.raw after'
      refine ⟨last, last', fun go body => ⟨?_, ?_⟩⟩
      · rw [renderToken, (renderSections_of_settle hr hsettle hv go body).1,
          renderPresent_eq_renderEach]
        rfl
      · rw [renderToken, (renderSections_of_settle hr' hsettle' hv go body).2, renderAbsent_eq]
        rfl
  · rintro ⟨v, rfl, number, answer, text, rfl, ht⟩
    obtain ⟨last', hsettle'⟩ := (hp _ rfl).exists_settle source.raw after'
    refine ⟨last', fun go body => ?_⟩
    rw [renderToken, renderInverted, hr']
    dsimp only
    rw [hsettle', ht]
  · rintro rfl go body
    rw [renderToken, renderSection, hr, renderToken, renderInverted, hr']
    exact ⟨rfl, rfl⟩

/-- A lambda that answers with another one, which answers with an empty sequence, and one that
answers with a text. -/
theorem renderToken_complement_emptied :
    ∃ (c : Context) (empty answered : Value),
      (resolve c (.plain "f") []).1 = .value empty ∧ empty.Pure ∧ ¬ empty.Rewrites "x" ∧
        (resolve c (.plain "g") []).1 = .value answered ∧ answered.Pure ∧ answered.Rewrites "x" ∧
          ∃ after after' after'', ∀ go body,
            renderToken go c (.sectionTag (.plain "f") ⟨"x", .standard⟩ body) [] =
                .ok ("", after) ∧
              renderToken go c (.invertedTag (.plain "f") ⟨"x", .standard⟩ body) [] =
                go body (c.withObject (.sequence [])) after' ∧
              renderToken go c (.invertedTag (.plain "g") ⟨"x", .standard⟩ body) [] =
                .ok ("", after'') := by
  obtain ⟨empty, he⟩ : ∃ v : Value, v = .lambda 0 fun _ _ => .lambda 1 fun _ _ => .sequence [] :=
    ⟨_, rfl⟩
  obtain ⟨answered, ha⟩ : ∃ v : Value, v = .lambda 2 fun _ input => .text input := ⟨_, rfl⟩
  obtain ⟨c, hc⟩ : ∃ c : Context,
      c = .root (.map [("f", empty), ("g", answered)]) Config.builtIn.types none := ⟨_, rfl⟩
  have hempty : (resolve c (.plain "f") []).1 = .value empty := by
    rw [hc]
    rfl
  have hanswered : (resolve c (.plain "g") []).1 = .value answered := by
    rw [hc]
    rfl
  have hpure : empty.Pure := by
    rw [he]
    exact fun input => ⟨fun n => rfl, fun input => ⟨fun n => rfl, trivial⟩⟩
  have hpure' : answered.Pure := by
    rw [ha]
    exact fun input => ⟨fun n => rfl, trivial⟩
  have hfollowed : empty.followed "x" = .sequence [] := by
    rw [he]
    rfl
  have hkept : ¬ empty.Rewrites "x" := by
    rintro ⟨number, answer, text, -, ht⟩
    cases hfollowed.symm.trans ht
  have hrewrites : answered.Rewrites "x" := ⟨2, _, "x", ha, by rw [ha]; rfl⟩
  obtain ⟨after, after', h⟩ := (renderToken_complement hempty hempty (fun v hv => by
    cases hv; exact hpure) ⟨"x", .standard⟩).1 (fun h => by cases h)
      (fun v hv => by cases hv; exact hkept)
  obtain ⟨after'', h'⟩ := (renderToken_complement hanswered hanswered (fun v hv => by
    cases hv; exact hpure') ⟨"x", .standard⟩).2.1 ⟨answered, rfl, hrewrites⟩
  rw [Found.toOption, Option.map_some, hfollowed] at h
  exact ⟨c, empty, answered, hempty, hpure, hkept, hanswered, hpure', hrewrites, after, after',
    after'', fun go body => ⟨(h go body).1, (h go body).2, h' go body⟩⟩

end Mustache
