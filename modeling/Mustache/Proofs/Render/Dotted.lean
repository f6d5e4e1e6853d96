import Mathlib
import Mustache.Config.Basic
import Mustache.Proofs.Render.Names
import Mustache.Proofs.Render.Parts
import Mustache.Proofs.Render.Sections

/-!
# Dotted names and nested sections

A longer name finds what its end finds within what its front finds. A section on the front with a
variable for the end looks it up in another way, within the object that the section has entered.
What they write is the same, if the section enters one object or what has no children.

* `Value.Enterable`, with `Enterable.renderPresent`: what a section does with such a value;
* `renderVariable_congr`, `renderSection_dotted`;
* **`renderTokens_dotted`**.
-/

namespace Mustache

/-! ## Values that are entered as a whole -/

/-- Null, a number, a text, a map, an empty sequence, or a host object that does not count as
null. -/
def Value.Enterable : Value → Prop
  | .null | .int _ | .float _ | .text _ | .map _ => True
  | .sequence items => items = []
  | .object _ face _ _ _ => face.isNull = false
  | .bool _ | .lambda _ _ => False

namespace Value.Enterable

variable {v : Value}

theorem notLambda (hv : v.Enterable) : v.NotLambda := by
  rintro number answer rfl
  exact hv

/-- A section renders its body around the value; or it renders nothing, and the value has no
children. -/
theorem renderPresent (hv : v.Enterable) :
    (∀ go body c calls, renderPresent go v body c calls = go body (c.withObject v) calls) ∨
      (∀ go body c calls, renderPresent go v body c calls = .ok ("", calls)) ∧
        ∀ name calls, v.child? name calls = (none, calls) := by
  have general (h : ∀ go body c calls, Mustache.renderPresent go v body c calls =
      if v.isFalsy then .ok ("", calls) else go body (c.withObject v) calls)
      (hc : v.isFalsy → ∀ name calls, v.child? name calls = (none, calls)) :
      (∀ go body c calls, Mustache.renderPresent go v body c calls =
          go body (c.withObject v) calls) ∨
        (∀ go body c calls, Mustache.renderPresent go v body c calls = .ok ("", calls)) ∧
          ∀ name calls, v.child? name calls = (none, calls) := by
    cases hf : v.isFalsy with
    | true => exact .inr ⟨fun go body c calls => by rw [h, hf]; rfl, hc hf⟩
    | false => exact .inl fun go body c calls => by rw [h, hf]; rfl
  cases v with
  | null | int | float | text => exact general (fun _ _ _ _ => rfl) fun _ _ _ => rfl
  | map => exact general (fun _ _ _ _ => rfl) nofun
  | object number face child property transform =>
    exact general (fun _ _ _ _ => rfl) fun hf => absurd (hv.symm.trans hf) nofun
  | sequence items =>
    obtain rfl : items = [] := hv
    exact .inr ⟨fun _ _ _ _ => rfl, fun _ _ => rfl⟩
  | bool | lambda => exact hv.elim

end Value.Enterable

/-! ## Variables -/

/-- What a variable writes depends on what its expression resolves to. -/
theorem renderVariable_congr {c c' : Context} {e e' : Expression} {calls calls' : Calls}
    (h : resolve c e calls = resolve c' e' calls') (write : String → String) :
    renderVariable write e c calls = renderVariable write e' c' calls' := by
  rw [renderVariable, renderVariable, h]

section

variable {c : Context} {name path : String} (hn : name ≠ "") (hdot : name ≠ ".") (hp : path ≠ "")
  {calls : Calls} (hv : ∀ v ∈ (resolve c (.plain name) calls).1, v.Enterable)
  (transforms : List String) (source : Source)

include hn hdot hp hv

/-- A section whose body writes the end of the name. -/
theorem renderSection_dotted (write : String → String) {t : Token}
    (hw : ∀ go c' calls, c'.contentType = c.contentType →
      renderToken go c' t calls = renderVariable write ⟨"." ++ path, transforms⟩ c' calls)
    (depth : Nat) :
    renderSection (renderTokens (depth + 1)) (.plain name) source [t] c calls =
      renderVariable write ⟨name ++ "." ++ path, transforms⟩ c calls := by
  obtain ⟨found, after, hr⟩ : ∃ found after, resolveName c (.plain name) calls = (found, after) :=
    ⟨_, _, rfl⟩
  have hdotted : resolve c ⟨name ++ "." ++ path, transforms⟩ calls =
      transformed transforms (descendFrom (segments path.toList) (found, after)) := by
    rw [← hr, ← resolve_nestedName hn hp, nestedName, if_neg hdot]
  have hfound : resolve c (.plain name) calls = (.ofOption found, after) := by
    rw [resolve_plain, hr]
  cases found with
  | none =>
    rw [renderSection, hfound, renderVariable, hdotted]
    rfl
  | some v =>
    have hv : v.Enterable := hv v (by rw [hfound]; rfl)
    rw [(renderSections_of_resolve hfound hv.notLambda _ _).1]
    obtain h | ⟨h, hchild⟩ := hv.renderPresent
    · rw [h, renderTokens_singleton, hw _ (c.withObject v) after rfl]
      refine renderVariable_congr ?_ write
      rw [hdotted]
      exact resolve_scoped hp transforms (c.withObject v) after
    · obtain ⟨first, names, hs⟩ := List.exists_cons_of_ne_nil (segments_ne_nil path.toList)
      rw [h, renderVariable, hdotted, descendFrom, hs, descend, hchild]
      rfl

/-- **A dotted name is a name within a section**, if its front is missing or resolves to a value
that is entered as a whole: a variable for the dotted name writes the same as a section on the front
whose body is a variable for the end, with the same transforms. -/
theorem renderTokens_dotted (depth depth' : Nat) :
    renderTokens (depth + 2)
        [.sectionTag (.plain name) source [.variableTag ⟨"." ++ path, transforms⟩]] c calls =
      renderTokens (depth' + 1) [.variableTag ⟨name ++ "." ++ path, transforms⟩] c calls ∧
    renderTokens (depth + 2)
        [.sectionTag (.plain name) source [.verbatimTag ⟨"." ++ path, transforms⟩]] c calls =
      renderTokens (depth' + 1) [.verbatimTag ⟨name ++ "." ++ path, transforms⟩] c calls := by
  simp only [renderTokens_singleton, renderToken]
  constructor
  · refine renderSection_dotted hn hdot hp hv transforms source _ (fun go c' calls hc => ?_) depth
    rw [renderToken, hc]
  · exact renderSection_dotted hn hdot hp hv transforms source _ (fun _ _ _ _ => rfl) depth

end

/-- A map within the answer of a lambda. -/
theorem renderTokens_dotted_answer :
    ∃ c : Context, "a.b" ≠ "" ∧ "a.b" ≠ "." ∧ "c" ≠ "" ∧
      (∀ v ∈ (resolve c (.plain "a.b") []).1, v.Enterable) ∧
      renderTokens 2 [.sectionTag (.plain "a.b") ⟨"", .standard⟩
        [.variableTag ⟨".c", ["uppercased"]⟩]] c [] = .ok ("X&lt;", [(0, 1)]) := by
  obtain ⟨c, hc⟩ : ∃ c : Context, c = .root (.map [("a", .lambda 0 fun _ _ =>
      .map [("b", .map [("c", .text "x<")])])]) Config.builtIn.types none := ⟨_, rfl⟩
  have hv : ∀ v ∈ (resolve c (.plain "a.b") []).1, v.Enterable := by
    have hr : (resolve c (.plain "a.b") []).1 = .value (.map [("c", .text "x<")]) := by
      rw [hc]
      rfl
    rw [hr]
    rintro v ⟨⟩
    trivial
  have hdotted : renderTokens 1 [.variableTag ⟨"a.b.c", ["uppercased"]⟩] c [] =
      .ok ("X&lt;", [(0, 1)]) := by
    rw [hc]
    rfl
  have hname : "a.b" ≠ "" ∧ "a.b" ≠ "." := by decide
  have hpath : "c" ≠ "" := by decide
  have hsection := renderTokens_dotted hname.1 hname.2 hpath hv ["uppercased"] ⟨"", .standard⟩ 0 0
  rw [show "." ++ "c" = ".c" by decide, show "a.b" ++ "." ++ "c" = "a.b.c" by decide] at hsection
  exact ⟨c, hname.1, hname.2, hpath, hv, hsection.1.trans hdotted⟩

end Mustache
