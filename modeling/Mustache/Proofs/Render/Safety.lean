import Mathlib
import Mustache.Config.Basic
import Mustache.Proofs.Render.Simulation
import Mustache.Proofs.Template.Shape

/-!
# No rendering meets the definition of a block

Definitions of blocks exist only while a template is read. A parent collects the ones directly
inside it, and everywhere else a block is a block. What a lambda answers is read in the same way
before it is rendered.

* `Simulation.safety`: tokens without definitions do not stop for one; `Simulation.safety_root`;
* **`renderTokens_ne_strayDefinition`**.
-/

namespace Mustache

/-- Without definitions there is no end because of one. -/
def Simulation.safety : Simulation :=
  equal Token.NoDefinition (fun _ => True) (· ≠ .strayDefinition)

theorem Simulation.safety_lawful : safety.Lawful :=
  equal_lawful Value.stable_true (fun ht => absurd rfl (ht _ _)) nofun (fun _ _ => nofun)
    Token.definitionFree_of_parseWith

/-- A compiled template with a library of compiled templates. -/
theorem Simulation.safety_root {t : Template} {library : Option Library} (ht : t.Compiled)
    (hl : ∀ l ∈ library, l.Compiled) (types : ContentTypes) (data : Value) (depth : Nat)
    (calls : Calls) {stop : Stop}
    (h : renderTokens depth t.tokens (.root data types library) calls = .error stop) :
    stop ≠ .strayDefinition := by
  have halongside : safety.Alongside (.root data types library) (.root data types library) :=
    Alongside.root ⟨rfl, fun _ _ => trivial⟩ rfl trivial (fun _ _ _ _ => trivial)
      fun l name named e hn => ((hl l e).find? hn).definitionFree
  have hr := renderTokens_agree safety_lawful depth t.tokens _ _ calls ht.definitionFree halongside
  rw [h] at hr
  cases hr with
  | error hs => exact hs

/-- **No definition of a block is left in what is read**, whatever the delimiters, the content
types and the nesting; **and no rendering of a compiled template meets one**, whatever the data,
the library of compiled templates and the depth. -/
theorem renderTokens_ne_strayDefinition :
    (∀ d types source tokens, Token.parseWith d types source = .ok tokens →
      ∀ name body, ¬ Token.Occurs (.definitionTag name body) tokens) ∧
    ∀ (t : Template) (library : Option Library) types data depth calls, t.Compiled →
      (∀ l ∈ library, l.Compiled) →
        renderTokens depth t.tokens (.root data types library) calls ≠
          .error .strayDefinition := by
  constructor
  · intro d types source tokens h name body ho
    exact Token.definitionFree_of_parseWith h _ ho name body rfl
  · intro t library types data depth calls ht hl he
    exact Simulation.safety_root ht hl types data depth calls he rfl

/-- A parent fills in a block with a section, whose lambda answers with the same parent again. -/
theorem renderTokens_parent_ne_strayDefinition :
    ∃ tokens, Token.parse Config.builtIn.types
        ("{{<p}}{{$b}}" ++ "{{#f}}x{{/f}}" ++ "{{/b}}{{/p}}") = .ok tokens ∧
      (∀ name body, ¬ Token.Occurs (.definitionTag name body) tokens) ∧
      ∃ library, Library.Compiled library ∧ library.contains "p" = true ∧
        ∀ depth, renderTokens depth tokens (.root (.map [("f", .lambda 0 fun _ s =>
          .text ("{{<p}}{{$b}}" ++ s ++ "{{/b}}{{/p}}"))]) Config.builtIn.types (some library)) [] ≠
            .error .strayDefinition := by
  have hp : Token.parse Config.builtIn.types
      ("{{<p}}{{$b}}" ++ "{{#f}}x{{/f}}" ++ "{{/b}}{{/p}}") = .ok
      [.parentTag ⟨"p", false⟩ none
        [("b", [.sectionTag (.plain "f") ⟨"x", .standard⟩ [.text "x"]])]] := by cbv
  have hb : Token.parse Config.builtIn.types "{{$b}}{{/b}}" = .ok [.blockTag "b" [] none] := by cbv
  have ht : Template.Compiled ⟨[.parentTag ⟨"p", false⟩ none
      [("b", [.sectionTag (.plain "f") ⟨"x", .standard⟩ [.text "x"]])]], Config.builtIn.types⟩ :=
    ⟨_, _, by rw [Template.compile, hp]; rfl⟩
  have hl : Library.Compiled ((Library.empty Config.builtIn.types).register "p"
      ⟨[.blockTag "b" [] none], Config.builtIn.types⟩) :=
    (Library.compiled_empty _).register ⟨_, _, by rw [Template.compile, hb]; rfl⟩
  refine ⟨_, hp, renderTokens_ne_strayDefinition.1 _ _ _ _ hp, _, hl, rfl, fun depth => ?_⟩
  exact renderTokens_ne_strayDefinition.2 _ _ _ _ depth _ ht fun l e => by cases e; exact hl

end Mustache
