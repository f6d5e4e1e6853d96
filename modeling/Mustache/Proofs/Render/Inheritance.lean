import Mathlib
import Mustache.Config.Basic
import Mustache.Proofs.Context
import Mustache.Proofs.Render.Depth
import Mustache.Proofs.Render.Parts

/-!
# Templates that fill in blocks of each other

A template can be nothing but a parent that fills in blocks of another template, which again can be
such a parent, and so on. In the end the first template is rendered, and each of its blocks is
filled in by the last template of the chain that does so.

* `Overrides.Nearest`: the body that a chain fills a block in with; `Overrides.merge`,
  `Overrides.lookup_merge`: the overrides that come down a chain;
* `Context.FilledBy`: a context in which these blocks are filled in, and no others;
* `Context.Inside`, `Inside.override?_some`, `Inside.override?_none`: what a rendering comes to from
  a context, and which blocks are filled in there;
* `renderTokens_parent`, `renderTokens_chain`: one template of the chain, and all of them;
* **`Library.render_chain`**.
-/

namespace Mustache

/-! ## Overrides -/

namespace Overrides

/-- The body that the chain fills a block in with: that of the last template that has one. -/
def Nearest (overrides : Nat → Overrides) (n : Nat) (name : String) (body : List Token) : Prop :=
  ∃ i, 1 ≤ i ∧ i ≤ n ∧ (overrides i).lookup name = some body ∧
    ∀ j, i < j → j ≤ n → (overrides j).lookup name = none

/-- Overrides together with those that come down a chain. -/
def merge (overrides : Nat → Overrides) : Nat → Overrides → Overrides
  | 0, above => above
  | n + 1, above => merge overrides n (Entries.fill above (overrides (n + 1)))

variable {overrides : Nat → Overrides} {n : Nat} {name : String} {body : List Token}

theorem not_nearest_zero : ¬ Nearest overrides 0 name body := by
  rintro ⟨i, h1, h0, -⟩
  omega

/-- A template at the end of a chain that fills in the block is the nearest. -/
theorem nearest_of_some (h : (overrides (n + 1)).lookup name = some body) (other : List Token) :
    Nearest overrides (n + 1) name other ↔ body = other := by
  constructor
  · rintro ⟨i, -, hi, hb, hlater⟩
    obtain hi | rfl := Nat.lt_or_eq_of_le hi
    · rw [hlater (n + 1) hi (Nat.le_refl _)] at h
      cases h
    · exact Option.some.inj (h.symm.trans hb)
  · rintro rfl
    exact ⟨n + 1, by omega, Nat.le_refl _, h, fun j hj hn => absurd hj (by omega)⟩

/-- A template at the end of a chain that does not fill in the block changes nothing. -/
theorem nearest_of_none (h : (overrides (n + 1)).lookup name = none) (body : List Token) :
    Nearest overrides (n + 1) name body ↔ Nearest overrides n name body := by
  constructor
  · rintro ⟨i, h1, hi, hb, hlater⟩
    obtain hi | rfl := Nat.lt_or_eq_of_le hi
    · exact ⟨i, h1, by omega, hb, fun j hj hn => hlater j hj (by omega)⟩
    · rw [h] at hb
      cases hb
  · rintro ⟨i, h1, hi, hb, hlater⟩
    refine ⟨i, h1, by omega, hb, fun j hj hn => ?_⟩
    obtain hn | rfl := Nat.lt_or_eq_of_le hn
    · exact hlater j hj (by omega)
    · exact h

/-- **What comes down a chain**: overrides from above win, and then those of the nearest
template. -/
theorem lookup_merge (above : Overrides) :
    (merge overrides n above).lookup name = some body ↔
      above.lookup name = some body ∨
        above.lookup name = none ∧ Nearest overrides n name body := by
  induction n generalizing above with
  | zero => simp [merge, not_nearest_zero]
  | succ n ih =>
    rw [merge, ih, Entries.lookup_fill]
    cases above.lookup name with
    | some first => simp
    | none =>
      cases hn : (overrides (n + 1)).lookup name with
      | some own => simp [nearest_of_some hn]
      | none => simp [nearest_of_none hn]

end Overrides

/-- Exactly the blocks of a chain are filled in, each as the nearest template does. -/
def Context.FilledBy (c : Context) (overrides : Nat → Overrides) (n : Nat) : Prop :=
  ∀ name body, c.override? name = some body ↔ Overrides.Nearest overrides n name body

namespace Context.FilledBy

variable {c c' : Context} {overrides : Nat → Overrides} {n : Nat} {name : String}

theorem override?_none (h : c.FilledBy overrides n)
    (hnone : ∀ i, 1 ≤ i → i ≤ n → (overrides i).lookup name = none) :
    c.override? name = none := by
  rw [Option.eq_none_iff_forall_not_mem]
  intro body hb
  obtain ⟨i, h1, hi, hbody, -⟩ := (h name body).mp hb
  rw [hnone i h1 hi] at hbody
  cases hbody

theorem override?_eq (h : c.FilledBy overrides n) (h' : c'.FilledBy overrides n) (name : String) :
    c'.override? name = c.override? name :=
  Option.ext fun body => (h' name body).trans (h name body).symm

end Context.FilledBy

/-! ## Contexts inside of others -/

/-- A context that a rendering comes to from another one, if the parents that it enters have such
overrides. A template that is included has none. -/
inductive Context.Inside (c : Context) (allowed : Overrides → Prop) : Context → Prop
  | refl : Inside c allowed c
  | object {c'} (value : Value) : Inside c allowed c' → Inside c allowed (c'.withObject value)
  | element {c'} (value : Value) (position : Position) :
    Inside c allowed c' → Inside c allowed (c'.withElement value position)
  | included {c'} (indentation : Option String) :
    Inside c allowed c' → Inside c allowed (c'.withPartial indentation [])
  | parent {c'} (indentation : Option String) {own : Overrides} (h : allowed own) :
    Inside c allowed c' → Inside c allowed (c'.withPartial indentation own)
  | block {c'} (indentation : Option String) :
    Inside c allowed c' → Inside c allowed (c'.withBlock indentation)
  | contentType {c'} (id : String) :
    Inside c allowed c' → Inside c allowed (c'.withContentType id)

namespace Context

variable {c c' : Context} {allowed : Overrides → Prop} {name : String} {body : List Token}

/-- **A block that is filled in stays so**, also in other parents that fill it in. -/
theorem Inside.override?_some (h : c.Inside allowed c') (hb : c.override? name = some body) :
    c'.override? name = some body := by
  induction h with
  | refl => exact hb
  | _ => simp [*]

/-- **A block that is not filled in stays so** until a parent does. -/
theorem Inside.override?_none (h : c.Inside (fun own => own.lookup name = none) c')
    (hb : c.override? name = none) : c'.override? name = none := by
  induction h with
  | refl => exact hb
  | _ => simp [*]

end Context

/-- A block that is filled in. -/
theorem renderBlock_some {c : Context} {name : String} {body : List Token}
    (hb : c.override? name = some body) (go : Renderer) (default : List Token)
    (indentation : Option String) (calls : Calls) :
    renderBlock go name default indentation c calls =
      (go body (c.withBlock indentation) calls).map fun (text, calls) =>
        (indentFirst indentation text, calls) := by
  rw [renderBlock, hb]

/-- A block that is not filled in. -/
theorem renderBlock_none {c : Context} {name : String} (hb : c.override? name = none)
    (go : Renderer) (default : List Token) (indentation : Option String) (calls : Calls) :
    renderBlock go name default indentation c calls = go default c calls := by
  rw [renderBlock, hb]

/-! ## Chains of templates -/

/-- The target names a template in a context, itself or by its value there. -/
def Target.Denotes (target : Target) (c : Context) (name : String) : Prop :=
  if target.dynamic then
    ∀ calls, resolve c (.plain target.name) calls = (.value (.text name), calls)
  else target.name = name

theorem renderTarget_of_denotes {target : Target} {c : Context} {name : String}
    (h : target.Denotes c name) (go : Renderer) (indentation : Option String)
    (overrides : Overrides) (calls : Calls) :
    renderTarget go target indentation overrides c calls =
      renderNamed go name indentation overrides c calls := by
  by_cases hd : target.dynamic
  · rw [Target.Denotes, if_pos hd] at h
    rw [renderTarget, if_pos hd, h]
  · rw [Target.Denotes, if_neg hd] at h
    rw [renderTarget, if_neg hd, h]

/-- A template that is nothing but a parent. -/
theorem renderTokens_parent {c : Context} {target : Target} {name : String} {t : Template}
    (hname : target.Denotes c name) (ht : c.library.bind (·.find? name) = some t) (depth : Nat)
    (overrides : Overrides) (calls : Calls) :
    renderTokens (depth + 1) [.parentTag target none overrides] c calls =
      renderTokens depth t.tokens (c.withPartial none overrides) calls := by
  simp only [renderTokens_singleton, renderToken, renderTarget_of_denotes hname, renderNamed, ht]
  cases renderTokens depth t.tokens (c.withPartial none overrides) calls <;> rfl

/-- The context of a whole template in the library, with overrides. -/
def Library.context (library : Library) (data : Value) (overrides : Overrides) : Context :=
  { Context.root data library.contentTypes (some library) with overrides }

section

variable {library : Library} {data : Value} {names : Nat → String} {targets : Nat → Target}
  {templates : Nat → Template} {overrides : Nat → Overrides} {n : Nat}

/-- The overrides that come down a chain fill in its blocks. -/
theorem Context.filledBy_merge (library : Library) (data : Value) (overrides : Nat → Overrides)
    (n : Nat) :
    (library.context data (Overrides.merge overrides n [])).FilledBy overrides n := by
  intro name body
  simp [override?, Library.context, Overrides.lookup_merge]

/-- A chain of templates, with overrides from above. -/
theorem renderTokens_chain (hfind : ∀ i ≤ n, library.find? (names i) = some (templates i))
    (hname : ∀ i < n, (targets (i + 1)).Denotes
      (.root data library.contentTypes (some library)) (names i))
    (hparent : ∀ i < n, (templates (i + 1)).tokens =
      [.parentTag (targets (i + 1)) none (overrides (i + 1))])
    (above : Overrides) (depth : Nat) (calls : Calls) :
    renderTokens (n + depth) (templates n).tokens (library.context data above) calls =
      renderTokens depth (templates 0).tokens
        (library.context data (Overrides.merge overrides n above)) calls := by
  induction n generalizing above with
  | zero => rw [Nat.zero_add, Overrides.merge]
  | succ n ih =>
    have hlow : (library.context data above).library.bind (·.find? (names n)) =
        some (templates n) := hfind n (Nat.le_succ n)
    -- no lookup reads the overrides
    have hroot : (targets (n + 1)).Denotes (library.context data above) (names n) :=
      hname n (Nat.lt_succ_self n)
    rw [Nat.add_right_comm, hparent n (Nat.lt_succ_self n), renderTokens_parent hroot hlow]
    exact ih (fun i hi => hfind i (Nat.le_succ_of_le hi))
      (fun i hi => hname i (Nat.lt_succ_of_lt hi)) (fun i hi => hparent i (Nat.lt_succ_of_lt hi)) _

/-- **The template nearest to the one that is rendered wins.** If every template of a chain is
nothing but a parent that fills in blocks of the one before, then rendering the last one is
rendering the first one in a context of its own, in which each block is filled in by the last
template that does so, and the others are not. Inside of that context, so in the templates that it
includes, it is the same: a parent there does not replace what the chain fills in. -/
theorem Library.render_chain (hfind : ∀ i ≤ n, library.find? (names i) = some (templates i))
    (hname : ∀ i < n, (targets (i + 1)).Denotes
      (.root data library.contentTypes (some library)) (names i))
    (hparent : ∀ i < n, (templates (i + 1)).tokens =
      [.parentTag (targets (i + 1)) none (overrides (i + 1))])
    {winners : Overrides} (hfill : (library.context data winners).FilledBy overrides n) :
    (∀ depth calls,
      renderTokens (n + depth) (templates n).tokens
          (.root data library.contentTypes (some library)) calls =
        renderTokens depth (templates 0).tokens (library.context data winners) calls) ∧
      (∀ calls out, library.render? (names n) data calls = some (.ok out) →
        renderTokens depthLimit (templates 0).tokens (library.context data winners) calls =
          .ok out) ∧
      ∀ go name default indentation calls,
        (∀ body, Overrides.Nearest overrides n name body →
          ∀ c, (library.context data winners).Inside (fun _ => True) c →
            renderBlock go name default indentation c calls =
              (go body (c.withBlock indentation) calls).map fun (text, calls) =>
                (indentFirst indentation text, calls)) ∧
        ((∀ i, 1 ≤ i → i ≤ n → (overrides i).lookup name = none) →
          ∀ c, (library.context data winners).Inside (fun own => own.lookup name = none) c →
            renderBlock go name default indentation c calls = go default c calls) := by
  have hsame := (Context.filledBy_merge library data overrides n).override?_eq hfill
  have hall (depth : Nat) (calls : Calls) :
      renderTokens (n + depth) (templates n).tokens
          (.root data library.contentTypes (some library)) calls =
        renderTokens depth (templates 0).tokens (library.context data winners) calls := by
    calc renderTokens (n + depth) (templates n).tokens
          (.root data library.contentTypes (some library)) calls
      _ = renderTokens depth (templates 0).tokens
            (library.context data (Overrides.merge overrides n [])) calls :=
          renderTokens_chain hfind hname hparent [] depth calls
      _ = renderTokens depth (templates 0).tokens (library.context data winners) calls :=
          (renderTokens_overrides rfl hsame depth _ calls).symm
  refine ⟨hall, fun calls out hr => ?_, fun go name default indentation calls =>
    ⟨fun body hb c hc => ?_, fun hnone c hc => ?_⟩⟩
  · have hrender : renderTokens depthLimit (templates n).tokens
        (.root data library.contentTypes (some library)) calls = .ok out := by
      rw [Library.render?, hfind n (Nat.le_refl n)] at hr
      exact Option.some.inj hr
    have hdeep := renderTokens_of_le (Nat.le_add_left depthLimit n) (templates n).tokens
      (.root data library.contentTypes (some library)) calls
    rw [hrender] at hdeep
    rw [← hall, hdeep nofun]
  · have hwins := hc.override?_some ((hfill name body).mpr hb)
    exact renderBlock_some hwins go default indentation calls
  · have hopen := hc.override?_none (hfill.override?_none hnone)
    exact renderBlock_none hopen go default indentation calls

end

/-- A page fills in one block of a base and leaves another to the template between them, which fills
in both; the third is as in the base. -/
theorem Library.render_chain_page :
    ∃ base middle page : Template,
      Template.compile Config.builtIn.types "{{$a}}1{{/a}}{{$b}}1{{/b}}{{$c}}1{{/c}}" = .ok base ∧
      Template.compile Config.builtIn.types
        "{{<base}}{{$a}}2{{/a}}{{$b}}2{{/b}}{{/base}}" = .ok middle ∧
      Template.compile Config.builtIn.types "{{<middle}}{{$a}}3{{/a}}{{/middle}}" = .ok page ∧
      ∃ library, library = (((Library.empty Config.builtIn.types).register "base" base).register
          "middle" middle).register "page" page ∧
        library.render? "page" .null [] = some (.ok ("321", [])) ∧
        renderTokens depthLimit base.tokens
          (library.context .null [("a", [.text "3"]), ("b", [.text "2"])]) [] =
            .ok ("321", []) := by
  have hbase : Token.parse Config.builtIn.types "{{$a}}1{{/a}}{{$b}}1{{/b}}{{$c}}1{{/c}}" = .ok
      [.blockTag "a" [.text "1"] none, .blockTag "b" [.text "1"] none,
        .blockTag "c" [.text "1"] none] := by cbv
  have hmiddle : Token.parse Config.builtIn.types
      "{{<base}}{{$a}}2{{/a}}{{$b}}2{{/b}}{{/base}}" = .ok
      [.parentTag ⟨"base", false⟩ none [("a", [.text "2"]), ("b", [.text "2"])]] := by cbv
  have hpage : Token.parse Config.builtIn.types "{{<middle}}{{$a}}3{{/a}}{{/middle}}" = .ok
      [.parentTag ⟨"middle", false⟩ none [("a", [.text "3"])]] := by cbv
  let base : Template := ⟨[.blockTag "a" [.text "1"] none, .blockTag "b" [.text "1"] none,
    .blockTag "c" [.text "1"] none], Config.builtIn.types⟩
  let middle : Template := ⟨[.parentTag ⟨"base", false⟩ none
    [("a", [.text "2"]), ("b", [.text "2"])]], Config.builtIn.types⟩
  let page : Template := ⟨[.parentTag ⟨"middle", false⟩ none [("a", [.text "3"])]],
    Config.builtIn.types⟩
  let library := (((Library.empty Config.builtIn.types).register "base" base).register
    "middle" middle).register "page" page
  let names (i : Nat) : String := ["base", "middle", "page"].getD i ""
  let targets (i : Nat) : Target := ⟨names (i - 1), false⟩
  let templates (i : Nat) : Template := [base, middle, page].getD i page
  let overrides (i : Nat) : Overrides :=
    [[], [("a", [.text "2"]), ("b", [.text "2"])], [("a", [.text "3"])]].getD i []
  have hfind : ∀ i ≤ 2, library.find? (names i) = some (templates i) := by
    intro i hi
    interval_cases i <;> rfl
  have hname : ∀ i < 2, (targets (i + 1)).Denotes
      (.root .null library.contentTypes (some library)) (names i) := by
    intro i _
    rfl
  have hparent : ∀ i < 2, (templates (i + 1)).tokens =
      [.parentTag (targets (i + 1)) none (overrides (i + 1))] := by
    intro i hi
    interval_cases i <;> rfl
  have hfill : (library.context .null [("a", [.text "3"]), ("b", [.text "2"])]).FilledBy
      overrides 2 := Context.filledBy_merge library .null overrides 2
  have hrender : library.render? "page" .null [] = some (.ok ("321", [])) := rfl
  have hchain := (Library.render_chain hfind hname hparent hfill).2.1 [] ("321", []) hrender
  exact ⟨base, middle, page, by rw [Template.compile, hbase]; rfl,
    by rw [Template.compile, hmiddle]; rfl, by rw [Template.compile, hpage]; rfl,
    library, rfl, hrender, hchain⟩

end Mustache
