import Mathlib
import Mustache.Proofs.Render.Depth
import Mustache.Proofs.Render.Safety
import Mustache.Proofs.Value.Sortable

/-!
# Rendering comes to an end

A rendering comes to an end if the templates can be ranked, so that each of them names templates of
lower ranks only. That is not enough for what fills in blocks: it is rendered where the block is,
and a body that names the template of its own block would be rendered again and again. So it has to
be plain. At its end a rendering has an output, unless it comes upon a sequence to be sorted whose
comparison is no order.

* `Token.Plain`: neither a block nor the name of a template; `Token.Ranked`: a token that names
  templates of lower ranks, and fills in blocks with plain tokens;
* `Rendered.Ends`; **`renderTokens_ne_depth`**: a budget that every visit lowers;
* `Context.Bounded`, `Context.Bounded.visit`: what contexts fill in blocks with;
* `Budget`: the size of plain tokens, and for others a full size for every rank as well;
  **`Budget.visit`**;
* **`renderTokens_ne_disorder`**: data without a sequence that may be found out of order;
* **`exists_output_of_ranked`**, `exists_output_of_ranked_interleaved`.
-/

namespace Mustache

namespace Token

/-- The token is not a block and names no template. -/
def Plain (t : Token) : Prop :=
  t.target? = none ∧ ∀ name default indentation, t ≠ .blockTag name default indentation

/-- The token names no template but those of ranks below the bound, none of them dynamically, and
fills in blocks with plain tokens. -/
structure Ranked (l : Library) (rank : String → ℕ) (bound : ℕ) (t : Token) : Prop where
  static : ∀ target ∈ t.target?, target.dynamic = false
  lower : ∀ target ∈ t.target?, ∀ named, l.find? target.name = some named →
    rank target.name < bound
  plain : ∀ entry ∈ t.overrides, Everywhere Plain entry.2

theorem Everywhere.body {p : Token → Prop} {tokens body : List Token} (h : Everywhere p tokens)
    {t : Token} (ht : t ∈ tokens) (hb : body ∈ t.bodies) : Everywhere p body :=
  fun u hu => h u (.inside ht hb hu)

theorem overrides_eq_nil {t : Token} (h : t.target? = none) : t.overrides = [] := by
  cases t with
  | parentTag => nomatch h
  | text | variableTag | verbatimTag | sectionTag | invertedTag | definitionTag | blockTag
  | partialTag | pragmaTag => rfl

theorem sizeOf_lt_of_mem_bodies {t : Token} {body : List Token} (h : body ∈ t.bodies) :
    sizeOf body < sizeOf t := by
  cases t with
  | sectionTag e source body | invertedTag e source body | definitionTag name body =>
    obtain rfl := List.mem_singleton.mp h
    simp
  | blockTag name body indentation =>
    obtain rfl := List.mem_singleton.mp h
    simp only [blockTag.sizeOf_spec]
    omega
  | parentTag target indentation overrides =>
    obtain ⟨⟨name, body⟩, he, rfl⟩ := List.mem_map.mp h
    have hlt := List.sizeOf_lt_of_mem he
    simp at hlt ⊢
    omega
  | text | variableTag | verbatimTag | partialTag | pragmaTag => nomatch h

end Token

/-- Without lambdas, a token comes to render a body of its own, what fills it in, or the template
that it names. -/
theorem Token.Visits.origin {c c' : Context} {t : Token} {body : List Token}
    (h : t.Visits c body c') (hc : ∀ v ∈ c.top :: c.below, v.Everywhere Value.NotLambda) :
    body ∈ t.bodies ∨
      (∃ name default indentation, t = .blockTag name default indentation ∧
        c.override? name = some body) ∨
      ∃ target name named, t.target? = some target ∧
        (target.dynamic = false → name = target.name) ∧
        c.library.bind (·.find? name) = some named ∧ named.tokens = body := by
  cases h with
  | answer hl =>
    have hv := Value.stable_notLambda.resolve hc (by rw [hl])
    exact absurd rfl (hv.here _ _)
  | filled ho default indentation => exact .inr (.inl ⟨_, default, indentation, rfl, ho⟩)
  | template ht hs hn => exact .inr (.inr ⟨_, _, _, ht, hs, hn, rfl⟩)
  | present | object | element | absent | emptied | unfilled =>
    exact .inl (List.mem_singleton.mpr rfl)

/-! ## Budgets -/

namespace Rendered

/-- The same result, which is not that of stopping at the depth. -/
def Ends (r r' : Rendered) : Prop := r' = r ∧ r ≠ .error .depth

theorem Ends.compositional : Compositional Ends where
  same h := ⟨rfl, h⟩
  bind := by
    intro r r' f f' hr hf
    obtain ⟨rfl, hne⟩ := hr
    cases r' with
    | error stop => exact ⟨rfl, hne⟩
    | ok x => exact hf x

end Rendered

/-- **A budget that every visit lowers** is a depth that is enough. -/
theorem renderTokens_ne_depth {budget : ℕ → List Token → Context → Prop}
    (hvisit : ∀ {n tokens c}, budget n tokens c → ∀ t ∈ tokens, ∀ {type body c'},
      t.Visits { c with contentType := type } body c' → ∃ m < n, budget m body c')
    {n depth : ℕ} (hn : n < depth) {tokens : List Token} {c : Context} (h : budget n tokens c)
    (calls : Calls) : renderTokens depth tokens c calls ≠ .error .depth := by
  induction depth generalizing n tokens c calls with
  | zero => exact absurd hn (Nat.not_lt_zero n)
  | succ depth ih =>
    have hends : Rendered.Ends (renderAll (renderTokens depth) c "" tokens calls)
        (renderAll (renderTokens depth) c "" tokens calls) := by
      refine renderAll_lift Rendered.Ends.compositional
        (fun t ht type body c' hv calls => ?_) "" calls
      obtain ⟨m, hm, hbody⟩ := hvisit h t ht hv
      exact ⟨rfl, ih (by omega) hbody calls⟩
    exact hends.2

/-! ## The budget of a ranked template -/

section

variable {l : Library} {rank : String → ℕ} {size n : ℕ} {c c' : Context} {t : Token}
  {tokens body : List Token}

/-- The context has the library, no lambdas in its objects, and fills in blocks with plain tokens of
bounded size. -/
structure Context.Bounded (l : Library) (size : ℕ) (c : Context) : Prop where
  library : c.library = some l
  values : ∀ v ∈ c.top :: c.below, v.Everywhere Value.NotLambda
  overrides : ∀ name body, c.override? name = some body →
    Token.Everywhere Token.Plain body ∧ sizeOf body ≤ size

theorem Context.Bounded.visit (h : c.Bounded l size) (hv : t.Visits c body c')
    (ht : ∀ entry ∈ t.overrides, Token.Everywhere Token.Plain entry.2 ∧ sizeOf entry.2 ≤ size) :
    c'.Bounded l size where
  library := hv.library.trans h.library
  values := hv.values Value.stable_notLambda h.values
  overrides name body ho := (hv.override? ho).elim (h.overrides name body) (ht (name, body))

/-- What rendering the tokens may take: the size of plain tokens. For others, every rank below
their bound may take a full size, and one more may be taken by what fills in a block. -/
def Budget (l : Library) (rank : String → ℕ) (size n : ℕ) (tokens : List Token) (c : Context) :
    Prop :=
  c.Bounded l size ∧ (Token.Everywhere Token.Plain tokens ∧ sizeOf tokens ≤ n ∨
    ∃ bound, Token.Everywhere (Token.Ranked l rank bound) tokens ∧ sizeOf tokens ≤ size ∧
      (bound + 1) * (size + 1) + sizeOf tokens ≤ n)

/-- **A visit lowers the budget**, if it is that of a library with ranked templates. -/
theorem Budget.visit
    (hl : ∀ name named, l.find? name = some named →
      Token.Everywhere (Token.Ranked l rank (rank name)) named.tokens ∧
        sizeOf named.tokens ≤ size)
    (h : Budget l rank size n tokens c) (ht : t ∈ tokens) {type : ContentType}
    (hv : t.Visits { c with contentType := type } body c') :
    ∃ m < n, Budget l rank size m body c' := by
  obtain ⟨hc, htokens⟩ := h
  have hc' : Context.Bounded l size { c with contentType := type } :=
    ⟨hc.library, hc.values, hc.overrides⟩
  have ht' := List.sizeOf_lt_of_mem ht
  obtain ⟨hplain, hsize⟩ | ⟨bound, hranked, hsize, hn⟩ := htokens
  · have hp := hplain t (.here ht)
    have hnext : c'.Bounded l size := hc'.visit hv (by simp [Token.overrides_eq_nil hp.1])
    obtain hb | ⟨name, default, indentation, rfl, -⟩ | ⟨target, name, named, hs, -⟩ :=
      hv.origin hc'.values
    · have hlt := Token.sizeOf_lt_of_mem_bodies hb
      exact ⟨sizeOf body, by omega, hnext, .inl ⟨hplain.body ht hb, le_rfl⟩⟩
    · exact absurd rfl (hp.2 name default indentation)
    · nomatch hp.1.symm.trans hs
  · have hr := hranked t (.here ht)
    have hnext : c'.Bounded l size := by
      refine hc'.visit hv fun entry he => ⟨hr.plain entry he, ?_⟩
      have hlt := Token.sizeOf_lt_of_mem_bodies (Token.mem_bodies_of_mem_overrides he)
      omega
    obtain hb | ⟨name, default, indentation, -, ho⟩ | ⟨target, name, named, hs, hname, hn', rfl⟩ :=
      hv.origin hc'.values
    · have hlt := Token.sizeOf_lt_of_mem_bodies hb
      exact ⟨_, by omega, hnext, .inr ⟨bound, hranked.body ht hb, by omega, le_rfl⟩⟩
    · -- What fills in a block takes the size that is left over all ranks.
      obtain ⟨hp, hs⟩ := hc'.overrides name body ho
      have hfull : size + 1 ≤ (bound + 1) * (size + 1) :=
        Nat.le_mul_of_pos_left _ (Nat.succ_pos bound)
      exact ⟨sizeOf body, by omega, hnext, .inl ⟨hp, le_rfl⟩⟩
    · obtain rfl := hname (hr.static target hs)
      have hfind : l.find? target.name = some named := by
        rw [hc'.library] at hn'
        exact hn'
      obtain ⟨hnamed, hsmall⟩ := hl _ named hfind
      have hlower := hr.lower target hs named hfind
      have hranks : (rank target.name + 1 + 1) * (size + 1) ≤ (bound + 1) * (size + 1) :=
        Nat.mul_le_mul_right _ (by omega)
      rw [Nat.succ_mul] at hranks
      exact ⟨_, by omega, hnext, .inr ⟨_, hnamed, hsmall, le_rfl⟩⟩

end

/-! ## Disorder -/

/-- Without sequences that may be found out of order there is no end because of one. -/
theorem Simulation.sortable_lawful :
    (equal (fun _ => True) Value.Sortable (· ≠ .disorder)).Lawful :=
  equal_lawful Value.stable_sortable (fun _ => nofun) nofun
    (fun h hr => absurd hr (resolve_ne_disorder h _ _)) fun _ _ _ => trivial

/-- **Data in which everything can be sorted** is never found out of order, whatever the template
and the depth. -/
theorem renderTokens_ne_disorder {data : Value} (h : data.Everywhere Value.Sortable)
    (tokens : List Token) (types : ContentTypes) (library : Option Library) (depth : ℕ)
    (calls : Calls) :
    renderTokens depth tokens (.root data types library) calls ≠ .error .disorder := by
  intro he
  have halongside : (Simulation.equal (fun _ => True) Value.Sortable (· ≠ .disorder)).Alongside
      (.root data types library) (.root data types library) :=
    Simulation.Alongside.root ⟨rfl, h⟩ rfl trivial (fun _ _ _ _ => trivial)
      fun _ _ _ _ _ _ _ => trivial
  have hr := Simulation.renderTokens_agree Simulation.sortable_lawful depth tokens _ _ calls
    (fun _ _ => trivial) halongside
  rw [he] at hr
  cases hr with
  | error hs => exact hs rfl

/-- **Rendering comes to an end**, at a depth that is enough for all data. The templates of the
library are ranked: each of them, and the template that is rendered, names only templates of lower
ranks or such that are not there, and fills in blocks with tokens that are plain. Then there is an
output, whatever the data without lambdas, unless sorting comes upon disorder; and it does not, if
everything in the data can be sorted. -/
theorem exists_output_of_ranked {library : Library} {t : Template} (hl : library.Compiled)
    (ht : t.Compiled) {rank : String → ℕ} {bound : ℕ}
    (hlibrary : ∀ name named, library.find? name = some named →
      Token.Everywhere (Token.Ranked library rank (rank name)) named.tokens)
    (htemplate : Token.Everywhere (Token.Ranked library rank bound) t.tokens) :
    ∃ depth, ∀ data : Value, data.Everywhere Value.NotLambda → ∀ types calls, ∃ r : Rendered,
      (∀ depth', depth ≤ depth' →
        renderTokens depth' t.tokens (.root data types (some library)) calls = r) ∧
      ((∃ out, r = .ok out) ∨ r = .error .disorder ∧ ¬data.Everywhere Value.Sortable) := by
  obtain ⟨size, hsize⟩ :=
    (sizeOf t.tokens :: library.templates.map fun e => sizeOf e.2.tokens).toFinset.exists_le
  have ht' : sizeOf t.tokens ≤ size := hsize _ (by simp)
  have hsmall (name : String) (named : Template) (h : library.find? name = some named) :
      sizeOf named.tokens ≤ size := by
    refine hsize _ ?_
    have hm := List.mem_map_of_mem (f := fun e : String × Template => sizeOf e.2.tokens)
      (Entries.mem_of_lookup h)
    simp only [List.mem_toFinset, List.mem_cons]
    exact .inr hm
  refine ⟨(bound + 1) * (size + 1) + sizeOf t.tokens + 1, fun data hdata types calls => ?_⟩
  have hbudget : Budget library rank size ((bound + 1) * (size + 1) + sizeOf t.tokens) t.tokens
      (.root data types (some library)) :=
    ⟨⟨rfl, List.forall_mem_singleton.mpr hdata, nofun⟩, .inr ⟨bound, htemplate, ht', le_rfl⟩⟩
  have hends := renderTokens_ne_depth (fun h t ht _ _ _ hv =>
    h.visit (fun name named hn => ⟨hlibrary name named hn, hsmall name named hn⟩) ht hv)
    (Nat.lt_succ_self _) hbudget calls
  refine ⟨_, fun depth' hd => renderTokens_of_le hd _ _ _ hends, ?_⟩
  cases hr : renderTokens ((bound + 1) * (size + 1) + sizeOf t.tokens + 1) t.tokens
      (.root data types (some library)) calls with
  | ok out => exact .inl ⟨out, rfl⟩
  | error stop =>
    have hstray := Simulation.safety_root ht (by rintro l ⟨⟩; exact hl) types data _ calls hr
    cases stop with
    | depth => exact absurd hr hends
    | strayDefinition => exact absurd rfl hstray
    | disorder => exact .inr ⟨rfl, fun h => renderTokens_ne_disorder h _ _ _ _ _ hr⟩

/-- A page fills in a block of the template that it names, which names another. -/
theorem exists_output_of_ranked_page :
    ∃ t library, Template.Compiled t ∧ Library.Compiled library ∧
      ∃ depth, ∀ depth', depth ≤ depth' →
        renderTokens depth' t.tokens (.root (.map [("x", .text "<b>")]) Config.builtIn.types
          (some library)) [] = .ok ("&lt;b&gt;!", []) := by
  have compiled {source : String} {tokens : List Token}
      (h : Token.parse Config.builtIn.types source = .ok tokens) :
      Template.Compiled ⟨tokens, Config.builtIn.types⟩ :=
    ⟨_, source, Template.compile_eq_ok.mpr ⟨h, rfl⟩⟩
  have ht : Token.parse Config.builtIn.types "{{<p}}{{$b}}{{x}}{{/b}}{{/p}}" = .ok
      [.parentTag ⟨"p", false⟩ none [("b", [.variableTag (.plain "x")])]] := by cbv
  have hp : Token.parse Config.builtIn.types "{{$b}}-{{/b}}{{>q}}" = .ok
      [.blockTag "b" [.text "-"] none, .partialTag ⟨"q", false⟩ none] := by cbv
  have hq : Token.parse Config.builtIn.types "!" = .ok [.text "!"] := by cbv
  let library : Library := ⟨[
    ("p", ⟨[.blockTag "b" [.text "-"] none, .partialTag ⟨"q", false⟩ none], Config.builtIn.types⟩),
    ("q", ⟨[.text "!"], Config.builtIn.types⟩)], Config.builtIn.types⟩
  let rank (name : String) : ℕ := if name = "p" then 1 else 0
  have hl : library.Compiled :=
    List.forall_mem_cons.mpr ⟨compiled hp, List.forall_mem_singleton.mpr (compiled hq)⟩
  have hd : (Value.map [("x", .text "<b>")]).Everywhere Value.NotLambda :=
    Value.everywhere_map (by simp [Value.NotLambda])
      (List.forall_mem_singleton.mpr (Value.everywhere_text (by simp [Value.NotLambda])))
  have hx : Token.Everywhere Token.Plain [.variableTag (.plain "x")] :=
    Token.everywhere_iff.mpr (List.forall_mem_singleton.mpr
      (Token.throughout_of_bodies_nil rfl ⟨rfl, by simp⟩))
  have ranked {t : Token} {bound : ℕ} (h : t.target? = none) : t.Ranked library rank bound :=
    ⟨by simp [h], by simp [h], by simp [Token.overrides_eq_nil h]⟩
  have text (content : String) {bound : ℕ} :
      Token.Everywhere (Token.Ranked library rank bound) [.text content] :=
    Token.everywhere_iff.mpr (List.forall_mem_singleton.mpr
      (Token.throughout_of_bodies_nil rfl (ranked rfl)))
  have htemplate : Token.Everywhere (Token.Ranked library rank 2)
      [.parentTag ⟨"p", false⟩ none [("b", [.variableTag (.plain "x")])]] := by
    refine Token.everywhere_iff.mpr (List.forall_mem_singleton.mpr ⟨?_, ?_⟩)
    · exact ⟨by simp [Token.target?], by simp [Token.target?, rank],
        List.forall_mem_singleton.mpr hx⟩
    · exact List.forall_mem_singleton.mpr fun t ho => ranked (hx t ho).1
  have hlibrary : ∀ name named, library.find? name = some named →
      Token.Everywhere (Token.Ranked library rank (rank name)) named.tokens := by
    intro name named hn
    obtain ⟨rfl, rfl⟩ | ⟨rfl, rfl⟩ : name = "p" ∧ _ ∨ name = "q" ∧ _ := by
      simpa [library] using Entries.mem_of_lookup hn
    · refine Token.everywhere_cons.mpr ⟨?_, Token.everywhere_iff.mpr ?_⟩
      · exact Token.throughout_of_bodies_singleton rfl (ranked rfl) (text "-")
      · exact List.forall_mem_singleton.mpr (Token.throughout_of_bodies_nil rfl
          ⟨by simp [Token.target?], by simp [Token.target?, rank], by simp [Token.overrides]⟩)
    · exact text "!"
  obtain ⟨depth, h⟩ := exists_output_of_ranked hl (compiled ht) hlibrary htemplate
  obtain ⟨r, h, -⟩ := h _ hd Config.builtIn.types []
  refine ⟨_, library, compiled ht, hl, depth, fun depth' hdepth => ?_⟩
  have hfour : renderTokens 4 [.parentTag ⟨"p", false⟩ none [("b", [.variableTag (.plain "x")])]]
      (.root (.map [("x", .text "<b>")]) Config.builtIn.types (some library)) [] =
        .ok ("&lt;b&gt;!", []) := rfl
  have hmax := renderTokens_of_le (le_max_right depth' 4) _ _ _ (by rw [hfour]; simp)
  rw [h depth' hdepth, ← h _ (hdepth.trans (le_max_left depth' 4)), hmax, hfour]

/-- **Data need not have an output**: a sequence is found out of order, and the template names no
other. -/
theorem exists_output_of_ranked_interleaved :
    ∃ t, Template.compile Config.builtIn.types "{{sorted(x)}}" = .ok t ∧
      Token.Everywhere (Token.Ranked (.empty Config.builtIn.types) (fun _ => 0) 0) t.tokens ∧
      ∃ data : Value, data.Everywhere Value.NotLambda ∧ ∀ depth, 0 < depth →
        renderTokens depth t.tokens (.root data Config.builtIn.types
          (some (.empty Config.builtIn.types))) [] = .error .disorder := by
  have hp : Token.parse Config.builtIn.types "{{sorted(x)}}" =
      .ok [.variableTag ⟨"x", ["sorted"]⟩] := by cbv
  refine ⟨⟨_, Config.builtIn.types⟩, Template.compile_eq_ok.mpr ⟨hp, rfl⟩, ?_,
    .map [("x", .sequence Transform.interleaved)], ?_, fun depth hd => ?_⟩
  · refine Token.everywhere_iff.mpr (List.forall_mem_singleton.mpr ?_)
    exact Token.throughout_of_bodies_nil rfl
      ⟨by simp [Token.target?], by simp [Token.target?], by simp [Token.overrides]⟩
  · have hnull : Value.null.Everywhere Value.NotLambda :=
      Value.everywhere_of_no_part (by simp [Value.NotLambda]) fun _ hu => by cases hu
    have hitems : ∀ v ∈ Transform.interleaved, v.Everywhere Value.NotLambda := by
      simp [Transform.interleaved, hnull, Value.stable_notLambda.everywhere_int]
    exact Value.everywhere_map (by simp [Value.NotLambda]) (List.forall_mem_singleton.mpr
      (Value.everywhere_sequence (by simp [Value.NotLambda]) hitems))
  · obtain ⟨depth, rfl⟩ := Nat.exists_eq_succ_of_ne_zero hd.ne'
    have hchain : Transform.chain? (.sequence Transform.interleaved) ["sorted"] = .disorder := by
      rw [Transform.chain?, Transform.result?_of_sort?, Transform.sort?_interleaved]
      rfl
    have hname : resolveName (.root (.map [("x", .sequence Transform.interleaved)])
        Config.builtIn.types (some (.empty Config.builtIn.types))) ⟨"x", ["sorted"]⟩ [] =
          (some (.sequence Transform.interleaved), []) := rfl
    simp only [renderTokens, renderAll, renderToken, renderVariable, resolve, hname, hchain]

end Mustache
