import Mathlib
import Mustache.Config.Basic
import Mustache.Proofs.Render.Names
import Mustache.Proofs.Render.Simulation

/-!
# Data that no name looks up

What the data holds under a key has no influence on the output, if no expression looks the key up
first. The data as a whole can be entered again with `.`, so it may stand anywhere among the objects
of a context. All that can be told of it there is what its other names hold, unless a transform is
applied to it.

* `Expression.key?`: the name that is looked up in the objects of the context;
* `Expression.Avoids`, `Token.Avoids`;
* `Value.SameBut`: maps that hold the same under other names; `SameBut.climb`,
  **`SameBut.resolveName`**;
* `Simulation.unused`, `Simulation.unused_lawful`; **`renderTokens_unused`**.
-/

namespace Mustache

/-- The name that an expression looks up in the objects of the context. It does not look up any to
find the current object or the position. -/
def Expression.key? (e : Expression) : Option String :=
  if e.name = "." then none
  else if e.name = "" ∧ e.transforms ≠ [] then none
  else
    match e.name.toList with
    | '.' :: inner => (segments inner).head?
    | name => (segments name).head?

/-- The expression looks up another name than the key, and the current object is left as it is. -/
structure Expression.Avoids (key : String) (e : Expression) : Prop where
  key : e.key? ≠ some key
  current : e.name = "." → e.transforms = []

/-- The expression of the token avoids the key. -/
def Token.Avoids (key : String) (t : Token) : Prop := ∀ e ∈ t.expression?, e.Avoids key

namespace Value

/-- The same value, or maps that hold the same under all names but the key. -/
inductive SameBut (key : String) : Value → Value → Prop
  | same (v : Value) : SameBut key v v
  | map {entries entries' : List (String × Value)}
    (h : ∀ name, name ≠ key → entries'.lookup name = entries.lookup name) :
    SameBut key (.map entries) (.map entries')

namespace SameBut

variable {key name : String} {v v' : Value}

theorem render (h : SameBut key v v') : v'.render = v.render := by
  cases h with
  | same => rfl
  | map => simp only [Value.render]

theorem settle (h : SameBut key v v') (input : String) (calls : Calls) :
    (v'.settle input calls).2 = (v.settle input calls).2 ∧
      SameBut key (v.settle input calls).1 (v'.settle input calls).1 := by
  cases h with
  | same => exact ⟨rfl, .same _⟩
  | map h => exact ⟨rfl, .map h⟩

theorem child? (h : SameBut key v v') (hn : name ≠ key) (calls : Calls) :
    v'.child? name calls = v.child? name calls := by
  cases h with
  | same => rfl
  | map h => simp only [Value.child?, h name hn]

/-- Climbing for another name finds the same value. -/
theorem climb {objects objects' : List Value} (h : List.Forall₂ (SameBut key) objects objects')
    (hn : name ≠ key) (calls : Calls) :
    Mustache.climb name objects' calls = Mustache.climb name objects calls := by
  induction h generalizing calls with
  | nil => rfl
  | cons h _ ih => simp only [Mustache.climb, h.child? hn, ih]

/-- Descending by another name first finds the same value. -/
theorem descend (h : SameBut key v v') (hn : name ≠ key) (names : List String) (calls : Calls) :
    Mustache.descend (name :: names) v' calls = Mustache.descend (name :: names) v calls := by
  simp only [Mustache.descend, h.child? hn]

/-- **A name other than the key** is found alike, if it does not stand for the current object. -/
theorem resolveName {c c' : Context} {e : Expression} (htop : SameBut key c.top c'.top)
    (hbelow : List.Forall₂ (SameBut key) c.below c'.below) (hposition : c'.position = c.position)
    (he : e.key? ≠ some key) (hdot : e.name ≠ ".") (calls : Calls) :
    Mustache.resolveName c' e calls = Mustache.resolveName c e calls := by
  unfold Expression.key? at he
  unfold Mustache.resolveName
  rw [if_neg hdot] at he
  rw [if_neg hdot, if_neg hdot, hposition]
  split_ifs at he ⊢
  · rfl
  · generalize e.name.toList = name at he ⊢
    split
    · rename_i inner
      obtain ⟨first, names, hs⟩ := List.exists_cons_of_ne_nil (segments_ne_nil inner)
      rw [hs]
      exact htop.descend (fun hf => he (by simp [hs, hf])) names calls
    · obtain ⟨first, names, hs⟩ := List.exists_cons_of_ne_nil (segments_ne_nil name)
      rw [hs]
      have hn : first ≠ key := fun hf => he (by simp [hs, hf])
      simp only [climb (.cons htop hbelow) hn]

end SameBut

end Value

namespace Simulation

/-- Renderings that do not look up the key, of data without lambdas and of such that may hold
something else under the key. -/
def unused (key : String) : Simulation where
  token := Token.Avoids key
  value v v' := v.Everywhere Value.NotLambda ∧ v.SameBut key v'
  type _ := True
  indentation := Eq
  output := Eq
  stop _ := True

variable {key : String} {c c' : Context}

theorem unused_alike {v v' : Value} (h : (unused key).value v v') :
    Value.Alike (unused key).value v v' := by
  obtain ⟨hv, hs⟩ := h
  cases hs with
  | map => exact .map _ _
  | same =>
    refine .refl ?_
    rintro items rfl u hu
    exact ⟨hv.items u hu, .same u⟩

/-- What an expression resolves to is the same, or it is the current object. -/
theorem unused_resolve {e : Expression} (calls : Calls) (he : e.Avoids key)
    (h : (unused key).Alongside c c') :
    (resolve c' e calls).2 = (resolve c e calls).2 ∧
      Found.Rel (unused key).value (resolve c e calls).1 (resolve c' e calls).1 := by
  by_cases hdot : e.name = "."
  · have current (c : Context) : resolve c e calls = (.value c.top, calls) := by
      simp only [resolve, resolveName, if_pos hdot, he.current hdot, Transform.chain?]
    rw [current, current]
    exact ⟨rfl, .value h.top⟩
  · obtain ⟨hv, htop⟩ := h.top
    obtain ⟨hvs, hbelow⟩ := List.forall₂_and_left _ _ |>.mp h.below
    have hr : resolve c' e calls = resolve c e calls := by
      rw [resolve, resolve, htop.resolveName hbelow h.position he.key hdot]
    rw [hr]
    refine ⟨rfl, ?_⟩
    cases hu : (resolve c e calls).1 with
    | disorder => exact .disorder
    | miss => exact .miss
    | value u =>
      have hstack := List.forall_mem_cons.mpr ⟨hv, hvs⟩
      exact .value ⟨Value.stable_notLambda.resolve hstack hu, .same u⟩

theorem unused_lawful (key : String) : (unused key).Lawful where
  text _ := rfl
  variableTag _ _ hv := by rw [hv.2.render]; rfl
  verbatimTag _ hv := by rw [hv.2.render]; rfl
  empty := rfl
  append ho ht hi := by rw [ho, ht, hi]; rfl
  indentFirst _ ht := by rw [ht]; rfl
  join _ hi := by rw [hi]; rfl
  definitionTag _ := trivial
  depth := trivial
  disorder _ _ := trivial
  resolve calls ht he h := unused_resolve calls (ht _ he) h
  alike := unused_alike
  settle input calls hv :=
    have ⟨hc, hs⟩ := hv.2.settle input calls
    ⟨hc, hv.1.settle input calls, hs⟩
  reparse hv := absurd rfl (hv.1.here _ _)

end Simulation

/-- **What the data holds under an unused key** does not count. No expression looks the key up
first, neither in the template nor in the library, and none of them applies a transform to the
current object. Then data without lambdas, and data that differs under the key, have the same
rendering to every depth. -/
theorem renderTokens_unused {key : String} {tokens : List Token} {library : Option Library}
    (ht : Token.Everywhere (Token.Avoids key) tokens)
    (hl : ∀ l ∈ library, ∀ name t, l.find? name = some t →
      Token.Everywhere (Token.Avoids key) t.tokens)
    {entries entries' : List (String × Value)}
    (hd : (Value.map entries).Everywhere Value.NotLambda)
    (he : ∀ name, name ≠ key → entries'.lookup name = entries.lookup name)
    (depth : Nat) (types : ContentTypes) (calls : Calls) :
    renderTokens depth tokens (.root (.map entries') types library) calls =
      renderTokens depth tokens (.root (.map entries) types library) calls := by
  have h : (Simulation.unused key).Alongside (.root (.map entries) types library)
      (.root (.map entries') types library) :=
    Simulation.Alongside.root ⟨hd, .map he⟩ rfl trivial (fun _ _ _ _ => trivial)
      fun l name t hl' hn => hl l hl' name t hn
  exact (Simulation.renderTokens_agree (Simulation.unused_lawful key) depth tokens _ _ calls ht
    h).eq Eq.symm

/-- A lambda that nothing calls, beside the name of a template, where the data is entered again. -/
theorem renderTokens_unused_page :
    ∃ tokens, Token.parse Config.builtIn.types "{{#.}}{{a}}{{/.}}{{>*n}}" = .ok tokens ∧
      renderTokens 3 tokens (.root
        (.map (Entries.put "k" (.lambda 0 fun _ _ => .null) [("a", .text "1"), ("n", .text "p")]))
        Config.builtIn.types
        (some ⟨[("p", ⟨[.variableTag (.plain "a")], Config.builtIn.types⟩)],
          Config.builtIn.types⟩)) [] = .ok ("11", []) := by
  have hp : Token.parse Config.builtIn.types "{{#.}}{{a}}{{/.}}{{>*n}}" = .ok
      [.sectionTag (.plain ".") ⟨"{{a}}", .standard⟩ [.variableTag (.plain "a")],
        .partialTag ⟨"n", true⟩ none] := by cbv
  have avoids {t : Token} {name : String} (h : t.expression? = some (.plain name))
      (hn : (Expression.plain name).key? ≠ some "k") : t.Avoids "k" := by
    intro e he
    cases h.symm.trans he
    exact ⟨hn, fun _ => rfl⟩
  have ha : Token.Everywhere (Token.Avoids "k") [.variableTag (.plain "a")] :=
    Token.everywhere_iff.mpr (List.forall_mem_singleton.mpr
      (Token.throughout_of_bodies_nil rfl (avoids rfl (by decide))))
  have ht : Token.Everywhere (Token.Avoids "k")
      [.sectionTag (.plain ".") ⟨"{{a}}", .standard⟩ [.variableTag (.plain "a")],
        .partialTag ⟨"n", true⟩ none] :=
    Token.everywhere_cons.mpr
      ⟨Token.throughout_of_bodies_singleton rfl (avoids rfl (by decide)) ha,
        Token.everywhere_iff.mpr (List.forall_mem_singleton.mpr
          (Token.throughout_of_bodies_nil rfl (avoids rfl (by decide))))⟩
  have hd : (Value.map [("a", .text "1"), ("n", .text "p")]).Everywhere Value.NotLambda :=
    have text (s : String) : (Value.text s).Everywhere Value.NotLambda :=
      Value.everywhere_text (by simp [Value.NotLambda])
    Value.everywhere_map (by simp [Value.NotLambda])
      (List.forall_mem_cons.mpr ⟨text "1", List.forall_mem_singleton.mpr (text "p")⟩)
  refine ⟨_, hp, ?_⟩
  rw [renderTokens_unused ht ?_ hd fun _ hn => Entries.lookup_put_of_ne hn _ _]
  · rfl
  · rintro l ⟨⟩ name t hn
    obtain ⟨rfl, rfl⟩ : name = "p" ∧ t = _ := by simpa using Entries.mem_of_lookup hn
    exact ha

end Mustache
