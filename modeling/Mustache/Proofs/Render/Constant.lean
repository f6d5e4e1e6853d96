import Mathlib
import Mustache.Config.Basic
import Mustache.Proofs.Render.Names
import Mustache.Proofs.Render.Sections
import Mustache.Proofs.Render.Steady

/-!
# Constant lambdas

A lambda that ignores what it is called with and answers with a value stands for that value, and so
does a lambda that answers with such a lambda. Variables, sections and dotted names follow lambdas
each on their own, and all of them to the end.

* `Value.constant`: constant lambdas in one another; `Calls.bumpAll`: one more call of each;
* `settle_constant`, `child?_constant`, `descend_constant`: what follows the lambdas comes to the
  value;
* `Value.Labelled`: one number, one lambda; `Everywhere.steady_of_constant`: then it does not matter
  how often the constant lambdas have been called;
* `renderVariable_text`; **`renders_constant`**.
-/

namespace Mustache

open Calls

/-! ## Lambdas in one another -/

/-- One more call of each of the lambdas. -/
def Calls.bumpAll (calls : Calls) (numbers : List Nat) : Calls := numbers.foldl bump calls

theorem Calls.EqualBut.bumpAll (numbers : List Nat) (calls : Calls) :
    EqualBut (· ∈ numbers) calls (calls.bumpAll numbers) := by
  intro n hn
  induction numbers generalizing calls with
  | nil => rfl
  | cons number numbers ih =>
    obtain ⟨hnumber, hnumbers⟩ := not_or.mp (mt List.mem_cons.mpr hn)
    show ((calls.bump number).bumpAll numbers).count n = calls.count n
    rw [ih (calls.bump number) hnumbers, count_bump, if_neg hnumber]

namespace Value

/-- Lambdas of these numbers, the outermost first, that ignore what they are called with. Each
answers with the next, and the innermost with the value. -/
def constant (v : Value) : List Nat → Value
  | [] => v
  | number :: numbers => .lambda number fun _ _ => v.constant numbers

section

variable (v : Value) (numbers : List Nat) (calls : Calls)

theorem settle_constant (hv : v.NotLambda) (input : String) :
    (v.constant numbers).settle input calls = (v, calls.bumpAll numbers) := by
  induction numbers generalizing calls with
  | nil => exact hv.settle input calls
  | cons number numbers ih =>
    rw [constant, settle]
    exact ih (calls.bump number)

theorem child?_constant (name : String) :
    (v.constant numbers).child? name calls = v.child? name (calls.bumpAll numbers) := by
  induction numbers generalizing calls with
  | nil => rfl
  | cons number numbers ih =>
    rw [constant, child?]
    exact ih (calls.bump number)

theorem descend_constant {names : List String} (hn : names ≠ []) :
    descend names (v.constant numbers) calls = descend names v (calls.bumpAll numbers) := by
  obtain ⟨name, names, rfl⟩ := List.exists_cons_of_ne_nil hn
  rw [descend, descend, child?_constant]

end

/-! ## One number, one lambda -/

/-- If the value is a lambda, it is the one of its number. -/
def Labelled (table : Nat → Nat → String → Value) (v : Value) : Prop :=
  ∀ number answer, v = .lambda number answer → answer = table number

theorem stable_labelled (table : Nat → Nat → String → Value) : Stable (Labelled table) where
  bool _ := nofun
  int _ := nofun
  float _ := nofun
  reversed _ := nofun
  sorted _ _ := nofun
  enumerated _ := nofun
  text _ _ := nofun
  key _ _ := nofun
  entry _ _ := nofun

section

variable {table : Nat → Nat → String → Value} {u v : Value} {numbers : List Nat}

theorem Everywhere.of_constant (h : (v.constant numbers).Everywhere (Labelled table)) :
    v.Everywhere (Labelled table) := by
  induction numbers with
  | nil => exact h
  | cons number numbers ih =>
    exact ih (h.part (.answer number (fun _ _ => v.constant numbers) 0 ""))

theorem table_of_constant (h : (v.constant numbers).Everywhere (Labelled table)) {number : Nat}
    (hn : number ∈ numbers) : ∃ inner, table number = fun _ _ => inner := by
  induction numbers with
  | nil => nomatch hn
  | cons first numbers ih =>
    obtain rfl | hn := List.mem_cons.mp hn
    · exact ⟨v.constant numbers, (h.here _ _ rfl).symm⟩
    · exact ih (h.part (.answer first (fun _ _ => v.constant numbers) 0 "")) hn

/-- Wherever they occur, the constant lambdas do not count their calls. -/
theorem Everywhere.steady_of_constant (h : (v.constant numbers).Everywhere (Labelled table))
    (hu : u.Everywhere (Labelled table)) : u.Everywhere (Steady (· ∈ numbers)) := by
  rintro w hw number answer rfl hn n input
  obtain ⟨inner, hinner⟩ := table_of_constant h hn
  rw [hu _ hw number answer rfl, hinner]

end

end Value

/-! ## Tokens -/

/-- What a variable writes: the value that its expression resolves to, or that a lambda answers with
in the end. -/
theorem renderVariable_text {c : Context} {e : Expression} {calls after last : Calls}
    {found v : Value} (hr : resolve c e calls = (.value found, after))
    (hs : found.settle "" after = (v, last)) (write : String → String) :
    (renderVariable write e c calls).text = .ok (if v.isNull then "" else write v.render) := by
  rw [renderVariable, hr]
  dsimp only
  rw [hs]
  rfl

section

variable {table : Nat → Nat → String → Value} {c : Context}
  (hc : ∀ u ∈ c.top :: c.below, u.Everywhere (Value.Labelled table)) {v : Value}
  {numbers : List Nat} {name : String} {calls after after' : Calls}
  (hr : resolve c (.plain name) calls = (.value (v.constant numbers), after))

include hr

section

variable {c' : Context} {calls' : Calls}

/-- A variable writes the value. -/
theorem renderVariable_constant (hv : v.NotLambda) {e : Expression}
    (hr' : resolve c' e calls' = (.value v, after')) (write : String → String) :
    (renderVariable write (.plain name) c calls).text =
      (renderVariable write e c' calls').text := by
  rw [renderVariable_text hr (v.settle_constant numbers after hv ""),
    renderVariable_text hr' (hv.settle "" after')]

include hc

/-- Neither the context nor the value has a lambda of the numbers that counts its calls. -/
theorem steady_of_constant :
    c.Steady (· ∈ numbers) ∧ v.Everywhere (Value.Steady (· ∈ numbers)) := by
  have hlambdas : (v.constant numbers).Everywhere (Value.Labelled table) :=
    (Value.stable_labelled table).resolve hc (congrArg Prod.fst hr)
  exact ⟨fun u hu => hlambdas.steady_of_constant (hc u hu),
    hlambdas.steady_of_constant hlambdas.of_constant⟩

/-- A longer name resolves to what it finds within the value. -/
theorem resolve_constant {name' : String}
    (hr' : resolve c' (.plain name') calls' = (.value v, after'))
    (hk : EqualBut (· ∈ numbers) after after') (hn : name ≠ "") (hn' : name' ≠ "") {path : String}
    (hp : path ≠ "") (transforms : List String) :
    (resolve c ⟨nestedName name path, transforms⟩ calls).1 =
      (resolve c' ⟨nestedName name' path, transforms⟩ calls').1 := by
  have hcalled := (EqualBut.bumpAll numbers after).symm.trans hk
  obtain ⟨found, last, last', h, h', -⟩ :=
    Value.Steady.descend (steady_of_constant hc hr).2 hcalled
  rw [resolve_nestedName hn hp, resolve_nestedName hn' hp, resolve_plain_eq_value.mp hr,
    resolve_plain_eq_value.mp hr', descendFrom, descendFrom,
    v.descend_constant numbers after (segments_ne_nil path.toList), h, h']
  rfl

end

include hc

/-- Sections do what they do with the value. -/
theorem renderSections_constant (hv : v.NotLambda) (ht : v.text? = none)
    (hk : EqualBut (· ∈ numbers) after after') (depth : Nat) (source : Source) (body : List Token) :
    (renderSection (renderTokens depth) (.plain name) source body c calls).text =
        (renderPresent (renderTokens depth) v body c after').text ∧
      (renderInverted (renderTokens depth) (.plain name) source body c calls).text =
        (renderAbsent (renderTokens depth) v body c after').text := by
  have hcalled := hk.symm.trans (EqualBut.bumpAll numbers after)
  have hsettle := v.settle_constant numbers after hv source.raw
  have hyields : c.Yields (.plain name) source v := ⟨calls, _, after, hr, congrArg Prod.fst hsettle⟩
  have compose := Rendered.Same.composes (EqualBut (· ∈ numbers))
  have hbody {t : Token} {tokens : List Token} {c' : Context} (h : t.Visits c tokens c')
      {calls calls' : Calls} (hk : EqualBut (· ∈ numbers) calls calls') :=
    renderTokens_steady (h.steady (steady_of_constant hc hr).1) depth tokens hk
  obtain ⟨hpresent, habsent⟩ := renderSections_of_settle hr hsettle
    (fun _ _ _ _ => by rintro rfl; nomatch ht) (renderTokens depth) body
  rw [hpresent, habsent]
  exact ⟨(renderPresent_lift compose hbody hyields hcalled).text_eq, (renderAbsent_lift compose
    (hbody (t := .invertedTag (.plain name) source body)) v hcalled).text_eq⟩

/-- **Constant lambdas are followed to the end**, however many they are. Let a name resolve to
lambdas in one another that ignore what they are called with, the innermost of which answers with a
value that is no lambda. A variable writes what it writes wherever an expression resolves to the
value; a longer name resolves to what it resolves to wherever a name resolves to the value; and if
the value is no text, a section and an inverted section do what they do with the value, and with
every expression that resolves to it. Two lambdas of one number are the same lambda. -/
theorem renders_constant (hv : v.NotLambda) :
    (∀ {c' e calls' after'}, resolve c' e calls' = (.value v, after') → ∀ go go',
      (c'.contentType = c.contentType →
        (renderToken go c (.variableTag (.plain name)) calls).text =
          (renderToken go' c' (.variableTag e) calls').text) ∧
      (renderToken go c (.verbatimTag (.plain name)) calls).text =
        (renderToken go' c' (.verbatimTag e) calls').text) ∧
    (∀ {c' name' calls' after'}, resolve c' (.plain name') calls' = (.value v, after') →
      EqualBut (· ∈ numbers) after after' → name ≠ "" → name' ≠ "" → ∀ path, path ≠ "" →
        ∀ transforms, (resolve c ⟨nestedName name path, transforms⟩ calls).1 =
          (resolve c' ⟨nestedName name' path, transforms⟩ calls').1) ∧
    (v.text? = none → ∀ depth source body,
      ((renderToken (renderTokens depth) c (.sectionTag (.plain name) source body) calls).text =
          (renderPresent (renderTokens depth) v body c after).text ∧
        (renderToken (renderTokens depth) c (.invertedTag (.plain name) source body) calls).text =
          (renderAbsent (renderTokens depth) v body c after).text) ∧
      ∀ {e calls' after'}, resolve c e calls' = (.value v, after') →
        EqualBut (· ∈ numbers) after after' →
        (renderToken (renderTokens depth) c (.sectionTag (.plain name) source body) calls).text =
            (renderToken (renderTokens depth) c (.sectionTag e source body) calls').text ∧
          (renderToken (renderTokens depth) c (.invertedTag (.plain name) source body) calls).text =
            (renderToken (renderTokens depth) c (.invertedTag e source body) calls').text) := by
  simp only [renderToken]
  refine ⟨fun {c' e calls' after'} hr' go go' => ⟨fun htype => ?_, ?_⟩, ?_, ?_⟩
  · rw [htype]
    exact renderVariable_constant hr hv hr' c.contentType.escape
  · exact renderVariable_constant hr hv hr' id
  · intro c' name' calls' after' hr' hk hn hn' path hp transforms
    exact resolve_constant hc hr hr' hk hn hn' hp transforms
  · intro ht depth source body
    refine ⟨renderSections_constant hc hr hv ht (.refl _ after) depth source body, ?_⟩
    intro e calls' after' hr' hk
    obtain ⟨hpresent, habsent⟩ := renderSections_of_resolve hr' hv (renderTokens depth) body
    rw [hpresent, habsent]
    exact renderSections_constant hc hr hv ht hk depth source body

end

/-- A host object behind two lambdas, beside the same object. -/
theorem renders_constant_object :
    ∃ (table : Nat → Nat → String → Value) (c : Context) (v : Value),
      (∀ u ∈ c.top :: c.below, u.Everywhere (Value.Labelled table)) ∧ v.NotLambda ∧
        resolve c (.plain "a") [] = (.value (v.constant [0, 1]), []) ∧
        (renderToken (renderTokens 1) c (.variableTag (.plain "a")) []).text = .ok "&lt;" ∧
        (resolve c ⟨nestedName "a" "x", []⟩ []).1 = .value (.text "1") ∧
        (renderToken (renderTokens 1) c (.sectionTag (.plain "a") ⟨"", .standard⟩
          [.verbatimTag (.plain "x")]) []).text = .ok "1" := by
  obtain ⟨v, hv⟩ : ∃ v : Value, v = .object 0 ⟨some "<", false⟩ (fun _ => some (.text "1"))
      (fun _ => none) (fun _ => none) := ⟨_, rfl⟩
  obtain ⟨c, hc⟩ : ∃ c : Context,
      c = .root (.map [("a", v.constant [0, 1]), ("b", v)]) Config.builtIn.types none := ⟨_, rfl⟩
  obtain ⟨table, ht⟩ : ∃ table : Nat → Nat → String → Value,
      table = fun number _ _ => if number = 0 then v.constant [1] else v := ⟨_, rfl⟩
  have hobject : v.Everywhere (Value.Labelled table) := by
    refine Value.everywhere_iff.mpr ⟨by rw [hv]; nofun, fun u hu => ?_⟩
    rw [hv] at hu
    cases hu with
    | child h =>
      cases h
      exact Value.everywhere_text nofun
    | property h | transform h => nomatch h
  have hlambda {number : Nat} {inner : Value} (hinner : inner.Everywhere (Value.Labelled table))
      (hn : table number = fun _ _ => inner) :
      (Value.lambda number fun _ _ => inner).Everywhere (Value.Labelled table) := by
    refine Value.everywhere_iff.mpr ⟨?_, fun u hu => ?_⟩
    · rintro _ _ ⟨⟩
      exact hn.symm
    · cases hu with
      | answer => exact hinner
  have hlambdas : (v.constant [0, 1]).Everywhere (Value.Labelled table) :=
    hlambda (hlambda hobject (by rw [ht]; rfl)) (by rw [ht]; rfl)
  have hdata : ∀ u ∈ c.top :: c.below, u.Everywhere (Value.Labelled table) := by
    rw [hc]
    exact List.forall_mem_singleton.mpr (Value.everywhere_map nofun
      (List.forall_mem_cons.mpr ⟨hlambdas, List.forall_mem_singleton.mpr hobject⟩))
  have hnever : v.NotLambda := by
    rw [hv]
    nofun
  have ha : resolve c (.plain "a") [] = (.value (v.constant [0, 1]), []) := by
    rw [hc]
    rfl
  have hb : resolve c (.plain "b") [] = (.value v, []) := by
    rw [hc]
    rfl
  obtain ⟨htags, hnames, hsections⟩ := renders_constant hdata ha hnever
  refine ⟨table, c, v, hdata, hnever, ha, ?_, ?_, ?_⟩
  · rw [(htags hb (renderTokens 1) (renderTokens 1)).1 rfl, hc, hv]
    rfl
  · rw [hnames hb (.refl _ _) (by decide) (by decide) "x" (by decide), hc, hv]
    rfl
  · rw [((hsections (by rw [hv]; rfl) 1 ⟨"", .standard⟩ [.verbatimTag (.plain "x")]).2 hb
      (.refl _ _)).1, hc, hv]
    rfl

end Mustache
