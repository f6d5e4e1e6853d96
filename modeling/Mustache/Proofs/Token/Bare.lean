import Mustache.Proofs.Template.Step

/-!
# Tokens without their layout

Whether a tag stands alone decides about blank texts and indentations, and about where the text of
a section starts. Bare tokens have none of these.

* `Token.bare?`, `Token.bareAll`: tokens without blank texts, indentations and texts of sections;
* `bareAll_append`, `bareAll_reverse`, `bareAll_ofText`: token by token;
* **`Overrides.collect_bare`**: what fills in blocks can be collected from the bare tokens.
-/

namespace Mustache

namespace Token

mutual

/-- The token without its layout. A blank text is nothing but layout. -/
def bare? : Token → Option Token
  | .text content => if (Token.text content).isBlank then none else some (.text content)
  | .variableTag expr => some (.variableTag expr)
  | .verbatimTag expr => some (.verbatimTag expr)
  | .sectionTag expr source body => some (.sectionTag expr ⟨"", source.delimiters⟩ (bareAll body))
  | .invertedTag expr source body => some (.invertedTag expr ⟨"", source.delimiters⟩ (bareAll body))
  | .definitionTag name body => some (.definitionTag name (bareAll body))
  | .blockTag name default _ => some (.blockTag name (bareAll default) none)
  | .partialTag target _ => some (.partialTag target none)
  | .parentTag target _ overrides => some (.parentTag target none (bareEntries overrides))
  | .pragmaTag id => some (.pragmaTag id)

/-- **Tokens without their layout**: blank texts are dropped, indentations and the texts of
sections are forgotten, at any depth. -/
def bareAll : List Token → List Token
  | [] => []
  | t :: tokens =>
    match bare? t with
    | some t => t :: bareAll tokens
    | none => bareAll tokens

/-- What fills in blocks, without its layout. -/
def bareEntries : List (String × List Token) → List (String × List Token)
  | [] => []
  | (name, body) :: rest => (name, bareAll body) :: bareEntries rest

end

theorem bareAll_eq (tokens : List Token) : bareAll tokens = tokens.filterMap bare? := by
  induction tokens with
  | nil => rfl
  | cons t tokens ih =>
    rw [bareAll, List.filterMap_cons, ih]
    cases bare? t <;> rfl

theorem bareAll_append (tokens more : List Token) :
    bareAll (tokens ++ more) = bareAll tokens ++ bareAll more := by
  simp only [bareAll_eq, List.filterMap_append]

theorem bareAll_reverse (tokens : List Token) :
    bareAll tokens.reverse = (bareAll tokens).reverse := by
  simp only [bareAll_eq, List.filterMap_reverse]

/-- A blank text is nothing but layout, and any other text has none. -/
theorem bareAll_ofText (text : List Char) :
    bareAll (ofText text) = if text.all Text.isBlank then [] else [.text (String.ofList text)] := by
  by_cases he : text = []
  · rw [he]
    rfl
  · rw [ofText, if_neg (mt List.isEmpty_iff.mp he), bareAll, bare?, isBlank, String.toList_ofList]
    cases text.all Text.isBlank <;> rfl

theorem bareAll_ofText_blank {text : List Char} (h : ∀ c ∈ text, Text.isBlank c = true) :
    bareAll (ofText text) = [] := by
  rw [bareAll_ofText, List.all_eq_true.mpr h]
  rfl

theorem bareEntries_put (name : String) (body : List Token)
    (entries : List (String × List Token)) : bareEntries (Entries.put name body entries) =
      Entries.put name (bareAll body) (bareEntries entries) := by
  induction entries with
  | nil => rfl
  | cons e rest ih =>
    obtain ⟨k, v⟩ := e
    simp only [Entries.put, bareEntries]
    split_ifs
    · rfl
    · rw [bareEntries, ih]

end Token

namespace Overrides

open Token

/-- Steps that bare tokens take alike, taken one after the other. -/
theorem foldlM_bare {step : Overrides → Token → Option Overrides}
    (hstep : ∀ o t, (step o t).map bareEntries =
      match bare? t with
      | some t => step (bareEntries o) t
      | none => some (bareEntries o))
    (body : List Token) (o : Overrides) :
    (bareAll body).foldlM step (bareEntries o) = (body.foldlM step o).map bareEntries := by
  induction body generalizing o with
  | nil => rfl
  | cons t body ih =>
    have h := hstep o t
    rw [bareAll, List.foldlM_cons, Option.bind_eq_bind]
    cases hb : bare? t with
    | none =>
      rw [hb] at h
      obtain ⟨next, hn, he⟩ := Option.map_eq_some_iff.mp h
      rw [hn, Option.bind_some, ← ih next, he]
    | some bare =>
      rw [hb] at h
      dsimp only at h ⊢
      rw [List.foldlM_cons, Option.bind_eq_bind, ← h]
      cases step o t with
      | none => rfl
      | some next => exact ih next

/-- **What fills in blocks** is there in the bare tokens too. -/
theorem collect_bare (body : List Token) :
    collect? (bareAll body) = (collect? body).map bareEntries := by
  refine foldlM_bare (fun o t => ?_) body []
  cases t with
  | definitionTag name body =>
    show some (bareEntries (Entries.put name body o)) = _
    rw [bareEntries_put]
    rfl
  | text content =>
    rw [bare?]
    cases hb : (Token.text content).isBlank with
    | true => simp [hb]
    | false => simp [hb]
  | _ => rfl

end Overrides

end Mustache
