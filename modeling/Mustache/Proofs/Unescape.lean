import Mustache.Proofs.Render.Markup

/-!
# Reading escaped markup back

Escaping markup loses nothing: an escaped text has no marks but those that begin an entity, and with
each entity replaced by its mark, from left to right, it is the text again. What looks like an
entity in the text itself is no exception, since its `&` is escaped as well.

* `Markup.entity?`: the mark of the entity at the front of a text, and what follows;
* `Markup.unescape`: a text with its entities replaced;
* `entity?_of_mark`, `entity?_of_other`: what is found where an escaped character starts;
* **`unescape_escape`**, **`escape_markup`**.
-/

namespace Mustache.Markup

/-- The mark whose entity is at the front of a text, and the text behind the entity. -/
def entity? (cs : List Char) : Option (Char × List Char) :=
  EscapeTable.markup.findSome? fun (mark, entity) => (Text.after? entity.toList cs).map (mark, ·)

theorem length_le_of_entity? {c mark : Char} {cs rest : List Char}
    (h : entity? (c :: cs) = some (mark, rest)) : rest.length ≤ cs.length := by
  obtain ⟨⟨m, entity⟩, he, h⟩ := List.exists_of_findSome?_eq_some h
  obtain ⟨behind, hafter, hpair⟩ := Option.map_eq_some_iff.mp h
  cases hpair
  have hne : ∀ e ∈ EscapeTable.markup, 0 < e.2.toList.length := by decide
  have hlength := congrArg List.length (Text.after?_eq_some.mp hafter)
  rw [List.length_append, List.length_cons] at hlength
  have hpos : 0 < entity.toList.length := hne _ he
  omega

/-- The text with its entities replaced by their marks, from left to right. -/
def unescape : List Char → List Char
  | [] => []
  | c :: cs =>
    match h : entity? (c :: cs) with
    | some (mark, rest) =>
      have := length_le_of_entity? h
      mark :: unescape rest
    | none => c :: unescape cs
  termination_by cs => cs.length

theorem unescape_of_some {cs rest : List Char} {mark : Char}
    (h : entity? cs = some (mark, rest)) : unescape cs = mark :: unescape rest := by
  cases cs with
  | nil => nomatch h
  | cons c cs =>
    rw [unescape]
    split
    · rename_i h'
      cases h'.symm.trans h
      rfl
    · rename_i h'
      nomatch h'.symm.trans h

theorem unescape_of_none {c : Char} {cs : List Char} (h : entity? (c :: cs) = none) :
    unescape (c :: cs) = c :: unescape cs := by
  rw [unescape]
  split
  · rename_i h'
    nomatch h'.symm.trans h
  · rfl

/-! ## Escaped characters -/

/-- A mark is escaped as its own entity. -/
theorem entity?_of_mark {c : Char} (hc : c ∈ marks) (rest : List Char) :
    entity? (EscapeTable.markup.replace c ++ rest) = some (c, rest) := by
  have found : ∀ c ∈ marks, entity? (EscapeTable.markup.replace c ++ rest) = some (c, rest) := by
    simp only [marks, List.forall_mem_cons]
    exact ⟨rfl, rfl, rfl, rfl, rfl, List.forall_mem_nil _⟩
  exact found c hc

/-- No entity starts with another character. -/
theorem entity?_of_other {c : Char} (hc : c ≠ '&') (rest : List Char) :
    entity? (c :: rest) = none := by
  have first : ∀ e ∈ EscapeTable.markup, e.2.toList.head? = some '&' := by decide
  refine List.findSome?_eq_none_iff.mpr fun e he => Option.map_eq_none_iff.mpr ?_
  rw [Text.after?_eq_none]
  rintro ⟨behind, h⟩
  have hhead := first e he
  cases hl : e.2.toList with
  | nil => rw [hl] at hhead; nomatch hhead
  | cons x more =>
    rw [hl] at hhead h
    cases hhead
    exact hc (List.cons.inj h).1.symm

theorem unescape_replace (c : Char) (rest : List Char) :
    unescape (EscapeTable.markup.replace c ++ rest) = c :: unescape rest := by
  by_cases hc : c ∈ marks
  · exact unescape_of_some (entity?_of_mark hc rest)
  · have hne : c ≠ '&' := fun e => hc (e ▸ by decide)
    rw [replace_of_not_mem hc, List.singleton_append, unescape_of_none (entity?_of_other hne rest)]

/-! ## Escaped texts -/

/-- **Escaping loses nothing.** -/
theorem unescape_escape (s : String) :
    unescape (EscapeTable.markup.escape s).toList = s.toList := by
  rw [EscapeTable.escape, String.toList_ofList]
  induction s.toList with
  | nil => rw [List.flatMap_nil, unescape]
  | cons c cs ih => rw [List.flatMap_cons, unescape_replace, ih]

/-- **Markup is escaped safely and without loss** by the content type that the built-in
configuration has for it: no mark is left but at the start of an entity, replacing the entities
gives the text back, and so two texts are never escaped alike. -/
theorem escape_markup :
    ∃ html, Config.builtIn.types.find? "HTML" = some html ∧
      (∀ s, Inert (html.escape s).toList) ∧
      (∀ s, unescape (html.escape s).toList = s.toList) ∧ Function.Injective html.escape := by
  refine ⟨EscapeTable.markup.contentType, rfl, inert_escape, unescape_escape, fun s t h => ?_⟩
  have h : (EscapeTable.markup.escape s).toList = (EscapeTable.markup.escape t).toList :=
    congrArg String.toList h
  rw [← String.toList_inj, ← unescape_escape s, ← unescape_escape t, h]

end Mustache.Markup
