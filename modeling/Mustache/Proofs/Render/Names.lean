import Mathlib.Tactic.SplitIfs
import Mustache.Render

/-!
# Dotted names

The first part of a dotted name is looked up in the objects of a context, and the others within what
was found. So a longer name finds what its end finds within what its front finds.

* `segments_ne_nil`, `segments_append`: the parts of a name, and of two with a dot between them;
* `descendFrom`, with `descend_append`; `transformed`, with `resolve_eq_transformed`;
* `resolveName_scoped`, `resolveName_climbing`;
* `nestedName`: a name within what another one finds; **`resolve_nestedName`**, `resolve_scoped`.
-/

namespace Mustache

/-! ## Parts -/

theorem Text.pieces_ne_nil (mark : Char) (text : List Char) : pieces mark text ≠ [] := by
  fun_cases Text.pieces mark text <;> nofun

/-- A mark ends a piece. -/
theorem Text.pieces_append (mark : Char) (front text : List Char) :
    pieces mark (front ++ mark :: text) = pieces mark front ++ pieces mark text := by
  induction front with
  | nil =>
    show pieces mark (mark :: text) = [] :: pieces mark text
    rw [pieces, if_pos rfl]
  | cons c front ih =>
    rw [List.cons_append, pieces, pieces, ih]
    by_cases hc : c = mark
    · rw [if_pos hc, if_pos hc, List.cons_append]
    · obtain ⟨piece, rest, h⟩ := List.exists_cons_of_ne_nil (pieces_ne_nil mark front)
      rw [if_neg hc, if_neg hc, h]
      rfl

theorem segments_ne_nil (name : List Char) : segments name ≠ [] := by
  simpa [segments] using Text.pieces_ne_nil '.' name

theorem segments_append (front name : List Char) :
    segments (front ++ '.' :: name) = segments front ++ segments name := by
  rw [segments, Text.pieces_append, List.map_append]
  rfl

/-! ## Names that are looked up -/

/-- Children of what was found, if something was. -/
def descendFrom (names : List String) : Option Value × Calls → Option Value × Calls
  | (some value, calls) => descend names value calls
  | (none, calls) => (none, calls)

theorem descend_append (front names : List String) (v : Value) (calls : Calls) :
    descend (front ++ names) v calls = descendFrom names (descend front v calls) := by
  induction front generalizing v calls with
  | nil => rfl
  | cons name front ih =>
    rw [List.cons_append, descend, descend]
    split
    · exact ih _ _
    · rfl

/-- Transforms of what was found. -/
def transformed (names : List String) (r : Option Value × Calls) : Found Value × Calls :=
  ((Found.ofOption r.1).bind (Transform.chain? · names), r.2)

theorem resolve_eq_transformed (c : Context) (e : Expression) (calls : Calls) :
    resolve c e calls = transformed e.transforms (resolveName c e calls) := by
  rw [resolve]
  split
  next h => rw [h]; rfl
  next h => rw [h]; rfl

section

variable {c : Context} {name : String} {transforms : List String} {calls : Calls}

/-- Without transforms an expression comes to what its name finds. -/
theorem resolve_plain : resolve c (.plain name) calls =
    (.ofOption (resolveName c (.plain name) calls).1, (resolveName c (.plain name) calls).2) := by
  rw [resolve_eq_transformed, transformed]
  cases (resolveName c (.plain name) calls).1 with
  | none => rfl
  | some v => rfl

theorem resolve_plain_eq_value {v : Value} {after : Calls} :
    resolve c (.plain name) calls = (.value v, after) ↔
      resolveName c (.plain name) calls = (some v, after) := by
  rw [resolve_plain]
  obtain ⟨found, last⟩ := resolveName c (.plain name) calls
  simp only [Prod.mk.injEq, Found.ofOption_eq_value]

/-- A name after a dot. -/
theorem resolveName_scoped {inner : List Char} (hn : name.toList = '.' :: inner)
    (hi : inner ≠ []) :
    resolveName c ⟨name, transforms⟩ calls = descend (segments inner) c.top calls := by
  have hdot : name ≠ "." := by
    rintro rfl
    exact hi (List.cons.inj hn).2.symm
  have hempty : name ≠ "" := by
    rintro rfl
    nomatch hn
  rw [resolveName, if_neg hdot, if_neg fun h => hempty h.1, hn]
  rfl

/-- A name that does not start with a dot. -/
theorem resolveName_climbing (hn : name ≠ "") (hd : name.toList.head? ≠ some '.') {first : String}
    {names : List String} (hs : segments name.toList = first :: names) :
    resolveName c ⟨name, transforms⟩ calls =
      descendFrom names (climb first (c.top :: c.below) calls) := by
  have hdot : name ≠ "." := by
    rintro rfl
    exact hd rfl
  rw [resolveName, if_neg hdot, if_neg fun h => hn h.1]
  split
  next inner h => exact absurd (by rw [h]; rfl) hd
  next => rw [hs]; rfl

end

/-! ## Longer names -/

/-- The name of what a path leads to within what a name finds, where `.` finds the current
object. -/
def nestedName (name path : String) : String :=
  if name = "." then "." ++ path else name ++ "." ++ path

/-- **A longer name** finds what its end finds within what its front finds. -/
theorem resolve_nestedName {name path : String} (hn : name ≠ "") (hp : path ≠ "")
    (transforms : List String) (c : Context) (calls : Calls) :
    resolve c ⟨nestedName name path, transforms⟩ calls =
      transformed transforms
        (descendFrom (segments path.toList) (resolveName c (.plain name) calls)) := by
  have hpath : path.toList ≠ [] := mt String.toList_eq_nil_iff.mp hp
  have hname : name.toList ≠ [] := mt String.toList_eq_nil_iff.mp hn
  rw [resolve_eq_transformed]
  refine congrArg (transformed transforms) ?_
  unfold nestedName
  split_ifs with hdot
  · subst hdot
    exact resolveName_scoped (String.toList_append ..) hpath
  have hnested : (name ++ "." ++ path).toList = name.toList ++ '.' :: path.toList := by
    simp [String.toList_append]
  obtain ⟨d, rest, hd⟩ := List.exists_cons_of_ne_nil hname
  by_cases hscoped : d = '.'
  · subst hscoped
    have hrest : rest ≠ [] := by
      rintro rfl
      exact hdot (String.toList_injective hd)
    rw [hd, List.cons_append] at hnested
    rw [resolveName_scoped hnested (by simp), Expression.plain, resolveName_scoped hd hrest,
      segments_append, descend_append]
  · obtain ⟨first, names, hs⟩ := List.exists_cons_of_ne_nil (segments_ne_nil name.toList)
    have hsegments : segments (name ++ "." ++ path).toList =
        first :: (names ++ segments path.toList) := by
      rw [hnested, segments_append, hs, List.cons_append]
    have hhead : name.toList.head? ≠ some '.' := by
      rw [hd]
      exact fun h => hscoped (Option.some.inj h)
    have hhead' : (name ++ "." ++ path).toList.head? ≠ some '.' := by
      rw [hnested, hd]
      exact fun h => hscoped (Option.some.inj h)
    have hne : name ++ "." ++ path ≠ "" := by
      intro h
      rw [h] at hsegments hnested
      simp at hnested
    rw [resolveName_climbing hne hhead' hsegments, Expression.plain,
      resolveName_climbing hn hhead hs]
    obtain ⟨found, after⟩ := climb first (c.top :: c.below) calls
    cases found with
    | none => rfl
    | some v => exact descend_append names _ v after

/-- A path after a dot is looked up within the current object. -/
theorem resolve_scoped {path : String} (hp : path ≠ "") (transforms : List String) (c : Context)
    (calls : Calls) :
    resolve c ⟨"." ++ path, transforms⟩ calls =
      transformed transforms (descend (segments path.toList) c.top calls) :=
  resolve_nestedName (by decide : "." ≠ "") hp transforms c calls

end Mustache
