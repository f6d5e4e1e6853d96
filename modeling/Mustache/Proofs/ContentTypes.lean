import Mustache.Config.Basic

/-!
# Registries of content types after changes

The default of a registry is one of its types, whatever is done to the registry: types are added or
replaced, and the default is set to another one or, if that is unknown, left as it is.

* `ContentTypes.Change`: a change that can be asked for; `change`, `changeAll`;
* `setDefault_of_contains`, `setDefault_of_not_contains`: the default that is asked for, and the
  one there is;
* `types_changeAll`, **`find?_changeAll`**, `contains_changeAll`: the types after changes in order.
-/

namespace Mustache.ContentTypes

/-- A change of a registry. -/
inductive Change where
  | register (id : String) (type : ContentType)
  | setDefault (id : String)

/-- The type that a change adds. -/
def Change.added? : Change → Option (String × ContentType)
  | register id type => some (id, type)
  | setDefault _ => none

/-- The registry after a change, whatever comes of it. -/
def change (t : ContentTypes) : Change → ContentTypes
  | .register id type => t.register id type
  | .setDefault id => (t.setDefault id).2

/-- The registry after several changes. -/
def changeAll (t : ContentTypes) (changes : List Change) : ContentTypes := changes.foldl change t

variable {t : ContentTypes} {id : String}

/-- The default is found. -/
theorem find?_defaultId (t : ContentTypes) : t.find? t.defaultId = some t.defaultType :=
  (Option.some_get _).symm

/-! ## The default -/

theorem setDefault_of_contains (h : t.contains id = true) :
    t.setDefault id = (.ok (), ⟨t.types, id, h⟩) :=
  dif_pos h

/-- A default that is not there is refused and changes nothing. -/
theorem setDefault_of_not_contains (h : t.contains id = false) :
    t.setDefault id = (.error (.unknownDefault id), t) :=
  dif_neg (Bool.eq_false_iff.mp h)

/-! ## The types -/

theorem types_change (t : ContentTypes) (c : Change) :
    (t.change c).types = Entries.putAll c.added?.toList t.types := by
  cases c with
  | register id type => rfl
  | setDefault id =>
    cases h : t.contains id with
    | true => rw [change, setDefault_of_contains h]; rfl
    | false => rw [change, setDefault_of_not_contains h]; rfl

theorem types_changeAll (t : ContentTypes) (changes : List Change) :
    (t.changeAll changes).types = Entries.putAll (changes.filterMap Change.added?) t.types := by
  induction changes generalizing t with
  | nil => rfl
  | cons c changes ih =>
    show ((t.change c).changeAll changes).types = _
    rw [ih, types_change]
    cases h : c.added? <;> simp [h, Entries.putAll]

/-- **Under each id there is the type that was registered last**, or else the one there was. -/
theorem find?_changeAll (t : ContentTypes) (changes : List Change) (id : String) :
    (t.changeAll changes).find? id =
      ((changes.filterMap Change.added?).reverse.lookup id).or (t.find? id) := by
  rw [find?, types_changeAll]
  exact Entries.lookup_putAll _ _ _

/-- No type disappears. -/
theorem contains_changeAll (changes : List Change) (h : t.contains id = true) :
    (t.changeAll changes).contains id = true := by
  have hfind := t.find?_changeAll changes id
  have h : (t.find? id).isSome = true := h
  show ((t.changeAll changes).find? id).isSome = true
  rw [hfind, Option.isSome_or, h, Bool.or_true]

end Mustache.ContentTypes
