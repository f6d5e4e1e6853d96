/-!
# What is found

Looking for a value, or applying a transform to it, finds a value or nothing. While values are
sorted it may also turn out that their comparison is no order at all, which ends everything.

* `Found`, `Found.ofOption`, `Found.toOption`, `Found.map`, `Found.bind`, with what makes them a
  value or disorder;
* `Found.Rel`: related values found, or the same lack of one.
-/

namespace Mustache

/-- A value, none, or the discovery that the comparison of values is no order. -/
inductive Found (α : Type) where
  | value (a : α)
  | miss
  | disorder
  deriving DecidableEq, Repr

namespace Found

variable {α β : Type}

instance : Membership α (Found α) := ⟨fun found a => found = value a⟩

/-- A value, if there is one. -/
def ofOption : Option α → Found α
  | some a => value a
  | none => miss

/-- The value that is found, if one is. -/
def toOption : Found α → Option α
  | value a => some a
  | miss | disorder => none

/-- What is made of a value, if one is found. -/
def map (f : α → β) : Found α → Found β
  | value a => value (f a)
  | miss => miss
  | disorder => disorder

/-- What is found by way of a value, if one is found. -/
def bind (found : Found α) (f : α → Found β) : Found β :=
  match found with
  | value a => f a
  | miss => miss
  | disorder => disorder

/-- The same, or related values. -/
inductive Rel (R : α → β → Prop) : Found α → Found β → Prop
  | value {a : α} {b : β} (h : R a b) : Rel R (value a) (value b)
  | miss : Rel R miss miss
  | disorder : Rel R disorder disorder

variable {o : Option α} {found : Found α} {f : α → β} {g : α → Found β} {a : α} {b : β}

@[simp] theorem ofOption_eq_value : ofOption o = value a ↔ o = some a := by
  cases o <;> simp [ofOption]

@[simp] theorem ofOption_ne_disorder : ofOption o ≠ disorder := by
  cases o <;> simp [ofOption]

@[simp] theorem map_eq_value : found.map f = value b ↔ ∃ a, found = value a ∧ f a = b := by
  cases found <;> simp [map]

@[simp] theorem map_eq_disorder : found.map f = disorder ↔ found = disorder := by
  cases found <;> simp [map]

@[simp] theorem bind_eq_value : found.bind g = value b ↔ ∃ a, found = value a ∧ g a = value b := by
  cases found <;> simp [bind]

@[simp] theorem bind_eq_disorder :
    found.bind g = disorder ↔ found = disorder ∨ ∃ a, found = value a ∧ g a = disorder := by
  cases found <;> simp [bind]

end Found

end Mustache
