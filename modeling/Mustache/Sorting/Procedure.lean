/-!
# Procedures that compare

A way of sorting learns about items only by asking whether one is less than another, and what it
asks next depends on the answers so far. The answers may also be such as no order gives; a way of
sorting that notices this gives up.

* `Procedure`: what is asked, and what is made of each answer;
* **`Procedure.run`**: the result for a comparison under which some items have no order.
-/

namespace Mustache.Sorting

/-- A procedure that asks whether items are less than others, until it has a result or gives up. -/
inductive Procedure (α β : Type) where
  | done (result : β)
  | abort
  | ask (x y : α) (next : Bool → Procedure α β)

namespace Procedure

variable {α β γ : Type}

/-- A procedure, and another one that goes on with its result. -/
def bind (p : Procedure α β) (f : β → Procedure α γ) : Procedure α γ :=
  match p with
  | done result => f result
  | abort => abort
  | ask x y next => ask x y fun answer => (next answer).bind f

instance : Monad (Procedure α) where
  pure := done
  bind := bind

/-- Whether the first item is less than the second. -/
def less (x y : α) : Procedure α Bool := ask x y done

/-- Whether the first item is not less than the second. -/
def notLess (x y : α) : Procedure α Bool := ask x y fun answer => done !answer

/-- The result for a comparison, unless the procedure gives up, and whether all that was asked
about has an order, and `known` before. An item is not less than one with which it has none. -/
def run (compare? : α → α → Option Ordering) (known : Bool) : Procedure α β → Option (β × Bool)
  | done result => some (result, known)
  | abort => none
  | ask x y next =>
    match compare? x y with
    | some o => (next (o == .lt)).run compare? known
    | none => (next false).run compare? false

end Procedure

end Mustache.Sorting
