import Mathlib.Data.List.Perm.Basic
import Mustache.Sorting.Procedure

/-!
# What a procedure ensures

A procedure ensures a property if it does not give up and its result has the property. What one
procedure ensures is what the next one starts from.

* `Procedure.eval`: the result for given answers; `eval_bind`;
* **`Procedure.Ensures`**, with `ensures_bind`, `Ensures.mono`;
* `Tells`, `Ranks`: answers that tell a relation, and those of a total order with ties;
* `Kept`: items that a stable way of sorting leaves in order, where this relation says so;
* **`Sorts`**: a procedure sorts items.
-/

namespace Mustache.Sorting

variable {α β γ : Type}

namespace Procedure

/-- The result if items are less than others as given, unless the procedure gives up. -/
def eval (less : α → α → Bool) : Procedure α β → Option β
  | done result => some result
  | abort => none
  | ask x y next => (next (less x y)).eval less

variable (less : α → α → Bool)

theorem eval_bind (p : Procedure α β) (f : β → Procedure α γ) :
    (p >>= f).eval less = (p.eval less).bind fun result => (f result).eval less := by
  show (p.bind f).eval less = _
  induction p with
  | done result => rfl
  | abort => rfl
  | ask x y next ih => exact ih (less x y)

/-- **The procedure does not give up, and its result has the property.** -/
def Ensures (Q : β → Prop) (p : Procedure α β) : Prop :=
  ∃ result, p.eval less = some result ∧ Q result

variable {less} {Q Q' : β → Prop} {p : Procedure α β}

@[simp] theorem ensures_pure {result : β} :
    Ensures less Q (pure result : Procedure α β) ↔ Q result := by
  show (∃ last, some result = some last ∧ Q last) ↔ _
  simp only [Option.some.injEq, exists_eq_left']

@[simp] theorem ensures_less {x y : α} {Q : Bool → Prop} :
    Ensures less Q (Procedure.less x y) ↔ Q (less x y) :=
  @ensures_pure α Bool less Q _

@[simp] theorem ensures_notLess {x y : α} {Q : Bool → Prop} :
    Ensures less Q (notLess x y) ↔ Q (!less x y) :=
  @ensures_pure α Bool less Q _

/-- What is ensured of two procedures, one after the other. -/
@[simp] theorem ensures_bind {f : β → Procedure α γ} {Q : γ → Prop} :
    Ensures less Q (p >>= f) ↔ p.Ensures less fun result => (f result).Ensures less Q := by
  unfold Ensures
  simp only [eval_bind, Option.bind_eq_some_iff]
  constructor
  · rintro ⟨last, ⟨result, hp, hf⟩, hlast⟩
    exact ⟨result, hp, last, hf, hlast⟩
  · rintro ⟨result, hp, last, hf, hlast⟩
    exact ⟨last, ⟨result, hp, hf⟩, hlast⟩

theorem Ensures.mono (h : p.Ensures less Q) (hQ : ∀ result, Q result → Q' result) :
    p.Ensures less Q' := by
  obtain ⟨result, hp, hresult⟩ := h
  exact ⟨result, hp, hQ result hresult⟩

end Procedure

/-! ## Answers that tell an order -/

/-- The answers tell a transitive relation. -/
structure Tells (less : α → α → Bool) (R : α → α → Prop) : Prop where
  of_less : ∀ {x y}, less x y = true → R x y
  trans : ∀ {x y z}, R x y → R y z → R x z

/-- The answers are those of a total order with ties, and the relation refines this order. -/
structure Ranks (less : α → α → Bool) (R : α → α → Prop) : Prop extends Tells less R where
  asymm : ∀ {x y}, R x y → ¬R y x
  split : ∀ {x y z}, less x z = true → less x y = true ∨ less y z = true

/-- The first item is left before the second unless this is less. -/
def Kept (less : α → α → Bool) (R : α → α → Prop) (x y : α) : Prop := less y x = false → R x y

/-- **The procedure sorts the items.** -/
def Sorts (less : α → α → Bool) (R : α → α → Prop) (items : List α)
    (p : Procedure α (List α)) : Prop :=
  p.Ensures less fun sorted => sorted.Perm items ∧ sorted.Pairwise R

variable {less : α → α → Bool} {R : α → α → Prop} {x y : α}

theorem Ranks.less_asymm (h : Ranks less R) (hxy : less x y = true) : less y x = false := by
  by_contra hyx
  exact h.asymm (h.of_less hxy) (h.of_less (Bool.not_eq_false _ ▸ hyx))

theorem Ranks.less_self (h : Ranks less R) (x : α) : less x x = false := by
  by_contra hxx
  exact hxx (h.less_asymm (Bool.not_eq_false _ ▸ hxx))

theorem pairwise_kept {items : List α} (h : items.Pairwise R) : items.Pairwise (Kept less R) :=
  h.imp fun hxy => (fun _ => hxy : Kept less R _ _)

/-- A piece of a list in another order. -/
theorem pairwise_replace {S : α → α → Prop} {before piece piece' after : List α}
    (h : (before ++ piece ++ after).Pairwise S) (hperm : piece'.Perm piece)
    (hpiece : piece'.Pairwise S) : (before ++ piece' ++ after).Pairwise S := by
  simp only [List.pairwise_append, List.mem_append] at h ⊢
  obtain ⟨⟨hbefore, -, hcross⟩, hafter, hrest⟩ := h
  exact ⟨⟨hbefore, hpiece, fun x hx y hy => hcross x hx y (hperm.mem_iff.mp hy)⟩, hafter,
    fun x hx => hrest x (hx.imp_right hperm.mem_iff.mp)⟩

end Mustache.Sorting
