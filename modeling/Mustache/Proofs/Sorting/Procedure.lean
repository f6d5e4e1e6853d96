import Mathlib.Data.List.FinRange
import Mathlib.Order.Compare
import Mustache.Proofs.Sorting.Quicksort

/-!
# Stable procedures

A procedure that sorts a number of places learns about them by comparing two at a time. It is stable
if it puts them in order for every total order with ties, places that are tied as they are. All
stable procedures come to the same. Under a comparison that leaves some places without an order a
stable procedure is bound to compare two such places, unless all places are of one class: else it
would have to tell which class comes first.

* `Procedure.run_of_total`, `Procedure.run_of_extends`: what is found out by a comparison;
* `Procedure.Before`; **`Procedure.Stable`**, with **`stable_sort`**;
* **`Stable.run_eq`**: all stable procedures agree on places that can be compared;
* **`Stable.class_eq`**: places are only sorted if they are all of one class.
-/

namespace Mustache.Sorting

/-- What has keys in a total order with ties is in such an order by its keys. -/
theorem transCmp_on {α β : Type} (order : β → β → Ordering) [Std.TransCmp order] (key : α → β) :
    Std.TransCmp fun x y => order (key x) (key y) where
  eq_swap {_ _} := @Std.OrientedCmp.eq_swap _ order _ _ _
  isLE_trans {_ _ _} := @Std.TransCmp.isLE_trans _ order _ _ _ _

namespace Procedure

variable {α β : Type} {compare? answer? : α → α → Option Ordering} {known : Bool} {result : β}

/-- An item is less by an order. -/
def lessBy (order : α → α → Ordering) (x y : α) : Bool := order x y == .lt

/-- Where all items can be compared, the answers are those of the order. -/
theorem run_of_total {order : α → α → Ordering} (h : ∀ x y, compare? x y = some (order x y))
    (p : Procedure α β) :
    p.run compare? known = (p.eval (lessBy order)).map fun result => (result, known) := by
  induction p with
  | done result => rfl
  | abort => rfl
  | ask x y next ih =>
    rw [run, h x y]
    exact ih (order x y == .lt)

/-- The result does not depend on whether all that was asked about has an order. -/
theorem run_fst (p : Procedure α β) : (p.run compare? known).map Prod.fst =
    p.eval fun x y => compare? x y == some .lt := by
  induction p generalizing known with
  | done result => rfl
  | abort => rfl
  | ask x y next ih =>
    rw [run, eval]
    cases compare? x y with
    | none => exact ih false
    | some o => exact ih (o == .lt)

/-- What could not be compared stays known. -/
theorem run_false (p : Procedure α β) : p.run compare? false ≠ some (result, true) := by
  induction p with
  | done result => exact fun h => Bool.false_ne_true (congrArg Prod.snd (Option.some.inj h))
  | abort => exact Option.some_ne_none _ ∘ Eq.symm
  | ask x y next ih =>
    rw [run]
    split
    · exact ih _
    · exact ih _

/-- A procedure that finds all items comparable finds the same if every answer stays the same. -/
theorem run_of_extends (h : ∀ x y o, compare? x y = some o → answer? x y = some o)
    (p : Procedure α β) (hrun : p.run compare? true = some (result, true)) :
    p.run answer? true = some (result, true) := by
  induction p with
  | done result => exact hrun
  | abort => exact hrun
  | ask x y next ih =>
    rw [run] at hrun ⊢
    split at hrun
    · rename_i o ho
      rw [h x y o ho]
      exact ih _ hrun
    · exact absurd hrun (run_false _)

variable {n : Nat}

/-- Places in order, and as they are where there is a tie. -/
def Before (order : Fin n → Fin n → Ordering) (i j : Fin n) : Prop :=
  order i j = .lt ∨ order i j = .eq ∧ i < j

/-- **A stable sorting procedure** for `n` places puts them in order for every total order with
ties, and where there is a tie it keeps them as they are. -/
def Stable (p : Procedure (Fin n) (List (Fin n))) : Prop :=
  ∀ (order : Fin n → Fin n → Ordering) [Std.TransCmp order],
    Sorts (lessBy order) (Before order) (List.finRange n) p

section

variable {order : Fin n → Fin n → Ordering} [Std.TransCmp order] {i j k : Fin n}

theorem before_trans (hij : Before order i j) (hjk : Before order j k) : Before order i k := by
  rcases hij with hij | ⟨hij, hlt⟩ <;> rcases hjk with hjk | ⟨hjk, hlt'⟩
  · exact .inl (Std.TransCmp.lt_trans hij hjk)
  · exact .inl (Std.TransCmp.lt_of_lt_of_eq hij hjk)
  · exact .inl (Std.TransCmp.lt_of_eq_of_lt hij hjk)
  · exact .inr ⟨Std.TransCmp.eq_trans hij hjk, hlt.trans hlt'⟩

theorem before_asymm (hij : Before order i j) : ¬Before order j i := by
  have hswap : order j i = (order i j).swap := Std.OrientedCmp.eq_swap
  rintro (hji | ⟨hji, hlt⟩) <;> rcases hij with hij | ⟨hij, hlt'⟩ <;> rw [hij, hji] at hswap
  · cases hswap
  · cases hswap
  · cases hswap
  · exact absurd hlt (not_lt_of_gt hlt')

/-- The answers by a total order with ties, and the order of places. -/
theorem ranks_before (order : Fin n → Fin n → Ordering) [Std.TransCmp order] :
    Ranks (lessBy order) (Before order) where
  of_less h := .inl (beq_iff_eq.mp h)
  trans := before_trans
  asymm := before_asymm
  split {i j k} hik := by
    by_contra hnot
    simp only [lessBy, beq_iff_eq, not_or] at hik hnot
    have hswap : order j i = (order i j).swap := Std.OrientedCmp.eq_swap
    have hji : (order j i).isLE := by
      cases hij : order i j with
      | lt => exact absurd hij hnot.1
      | eq => rw [hswap, hij]; rfl
      | gt => rw [hswap, hij]; rfl
    exact hnot.2 (Std.TransCmp.lt_of_isLE_of_lt hji hik)

theorem kept_finRange (order : Fin n → Fin n → Ordering) [Std.TransCmp order] :
    (List.finRange n).Pairwise (Kept (lessBy order) (Before order)) := by
  refine (List.pairwise_lt_finRange n).imp fun {i j} hij hless => ?_
  have hswap : order i j = (order j i).swap := Std.OrientedCmp.eq_swap
  cases hji : order j i with
  | lt => exact absurd hji (beq_eq_false_iff_ne.mp hless)
  | eq => exact .inr ⟨by rw [hswap, hji]; rfl, hij⟩
  | gt => exact .inl (by rw [hswap, hji]; rfl)

end

/-- **Sorting is stable.** -/
theorem stable_sort (n : Nat) : (sort (List.finRange n)).Stable :=
  fun order _ => sorts_sort (ranks_before order) (kept_finRange order)

/-! ## What every stable procedure does -/

variable {p q : Procedure (Fin n) (List (Fin n))} {sorted : List (Fin n)}

/-- **Stable procedures agree.** -/
theorem Stable.eval_eq (hp : p.Stable) (hq : q.Stable) (order : Fin n → Fin n → Ordering)
    [Std.TransCmp order] : p.eval (lessBy order) = q.eval (lessBy order) := by
  obtain ⟨front, hfront, hperm, hsorted⟩ := hp order
  obtain ⟨back, hback, hperm', hsorted'⟩ := hq order
  rw [hfront, hback, (hperm.trans hperm'.symm).eq_of_pairwise
    (fun i j _ _ hij hji => absurd hji (before_asymm hij)) hsorted hsorted']

/-- Where the places of a class cannot be compared with others, the class could as well come last:
after one of its places there are only places of the class. -/
theorem Stable.pairwise_class (hp : p.Stable) {compare? : Fin n → Fin n → Option Ordering}
    {order : Fin n → Fin n → Ordering} [Std.TransCmp order] (late : Fin n → Bool)
    (h : ∀ i j o, compare? i j = some o → late i = late j ∧ order i j = o)
    (hrun : p.run compare? true = some (sorted, true)) :
    sorted.Perm (List.finRange n) ∧ sorted.Pairwise fun i j => late i = true → late j = true := by
  have hextends : ∀ i j o, compare? i j = some o →
      some (compareLex (compareOn late) order i j) = some o := by
    rintro i j o ho
    obtain ⟨hlate, horder⟩ := h i j o ho
    rw [compareLex, compareOn, hlate, horder, compare_eq_iff_eq.mpr rfl]
    rfl
  obtain ⟨result, hresult, hperm, hpairwise⟩ := hp (compareLex (compareOn late) order)
  have hall := run_of_extends hextends p hrun
  rw [run_of_total fun _ _ => rfl, hresult] at hall
  cases hall
  refine ⟨hperm, hpairwise.imp fun {i j} hij hi => ?_⟩
  by_contra hj
  rw [Bool.not_eq_true] at hj
  have hgt : compareLex (compareOn late) order i j = .gt := by
    rw [compareLex, compareOn, hi, hj]
    rfl
  rcases hij with hij | ⟨hij, -⟩ <;> cases hgt.symm.trans hij

/-- **Places are only sorted if they are of one class**, if places of different classes cannot be
compared. -/
theorem Stable.class_eq (hp : p.Stable) {compare? : Fin n → Fin n → Option Ordering}
    {order : Fin n → Fin n → Ordering} [Std.TransCmp order] {κ : Type} {k : Fin n → κ}
    (h : ∀ i j o, compare? i j = some o → k i = k j ∧ order i j = o)
    (hrun : p.run compare? true = some (sorted, true)) (i j : Fin n) : k i = k j := by
  classical
  -- the class of `j` could as well come last as first, so all that is sorted is of that class
  obtain ⟨hperm, hlast⟩ := hp.pairwise_class (fun i => decide (k i = k j))
    (fun i j o ho => ⟨by rw [(h i j o ho).1], (h i j o ho).2⟩) hrun
  obtain ⟨-, hfirst⟩ := hp.pairwise_class (fun i => !decide (k i = k j))
    (fun i j o ho => ⟨by rw [(h i j o ho).1], (h i j o ho).2⟩) hrun
  simp only [Bool.not_eq_true', decide_eq_true_eq, decide_eq_false_iff_not] at hlast hfirst
  have hall : ∀ a, a ∈ sorted := fun a => hperm.mem_iff.mpr (List.mem_finRange a)
  exact hlast.forall_of_forall_of_flip (fun _ _ => id) (hfirst.imp not_imp_not.mp)
    (hall j) (hall i) rfl

end Procedure

end Mustache.Sorting
