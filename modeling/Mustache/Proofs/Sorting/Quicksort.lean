import Mustache.Proofs.Sorting.Runs

/-!
# Sorting by taking apart

Items are taken apart around one of them, the lesser ones to the left. Where there is no lesser one,
those that are not greater equal it and are in order already. The items of a part that was to the
right of another item are not less than that one, so if it is not less than the item in the middle,
there is no lesser one either.

* `ensures_split`, `ensures_splitAround`: items in two parts; `ensures_choosePivot`;
* `Floor`: an item that no others are less than;
* **`sorts_quicksort`**, **`sorts_sort`**.
-/

namespace Mustache.Sorting

open Procedure

variable {α : Type} {less : α → α → Bool} {R : α → α → Prop} {items : List α}

/-! ## Parts -/

section

variable {test : α → Procedure α Bool} {pass : α → Bool}

/-- The items that pass and those that do not. -/
theorem ensures_split (htest : ∀ x Q, (test x).Ensures less Q ↔ Q (pass x)) (items : List α) :
    (split test items).Ensures less fun parts =>
      parts = (items.filter pass, items.filter fun x => !pass x) := by
  induction items with
  | nil => exact ensures_pure.mpr rfl
  | cons x items ih =>
    rw [split, ensures_bind, htest]
    refine ensures_bind.mpr (ih.mono fun parts hparts => ?_)
    subst hparts
    refine ensures_pure.mpr ?_
    cases hx : pass x with
    | true => simp [hx]
    | false => simp [hx]

/-- The item around which the others are taken apart comes to the part that it belongs to. -/
theorem ensures_splitAround (htest : ∀ x Q, (test x).Ensures less Q ↔ Q (pass x)) (items : List α)
    (k : Fin items.length) :
    (splitAround test (pass (items.get k)) items k).Ensures less fun parts =>
      parts = (items.filter pass, items.filter fun x => !pass x) := by
  refine ensures_bind.mpr ((ensures_split htest _).mono fun parts hparts => ?_)
  refine ensures_bind.mpr ((ensures_split htest _).mono fun parts' hparts' => ?_)
  subst hparts hparts'
  refine ensures_pure.mpr ?_
  have hitems : items.take k ++ items.get k :: items.drop (k + 1) = items := by
    rw [List.get_eq_getElem, ← List.drop_eq_getElem_cons k.isLt, List.take_append_drop]
  cases hk : pass (items.get k) with
  | true =>
    conv_rhs => rw [← hitems]
    simp only [List.filter_append, List.filter_cons, hk, Bool.not_true, Bool.false_eq_true, if_true,
      if_false]
  | false =>
    conv_rhs => rw [← hitems]
    simp only [List.filter_append, List.filter_cons, hk, Bool.not_false, Bool.false_eq_true,
      if_true, if_false]

theorem ensures_median (i j k : Fin items.length) :
    (median items i j k).Ensures less fun _ => True := by
  simp only [median, ensures_bind, ensures_less]
  split
  · simp
  · simp

theorem ensures_pick (n : Nat) (start : Fin items.length) (h : start + n ≤ items.length) :
    (pick items n start h).Ensures less fun _ => True := by
  induction n using Nat.strongRecOn generalizing start with
  | ind n ih =>
    rw [pick]
    split
    · rename_i hn
      have hlt : n / 8 < n := by omega
      refine ensures_bind.mpr ((ih _ hlt _ _).mono fun i _ => ?_)
      refine ensures_bind.mpr ((ih _ hlt _ _).mono fun j _ => ?_)
      exact ensures_bind.mpr ((ih _ hlt _ _).mono fun k _ => ensures_median i j k)
    · exact ensures_pure.mpr trivial

/-- There is an item to take the others apart around. -/
theorem ensures_choosePivot (h : 0 < items.length) :
    (choosePivot items h).Ensures less fun _ => True :=
  ensures_pick items.length ⟨0, h⟩ _

end

/-! ## Sorting -/

/-- No item is less than the given one. -/
def Floor (less : α → α → Bool) (items : List α) (x : α) : Prop := ∀ y ∈ items, less y x = false

/-- Two sorted parts are in order if the first has the items that pass a test, and these come before
the others. -/
theorem sorted_append {pass : α → Bool} {left right : List α}
    (hcross : ∀ x ∈ items, ∀ y ∈ items, pass x = true → pass y = false → R x y)
    (hleft : left.Perm (items.filter pass) ∧ left.Pairwise R)
    (hright : right.Perm (items.filter fun x => !pass x) ∧ right.Pairwise R) :
    (left ++ right).Perm items ∧ (left ++ right).Pairwise R := by
  refine ⟨(hleft.1.append hright.1).trans (List.filter_append_perm pass items),
    List.pairwise_append.mpr ⟨hleft.2, hright.2, fun x hx y hy => ?_⟩⟩
  obtain ⟨hx, hpass⟩ := List.mem_filter.mp (hleft.1.mem_iff.mp hx)
  obtain ⟨hy, hfail⟩ := List.mem_filter.mp (hright.1.mem_iff.mp hy)
  exact hcross x hx y hy hpass (by simpa using hfail)

/-- Items that equal the least one are in order. -/
theorem pairwise_equal (h : Ranks less R) {pivot : α} (hitems : items.Pairwise (Kept less R))
    (hfloor : Floor less items pivot) :
    (items.filter fun x => !less pivot x).Pairwise R := by
  refine (hitems.sublist List.filter_sublist).imp_of_mem fun {x y} hx hy hkept => hkept ?_
  obtain ⟨-, hx⟩ := List.mem_filter.mp hx
  obtain ⟨hy, -⟩ := List.mem_filter.mp hy
  by_contra hless
  have hsplit : less y pivot = true ∨ less pivot x = true := h.split (Bool.not_eq_false _ ▸ hless)
  obtain hlt | hlt := hsplit
  · exact Bool.false_ne_true ((hfloor y hy).symm.trans hlt)
  · simp [hlt] at hx

/-- Where there is no lesser item, those that equal the least one are in order already. -/
theorem sorts_equalFirst (h : Ranks less R) {sortRest : List α → Procedure α (List α)}
    (hrest : Finishes less R sortRest) (hitems : items.Pairwise (Kept less R))
    (k : Fin items.length) (hfloor : Floor less items (items.get k)) :
    Sorts less R items (equalFirst sortRest items k) := by
  have hsplit := @ensures_splitAround _ less (notLess (items.get k))
    (fun x => !less (items.get k) x) (fun _ _ => ensures_notLess) items k
  rw [h.less_self] at hsplit
  refine ensures_bind.mpr (hsplit.mono fun parts hparts => ?_)
  subst hparts
  refine ensures_bind.mpr ((hrest _ (hitems.sublist List.filter_sublist)).mono
    fun greater hgreater => ensures_pure.mpr ?_)
  refine sorted_append (fun x _ y hy hx hgt => ?_) ⟨.refl _, pairwise_equal h hitems hfloor⟩
    hgreater
  have hlt : less (items.get k) x = true ∨ less x y = true := h.split (by simpa using hgt)
  exact h.of_less (hlt.resolve_left (by simpa using hx))

/-- It is known that no item is less than the pivot only if there is none. -/
theorem ensures_isLeast (h : Ranks less R) {floor : Option α}
    (hfloor : ∀ x ∈ floor, Floor less items x) (pivot : α) :
    (isLeast floor pivot).Ensures less fun least => least = true → Floor less items pivot := by
  cases floor with
  | none => exact ensures_pure.mpr nofun
  | some x =>
    refine ensures_notLess.mpr fun hle y hy => ?_
    by_contra hless
    have hsplit : less y x = true ∨ less x pivot = true := h.split (Bool.not_eq_false _ ▸ hless)
    obtain hlt | hlt := hsplit
    · exact Bool.false_ne_true ((hfloor x rfl y hy).symm.trans hlt)
    · simp [hlt] at hle

/-- The lesser items and the others. -/
theorem ensures_lesserFirst (h : Ranks less R) {least : Bool} {k : Fin items.length}
    (hleast : least = true → Floor less items (items.get k)) :
    (lesserFirst least items k).Ensures less fun parts =>
      parts = (items.filter fun x => less x (items.get k),
        items.filter fun x => !less x (items.get k)) := by
  unfold lesserFirst
  split
  · rename_i hknown
    have hnone : (items.filter fun x => less x (items.get k)) = [] :=
      List.filter_eq_nil_iff.mpr fun x hx => Bool.eq_false_iff.mp (hleast hknown x hx)
    have hall : (items.filter fun x => !less x (items.get k)) = items :=
      List.filter_eq_self.mpr fun x hx => by rw [hleast hknown x hx]; rfl
    rw [hnone, hall]
    exact ensures_pure.mpr rfl
  · have hsplit := @ensures_splitAround _ less (fun x => Procedure.less x (items.get k))
      (fun x => less x (items.get k)) (fun _ _ => ensures_less) items k
    rwa [h.less_self] at hsplit

/-- **Items are sorted by taking them apart.** -/
theorem sorts_quicksort (h : Ranks less R) (limit : Nat) (floor : Option α)
    (hfloor : ∀ x ∈ floor, Floor less items x) (hitems : items.Pairwise (Kept less R)) :
    Sorts less R items (quicksort limit floor items) := by
  induction limit generalizing floor items with
  | zero =>
    rw [quicksort]
    split
    · exact sorts_smallSort h hitems
    · rename_i hlength
      have hne : items ≠ [] := fun hnil => hlength (by rw [hnil]; exact Nat.zero_le _)
      exact sorts_drift h (fun _ => sorts_smallSort h) true hne hitems
  | succ limit ih =>
    rw [quicksort]
    split
    · exact sorts_smallSort h hitems
    · refine ensures_bind.mpr ((ensures_choosePivot _).mono fun k _ => ?_)
      refine ensures_bind.mpr ((ensures_isLeast h hfloor _).mono fun least hleast => ?_)
      refine ensures_bind.mpr ((ensures_lesserFirst h hleast).mono fun parts hparts => ?_)
      subst hparts
      dsimp only
      split
      · rename_i hempty
        have hnone := List.filter_eq_nil_iff.mp (List.isEmpty_iff.mp hempty)
        exact sorts_equalFirst h (fun _ => ih none nofun) hitems k
          fun x hx => Bool.eq_false_iff.mpr (hnone x hx)
      · have hright : ∀ x ∈ some (items.get k),
            Floor less (items.filter fun x => !less x (items.get k)) x := by
          rintro _ ⟨⟩ y hy
          simpa using (List.mem_filter.mp hy).2
        refine ensures_bind.mpr ((ih _ hright (hitems.sublist List.filter_sublist)).mono
          fun greater hgreater => ?_)
        refine ensures_bind.mpr ((ih _ (fun x hx y hy => hfloor x hx y (List.mem_of_mem_filter hy))
          (hitems.sublist List.filter_sublist)).mono fun lesser hlesser => ensures_pure.mpr ?_)
        refine sorted_append (fun x _ y _ hx hy => ?_) hlesser hgreater
        have hlt : less x y = true ∨ less y (items.get k) = true := h.split hx
        exact h.of_less (hlt.resolve_right (Bool.eq_false_iff.mp hy))

/-- **Items are sorted.** -/
theorem sorts_sort (h : Ranks less R) (hitems : items.Pairwise (Kept less R)) :
    Sorts less R items (sort items) := by
  unfold sort
  split
  · exact sorts_insertion h.toTells hitems
  · rename_i hlength
    have hne : items ≠ [] := fun hnil => hlength (by rw [hnil]; exact Nat.zero_le _)
    exact sorts_drift h (fun _ => sorts_quicksort h _ none nofun) _ hne hitems

end Mustache.Sorting
