import Mustache.Sorting.Procedure

/-!
# Sorting a few items

Twenty items and less are sorted by insertion. Up to thirty-two are sorted in two halves, which are
then merged from both ends at once; if the two ends do not meet, the answers were not those of an
order.

* `insert`, `insertAll`, **`insertion`**;
* `weave`: two lists are merged, up to a number of items;
* `merge`: two lists are merged, from the end where the shorter one is;
* `mergeEnds`: two halves are merged from both ends; **`smallSort`**.
-/

namespace Mustache.Sorting

open Procedure

variable {α : Type}

/-! ## Insertion -/

/-- An item put into a list from the greatest to the least, before the first item that it is not
less than. -/
def insert (x : α) : List α → Procedure α (List α)
  | [] => return [x]
  | y :: ys => do
    if ← less x y then
      return y :: (← insert x ys)
    else
      return x :: y :: ys

/-- Items put one after the other into a list from the greatest to the least; the result is from
the least to the greatest. -/
def insertAll (sorted : List α) : List α → Procedure α (List α)
  | [] => return sorted.reverse
  | x :: items => do insertAll (← insert x sorted) items

/-- **Insertion sort.** -/
def insertion (items : List α) : Procedure α (List α) := insertAll [] items

/-! ## Merging -/

/-- What a merge has taken in order, and what it left of both lists. -/
structure Woven (α : Type) where
  taken : List α
  left : List α
  right : List α

/-- A number of items taken from two lists, less if one of them ends. The next one comes from the
first list if the answer to the question whether the second has the lesser item is as given. -/
def weave (answer : Bool) : Nat → List α → List α → Procedure α (Woven α)
  | n + 1, x :: xs, y :: ys => do
    if (← less y x) == answer then
      let w ← weave answer n xs (y :: ys)
      return { w with taken := x :: w.taken }
    else
      let w ← weave answer n (x :: xs) ys
      return { w with taken := y :: w.taken }
  | _, xs, ys => return ⟨[], xs, ys⟩

/-- Two sorted lists from their starts on. -/
def mergeUp (n : Nat) (xs ys : List α) : Procedure α (Woven α) := weave false n xs ys

/-- Two sorted lists from their ends on; all lists of the result are in reverse. -/
def mergeDown (n : Nat) (xs ys : List α) : Procedure α (Woven α) :=
  weave true n xs.reverse ys.reverse

/-- Two sorted lists in one. -/
def merge (xs ys : List α) : Procedure α (List α) := do
  if xs.length ≤ ys.length then
    let w ← mergeUp (xs.length + ys.length) xs ys
    return w.taken ++ w.left ++ w.right
  else
    let w ← mergeDown (xs.length + ys.length) xs ys
    return w.right.reverse ++ w.left.reverse ++ w.taken.reverse

/-- Two sorted halves in one, of which the second may have one item more. As many items as the
first half has are taken from the start and from the end. Of an odd number one item is left in the
middle, from the first half if not all of this is taken. -/
def mergeEnds (xs ys : List α) : Procedure α (List α) := do
  let front ← mergeUp xs.length xs ys
  let back ← mergeDown xs.length xs ys
  let left := front.left.length + back.left.length
  if left = xs.length then
    return front.taken ++ front.right.take (ys.length - xs.length) ++ back.taken.reverse
  else if left = xs.length + 1 ∧ ys.length ≠ xs.length then
    return front.taken ++ front.left.take 1 ++ back.taken.reverse
  else
    abort

/-! ## Small lists -/

/-- Four items in order, with five questions. -/
def sortFour (p q r s : α) : Procedure α (List α) := do
  let (a, b) := if ← less q p then (q, p) else (p, q)
  let (c, d) := if ← less s r then (s, r) else (r, s)
  let lower ← less c a
  let higher ← less d b
  let first := if lower then c else a
  let last := if higher then b else d
  let left := if lower then a else if higher then c else b
  let right := if higher then d else if lower then b else c
  if ← less right left then
    return [first, right, left, last]
  else
    return [first, left, right, last]

/-- A half of a small list; four items are sorted at once if both halves have so many. -/
def sortHalf (four : Bool) (items : List α) : Procedure α (List α) :=
  match four, items with
  | true, p :: q :: r :: s :: items => do
    let sorted ← sortFour p q r s
    insertAll sorted.reverse items
  | _, items => insertion items

/-- The number of items up to which a list is small. -/
def smallLength : Nat := 32

/-- **A small list in order.** -/
def smallSort (items : List α) : Procedure α (List α) := do
  if items.length < 2 then
    return items
  else
    let half := items.length / 2
    let four := decide (8 ≤ items.length)
    let xs ← sortHalf four (items.take half)
    let ys ← sortHalf four (items.drop half)
    mergeEnds xs ys

end Mustache.Sorting
