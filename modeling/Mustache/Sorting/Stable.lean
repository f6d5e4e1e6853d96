import Mustache.Sorting.Small

/-!
# Stable sorting

More than twenty items are taken apart into runs. A run is a piece that is in order already, if it
is long enough, or else a small piece that is sorted (*eager*) or a longer one that is sorted only
when need be (*lazy*). Runs are merged in the order of a tree that is known from their lengths.
What is not sorted by then is sorted by taking it apart around one of its items. That this does not
go on for too long is seen to by a limit, at which there are eager runs instead.

* `split`, `splitAround`, `choosePivot`: items taken apart around one of them;
* `Run`, `nextRun`, `join`, `collapse`, `sweep`: runs and how they are merged;
* `drift`, `quicksort`, **`sort`**.
-/

namespace Mustache.Sorting

open Procedure

variable {α : Type}

/-! ## Items apart -/

/-- The items that pass a test, and the others. -/
def split (test : α → Procedure α Bool) : List α → Procedure α (List α × List α)
  | [] => return ([], [])
  | x :: items => do
    let pass ← test x
    let (left, right) ← split test items
    return if pass then (x :: left, right) else (left, x :: right)

/-- The items that pass a test, and the others. The one at the place is not tested; it is among
those that pass or not, as given. -/
def splitAround (test : α → Procedure α Bool) (pass : Bool) (items : List α)
    (k : Fin items.length) : Procedure α (List α × List α) := do
  let (left, right) ← split test (items.take k)
  let (left', right') ← split test (items.drop (k + 1))
  return if pass then (left ++ items.get k :: left', right ++ right')
    else (left ++ left', right ++ items.get k :: right')

/-- The one of three places whose item is between those of the others. -/
def median (items : List α) (i j k : Fin items.length) : Procedure α (Fin items.length) := do
  let x ← less (items.get i) (items.get j)
  let y ← less (items.get i) (items.get k)
  if x == y then
    let z ← less (items.get j) (items.get k)
    return if z != x then k else j
  else
    return i

/-- The place that stands for several in a row: of eight and more the median of what stands for
the first, the fifth and the eighth of eight parts. -/
def pick (items : List α) (n : Nat) (start : Fin items.length) (h : start + n ≤ items.length) :
    Procedure α (Fin items.length) := do
  if hn : 8 ≤ n then
    let i ← pick items (n / 8) start (by omega)
    let j ← pick items (n / 8) ⟨start + 4 * (n / 8), by omega⟩ (by dsimp only; omega)
    let k ← pick items (n / 8) ⟨start + 7 * (n / 8), by omega⟩ (by dsimp only; omega)
    median items i j k
  else
    return start
termination_by n

/-- The place of the item around which the others are taken apart. -/
def choosePivot (items : List α) (h : 0 < items.length) : Procedure α (Fin items.length) :=
  pick items items.length ⟨0, h⟩ (Nat.le_of_eq (Nat.zero_add _))

/-! ## Runs -/

/-- A piece of the items. -/
structure Run (α : Type) where
  items : List α
  sorted : Bool

/-- The items that go on as a run has started, after its last item. -/
def follow (descending : Bool) (last : α) : List α → Procedure α (List α)
  | [] => return []
  | x :: items => do
    if (← less x last) == descending then
      return x :: (← follow descending x items)
    else
      return []

/-- The run that the items start with, in order. It does not descend at all, or it descends at every
step and is reversed. -/
def findRun : List α → Procedure α (List α)
  | x :: y :: items => do
    let descending ← less y x
    let run ← follow descending y items
    return if descending then (x :: y :: run).reverse else x :: y :: run
  | items => return items

/-- The run that the items start with, unless there are too few of them. -/
def presentRun (length : Nat) (items : List α) : Procedure α (List α) :=
  if length ≤ items.length then findRun items else return []

/-- The next run of the items. One that is there already has to be as long as given. -/
def nextRun (eager : Bool) (length : Nat) (items : List α) : Procedure α (Run α) := do
  let run ← presentRun length items
  if length ≤ run.length then
    return ⟨run, true⟩
  else if eager then
    return ⟨← smallSort (items.take smallLength), true⟩
  else
    return ⟨items.take length, false⟩

/-- How many items there is room for beside those that are sorted. -/
def room (total : Nat) : Nat := max (total - total / 2) (min total 142857)

/-- How deep in the tree two runs are merged, by where the first one starts, where they meet and
where the second one ends. -/
def mergeDepth (total start middle stop : Nat) : Nat :=
  let scale := (0x4000000000000000 + total - 1) / total
  let differing := Nat.xor (scale * (start + middle)) (scale * (middle + stop))
  if differing = 0 then 64 else 63 - differing.log2

section

variable (finish : List α → Procedure α (List α))

/-- The items of a run in order. -/
def Run.finished (run : Run α) : Procedure α (List α) :=
  if run.sorted then return run.items else finish run.items

/-- Two runs as one. They are left unsorted if both are and there is room to sort them together. -/
def join (total : Nat) (left right : Run α) : Procedure α (Run α) := do
  if room total < left.items.length + right.items.length ∨ left.sorted ∨ right.sorted then
    let xs ← left.finished finish
    let ys ← right.finished finish
    return ⟨← merge xs ys, true⟩
  else
    return ⟨left.items ++ right.items, false⟩

/-- The last run merged with those before it that are to be merged at least as deep as given. A run
that waits comes with the depth at which it is merged with the run after it. -/
def collapse (total depth : Nat) :
    List (Run α × Nat) → Run α → Procedure α (List (Run α × Nat) × Run α)
  | [], last => return ([], last)
  | (run, runDepth) :: waiting, last => do
    if depth ≤ runDepth then
      collapse total depth waiting (← join finish total run last)
    else
      return ((run, runDepth) :: waiting, last)

/-- All items as one run, given those that are left, the length of the run before them, the runs
that wait and the last run. -/
def sweep (eager : Bool) (total length : Nat) :
    List α → Nat → List (Run α × Nat) → Run α → Procedure α (Run α)
  | [], _, waiting, last => do
    let (_, run) ← collapse finish total 0 waiting last
    return run
  | x :: items, previous, waiting, last => do
    let run ← nextRun eager length (x :: items)
    let middle := total - (items.length + 1)
    let depth := mergeDepth total (middle - previous) middle (middle + run.items.length)
    let (waiting, last) ← collapse finish total depth waiting last
    sweep eager total length (items.drop (run.items.length - 1)) run.items.length
      ((last, depth) :: waiting) run
termination_by items => items.length

/-- The number of items from which on a run that is there already is used. -/
def goodLength (n : Nat) : Nat :=
  if n ≤ 4096 then min (n - n / 2) 64
  else
    let shift := (1 + n.log2) / 2
    (Nat.shiftLeft 1 shift + Nat.shiftRight n shift) / 2

/-- The items in order, by runs. -/
def drift (eager : Bool) (items : List α) : Procedure α (List α) := do
  let first ← nextRun eager (goodLength items.length) items
  let run ← sweep finish eager items.length (goodLength items.length)
    (items.drop first.items.length) first.items.length [] first
  run.finished finish

end

/-! ## The whole -/

/-- Whether no item can be less than the pivot, since none is less than an item that is not less
than the pivot. -/
def isLeast (floor : Option α) (pivot : α) : Procedure α Bool :=
  match floor with
  | some x => notLess x pivot
  | none => return false

/-- The items less than the one at the place, and the others, unless it is known that there are no
lesser ones. -/
def lesserFirst (least : Bool) (items : List α) (k : Fin items.length) :
    Procedure α (List α × List α) :=
  if least then return ([], items) else splitAround (fun x => less x (items.get k)) false items k

/-- The items that are not greater than the one at the place as they are, and the others in
order. -/
def equalFirst (sortRest : List α → Procedure α (List α)) (items : List α)
    (k : Fin items.length) : Procedure α (List α) := do
  let (equal, greater) ← splitAround (notLess (items.get k)) true items k
  return equal ++ (← sortRest greater)

/-- The items in order, by taking them apart. The second argument is an item that none of them is
less than. -/
def quicksort : Nat → Option α → List α → Procedure α (List α)
  | 0, _, items =>
    if items.length ≤ smallLength then smallSort items else drift smallSort true items
  | limit + 1, floor, items =>
    if h : items.length ≤ smallLength then smallSort items
    else do
      let k ← choosePivot items (Nat.lt_of_lt_of_le (by decide) (Nat.le_of_not_le h))
      let (left, right) ← lesserFirst (← isLeast floor (items.get k)) items k
      if left.isEmpty then
        equalFirst (quicksort limit none) items k
      else
        let greater ← quicksort limit (some (items.get k)) right
        return (← quicksort limit floor left) ++ greater

/-- The items in order, by taking them apart not too often. -/
def stableQuicksort (items : List α) : Procedure α (List α) :=
  quicksort (2 * items.length.log2) none items

/-- **The items in order**, equal ones as they were. -/
def sort (items : List α) : Procedure α (List α) :=
  if items.length ≤ 20 then insertion items
  else drift stableQuicksort (decide (items.length ≤ 2 * smallLength)) items

end Mustache.Sorting
