import Mustache.Proofs.Sorting.Small
import Mustache.Sorting.Stable

/-!
# Sorting by runs

Runs lie one after the other. Whatever has become of them so far, items of different runs are still
in the order in which they stood, and the items of a run that counts as sorted are in order. So the
merges give all items in order in the end, however deep in the tree each of them is made.

* `ensures_findRun`: the run that is there already;
* `Run.Good`: a run that is sorted if it counts as such; `ensures_nextRun`, `ensures_join`;
* `laid`: the items of runs that wait; `ensures_collapse`, `ensures_sweep`;
* **`sorts_drift`**.
-/

namespace Mustache.Sorting

open Procedure

variable {α : Type} {less : α → α → Bool} {R : α → α → Prop} {items : List α}

/-! ## Runs that are there already -/

/-- The relation in one direction or the other. -/
def Heads (R : α → α → Prop) : Bool → α → α → Prop
  | true, x, y => R y x
  | false, x, y => R x y

theorem Heads.trans (h : Tells less R) {descending : Bool} {x y z : α}
    (hxy : Heads R descending x y) (hyz : Heads R descending y z) : Heads R descending x z := by
  cases descending with
  | true => exact h.trans hyz hxy
  | false => exact h.trans hxy hyz

/-- An item that is in the direction of a run by the answer is so. -/
theorem Tells.heads (h : Tells less R) {descending : Bool} {x y : α} (hxy : Kept less R x y)
    (hless : less y x = descending) : Heads R descending x y := by
  cases descending with
  | true => exact h.of_less hless
  | false => exact hxy hless

theorem ensures_follow (h : Tells less R) (descending : Bool) (x : α)
    (hitems : (x :: items).Pairwise (Kept less R)) :
    (follow descending x items).Ensures less fun run =>
      run <+: items ∧ (x :: run).Pairwise (Heads R descending) := by
  induction items generalizing x with
  | nil => exact ensures_pure.mpr ⟨List.nil_prefix, List.pairwise_singleton _ _⟩
  | cons y items ih =>
    obtain ⟨hx, hitems⟩ := List.pairwise_cons.mp hitems
    rw [follow, ensures_bind, ensures_less]
    split
    · rename_i hsame
      have hfirst := h.heads (hx y List.mem_cons_self) (beq_iff_eq.mp hsame)
      refine ensures_bind.mpr ((ih y hitems).mono fun run ⟨hstart, hrun⟩ => ?_)
      refine ensures_pure.mpr ⟨List.cons_prefix_cons.mpr ⟨rfl, hstart⟩,
        List.pairwise_cons.mpr ⟨List.forall_mem_cons.mpr ⟨hfirst, fun z hz => ?_⟩, hrun⟩⟩
      exact hfirst.trans h (List.rel_of_pairwise_cons hrun hz)
    · exact ensures_pure.mpr ⟨List.nil_prefix, List.pairwise_singleton _ _⟩

/-- The items in order that lists start with. -/
def StartsWith (R : α → α → Prop) (items run : List α) : Prop :=
  run.Pairwise R ∧ run.Perm (items.take run.length)

/-- **The items start with a run.** -/
theorem ensures_findRun (h : Tells less R) (hitems : items.Pairwise (Kept less R)) :
    (findRun items).Ensures less (StartsWith R items) := by
  unfold findRun
  split
  · rename_i x y items
    obtain ⟨hx, hrest⟩ := List.pairwise_cons.mp hitems
    rw [ensures_bind, ensures_less]
    refine ensures_bind.mpr ((ensures_follow h (less y x) y hrest).mono
      fun run ⟨hstart, hrun⟩ => ensures_pure.mpr ?_)
    have hstart : x :: y :: run <+: x :: y :: items :=
      List.cons_prefix_cons.mpr ⟨rfl, List.cons_prefix_cons.mpr ⟨rfl, hstart⟩⟩
    have hfirst := h.heads (hx y List.mem_cons_self) rfl
    have hheads : (x :: y :: run).Pairwise (Heads R (less y x)) :=
      List.pairwise_cons.mpr ⟨List.forall_mem_cons.mpr ⟨hfirst, fun z hz =>
        hfirst.trans h (List.rel_of_pairwise_cons hrun hz)⟩, hrun⟩
    cases hless : less y x with
    | true =>
      rw [hless] at hheads
      rw [if_pos rfl, StartsWith, List.length_reverse, ← List.prefix_iff_eq_take.mp hstart]
      exact ⟨List.pairwise_reverse.mpr hheads, List.reverse_perm _⟩
    | false =>
      rw [hless] at hheads
      rw [if_neg Bool.false_ne_true, StartsWith, ← List.prefix_iff_eq_take.mp hstart]
      exact ⟨hheads, .refl _⟩
  · rename_i hshort
    refine ensures_pure.mpr ⟨?_, by rw [List.take_length]⟩
    match items, hshort with
    | [], _ => exact .nil
    | [x], _ => exact List.pairwise_singleton R x
    | x :: y :: items, hshort => exact (hshort x y items rfl).elim

/-! ## Runs -/

/-- A run whose items are in order if it counts as sorted. -/
def Run.Good (R : α → α → Prop) (run : Run α) : Prop := run.sorted = true → run.items.Pairwise R

/-- The next run is a piece from the start of the items. -/
theorem ensures_nextRun (h : Ranks less R) (eager : Bool) {length : Nat} (hlength : 0 < length)
    (hne : items ≠ []) (hitems : items.Pairwise (Kept less R)) :
    (nextRun eager length items).Ensures less fun run => run.Good R ∧ run.items ≠ [] ∧
      run.items.Perm (items.take run.items.length) ∧ run.items.Pairwise (Kept less R) := by
  have htake (n : Nat) : (items.take n).Pairwise (Kept less R) :=
    hitems.sublist (List.take_sublist n items)
  have hpos (n : Nat) (hn : 0 < n) : items.take n ≠ [] := by
    simpa [List.take_eq_nil_iff, Nat.pos_iff_ne_zero.mp hn] using hne
  have hpiece (n : Nat) : items.take n = items.take (items.take n).length := by
    rw [List.length_take, List.take_eq_take_iff]
    omega
  have hpresent : (presentRun length items).Ensures less (StartsWith R items) := by
    unfold presentRun
    split
    · exact ensures_findRun h.toTells hitems
    · exact ensures_pure.mpr ⟨.nil, .refl _⟩
  refine ensures_bind.mpr (hpresent.mono fun run ⟨hrun, hperm⟩ => ?_)
  split
  · rename_i hlong
    refine ensures_pure.mpr ⟨fun _ => hrun, ?_, hperm, pairwise_kept hrun⟩
    exact List.ne_nil_of_length_pos (Nat.lt_of_lt_of_le hlength hlong)
  · split
    · refine ensures_bind.mpr ((sorts_smallSort h (htake smallLength)).mono
        fun sorted ⟨hsorted, hpairwise⟩ => ensures_pure.mpr ⟨fun _ => hpairwise, ?_, ?_,
          pairwise_kept hpairwise⟩)
      · exact fun hnil => hpos smallLength (by decide) (List.nil_perm.mp (hnil ▸ hsorted))
      · rw [hsorted.length_eq, ← hpiece]
        exact hsorted
    · refine ensures_pure.mpr ⟨nofun, ?_, ?_, htake length⟩
      · exact hpos length hlength
      · rw [← hpiece]

/-! ## Merging runs -/

section

variable {finish : List α → Procedure α (List α)} {total : Nat}

/-- All lists of items are sorted. -/
def Finishes (less : α → α → Bool) (R : α → α → Prop) (finish : List α → Procedure α (List α)) :
    Prop := ∀ items, items.Pairwise (Kept less R) → Sorts less R items (finish items)

theorem sorts_finished (hfinish : Finishes less R finish) {run : Run α} (hgood : run.Good R)
    (hkept : run.items.Pairwise (Kept less R)) : Sorts less R run.items (run.finished finish) := by
  unfold Run.finished
  split
  · rename_i hsorted
    exact ensures_pure.mpr ⟨.refl _, hgood hsorted⟩
  · exact hfinish run.items hkept

/-- Two runs become one. -/
theorem ensures_join (h : Ranks less R) (hfinish : Finishes less R finish) {left right : Run α}
    (hleft : left.Good R) (hright : right.Good R)
    (hkept : (left.items ++ right.items).Pairwise (Kept less R)) :
    (join finish total left right).Ensures less fun run => run.Good R ∧
      run.items.Perm (left.items ++ right.items) ∧ run.items.Pairwise (Kept less R) := by
  obtain ⟨hfirst, hsecond, hcross⟩ := List.pairwise_append.mp hkept
  unfold join
  split
  · refine ensures_bind.mpr ((sorts_finished hfinish hleft hfirst).mono fun xs ⟨hxs, hxs'⟩ => ?_)
    refine ensures_bind.mpr ((sorts_finished hfinish hright hsecond).mono
      fun ys ⟨hys, hys'⟩ => ?_)
    refine ensures_bind.mpr ((sorts_merge h.toTells hxs' hys' fun x hx y hy =>
      hcross x (hxs.mem_iff.mp hx) y (hys.mem_iff.mp hy)).mono fun all ⟨hperm, hall⟩ => ?_)
    exact ensures_pure.mpr ⟨fun _ => hall, hperm.trans (hxs.append hys), pairwise_kept hall⟩
  · exact ensures_pure.mpr ⟨nofun, .refl _, hkept⟩

/-- The items of the runs that wait, from the first run on. -/
def laid (waiting : List (Run α × Nat)) : List α :=
  (waiting.reverse.map fun entry => entry.1.items).flatten

theorem laid_cons (entry : Run α × Nat) (waiting : List (Run α × Nat)) :
    laid (entry :: waiting) = laid waiting ++ entry.1.items := by
  rw [laid, List.reverse_cons, List.map_append, List.flatten_append, List.map_singleton,
    List.flatten_singleton]
  rfl

/-- **The runs and the rest of the items** in the order in which they lie. -/
structure Laid (less : α → α → Bool) (R : α → α → Prop) (all rest : List α)
    (waiting : List (Run α × Nat)) (last : Run α) : Prop where
  good : ∀ entry ∈ waiting, entry.1.Good R
  goodLast : last.Good R
  perm : (laid waiting ++ last.items ++ rest).Perm all
  kept : (laid waiting ++ last.items ++ rest).Pairwise (Kept less R)

variable {all rest : List α} {waiting : List (Run α × Nat)} {last : Run α}

/-- A merge of the last two runs keeps the items in their order. -/
theorem ensures_collapse (h : Ranks less R) (hfinish : Finishes less R finish) (depth : Nat)
    (hlaid : Laid less R all rest waiting last) :
    (collapse finish total depth waiting last).Ensures less fun result =>
      Laid less R all rest result.1 result.2 ∧ (depth = 0 → result.1 = []) := by
  induction waiting generalizing last with
  | nil => exact ensures_pure.mpr ⟨hlaid, fun _ => rfl⟩
  | cons entry waiting ih =>
    obtain ⟨run, runDepth⟩ := entry
    unfold collapse
    split
    · obtain ⟨hrun, hwaiting⟩ := List.forall_mem_cons.mp hlaid.good
      obtain ⟨-, hlast, hperm, hkept⟩ := hlaid
      rw [laid_cons, List.append_assoc (laid waiting)] at hperm hkept
      have htwo := (List.pairwise_append.mp (List.pairwise_append.mp hkept).1).2.1
      refine ensures_bind.mpr ((ensures_join h hfinish hrun hlast htwo).mono
        fun joined ⟨hgood, hjoined, hpairwise⟩ => ih ⟨hwaiting, hgood, ?_, ?_⟩)
      · exact ((hjoined.append_left (laid waiting)).append_right rest).trans hperm
      · exact pairwise_replace hkept hjoined hpairwise
    · rename_i hdepth
      exact ensures_pure.mpr ⟨hlaid, fun hzero => absurd (hzero ▸ Nat.zero_le _) hdepth⟩

/-- The last run waits, and the next one takes a piece of the rest. -/
theorem Laid.next {depth : Nat} {run : Run α} (hlaid : Laid less R all rest waiting last)
    (hgood : run.Good R) (hperm : run.items.Perm (rest.take run.items.length))
    (hkept : run.items.Pairwise (Kept less R)) :
    Laid less R all (rest.drop run.items.length) ((last, depth) :: waiting) run := by
  obtain ⟨hwaiting, hlast, hall, hpairwise⟩ := hlaid
  rw [← List.take_append_drop run.items.length rest, ← List.append_assoc] at hall hpairwise
  refine ⟨List.forall_mem_cons.mpr ⟨hlast, hwaiting⟩, hgood, ?_, ?_⟩
  · rw [laid_cons]
    exact ((hperm.append_left _).append_right _).trans hall
  · rw [laid_cons]
    exact pairwise_replace hpairwise hperm hkept

/-- **All runs become one.** -/
theorem ensures_sweep (h : Ranks less R) (hfinish : Finishes less R finish) (eager : Bool)
    {length : Nat} (hlength : 0 < length) (previous : Nat)
    (hlaid : Laid less R all rest waiting last) :
    (sweep finish eager total length rest previous waiting last).Ensures less fun run =>
      run.Good R ∧ run.items.Perm all ∧ run.items.Pairwise (Kept less R) := by
  induction hn : rest.length using Nat.strongRecOn generalizing rest previous waiting last with
  | ind n ih =>
    subst hn
    rcases rest with - | ⟨x, items⟩
    · rw [sweep]
      refine ensures_bind.mpr ((ensures_collapse h hfinish 0 hlaid).mono fun runs hruns =>
        ensures_pure.mpr ?_)
      obtain ⟨waiting, run⟩ := runs
      obtain ⟨⟨-, hgood, hperm, hkept⟩, hnil⟩ := hruns
      obtain rfl : waiting = [] := hnil rfl
      rw [List.append_nil] at hperm hkept
      exact ⟨hgood, hperm, hkept⟩
    · rw [sweep]
      have hrest := (List.pairwise_append.mp hlaid.kept).2.1
      refine ensures_bind.mpr ((ensures_nextRun h eager hlength (List.cons_ne_nil x items)
        hrest).mono fun run hrun => ?_)
      obtain ⟨hgood, hne, hperm, hkept⟩ := hrun
      have hpos := List.length_pos_iff.mpr hne
      have hdrop : items.drop (run.items.length - 1) = (x :: items).drop run.items.length := by
        rw [← Nat.sub_add_cancel hpos, List.drop_succ_cons, Nat.add_sub_cancel]
      refine ensures_bind.mpr ((ensures_collapse h hfinish _ hlaid).mono fun runs hruns => ?_)
      obtain ⟨waiting, last⟩ := runs
      obtain ⟨hlaid, -⟩ := hruns
      refine ih _ ?_ _ (hdrop ▸ hlaid.next hgood hperm hkept) rfl
      rw [List.length_drop, List.length_cons]
      omega

theorem goodLength_pos {n : Nat} (hn : 0 < n) : 0 < goodLength n := by
  unfold goodLength
  split
  · omega
  · have hlog : 1 ≤ n.log2 := (Nat.le_log2 (by omega)).mpr (by omega)
    have hshift : 2 ≤ Nat.shiftLeft 1 ((1 + n.log2) / 2) := by
      show 2 ≤ 1 <<< ((1 + n.log2) / 2)
      rw [Nat.one_shiftLeft]
      exact Nat.le_self_pow (by omega) 2
    dsimp only
    omega

/-- **Items are sorted by runs.** -/
theorem sorts_drift (h : Ranks less R) (hfinish : Finishes less R finish) (eager : Bool)
    (hne : items ≠ []) (hitems : items.Pairwise (Kept less R)) :
    Sorts less R items (drift finish eager items) := by
  have hlength := goodLength_pos (List.length_pos_iff.mpr hne)
  refine ensures_bind.mpr ((ensures_nextRun h eager hlength hne hitems).mono fun first hfirst => ?_)
  obtain ⟨hgood, -, hperm, hkept⟩ := hfirst
  have hlaid : Laid less R items (items.drop first.items.length) [] first := by
    have hall : (first.items ++ items.drop first.items.length).Perm items := by
      simpa only [List.take_append_drop] using
        hperm.append_right (items.drop first.items.length)
    refine ⟨nofun, hgood, hall, ?_⟩
    rw [← List.take_append_drop first.items.length items] at hitems
    exact @pairwise_replace _ _ [] _ _ _ hitems hperm hkept
  refine ensures_bind.mpr ((ensures_sweep h hfinish eager hlength _ hlaid).mono fun run hrun => ?_)
  obtain ⟨hgood, hperm, hkept⟩ := hrun
  exact (sorts_finished hfinish hgood hkept).mono fun _ hsorted =>
    ⟨hsorted.1.trans hperm, hsorted.2⟩

end

end Mustache.Sorting
