import Mathlib.Tactic.SplitIfs
import Mustache.Proofs.Sorting.Ensures
import Mustache.Sorting.Small

/-!
# Small lists are sorted

Insertion sort puts items in order for any answers that tell a transitive relation. The merge from
both ends needs answers of a total order: there the two ends meet, since an item taken twice would
leave another one that is taken by neither, and each of the two would have to come first.

* `ensures_insert`, `ensures_insertAll`, **`sorts_insertion`**;
* `Woven.Merges`: what a merge takes and leaves; **`ensures_weave`**;
* **`sorts_merge`**, **`sorts_mergeEnds`**;
* `sorts_sortFour`, **`sorts_smallSort`**.
-/

namespace Mustache.Sorting

open Procedure

variable {α : Type} {less : α → α → Bool} {R : α → α → Prop} {x : α} {xs ys items sorted : List α}

/-! ## Insertion -/

/-- An item is inserted where it belongs. -/
theorem ensures_insert (h : Tells less R) (hsorted : sorted.Pairwise fun y z => R z y)
    (hx : ∀ y ∈ sorted, Kept less R y x) :
    (insert x sorted).Ensures less fun result =>
      result.Perm (x :: sorted) ∧ result.Pairwise fun y z => R z y := by
  induction sorted with
  | nil => exact ensures_pure.mpr ⟨.refl _, List.pairwise_singleton _ _⟩
  | cons y ys ih =>
    obtain ⟨hy, hys⟩ := List.pairwise_cons.mp hsorted
    obtain ⟨hyx, hx⟩ := List.forall_mem_cons.mp hx
    rw [insert, ensures_bind, ensures_less]
    split
    · rename_i hless
      refine ensures_bind.mpr ((ih hys hx).mono fun rest ⟨hperm, hrest⟩ => ?_)
      refine ensures_pure.mpr ⟨(hperm.cons y).trans (.swap x y ys), ?_⟩
      refine List.pairwise_cons.mpr ⟨fun z hz => ?_, hrest⟩
      obtain rfl | hz := List.mem_cons.mp (hperm.mem_iff.mp hz)
      · exact h.of_less hless
      · exact hy z hz
    · rename_i hless
      have hfirst : R y x := hyx (Bool.eq_false_iff.mpr hless)
      refine ensures_pure.mpr ⟨.refl _, List.pairwise_cons.mpr ⟨?_, hsorted⟩⟩
      exact List.forall_mem_cons.mpr ⟨hfirst, fun z hz => h.trans (hy z hz) hfirst⟩

theorem ensures_insertAll (h : Tells less R) (hsorted : sorted.Pairwise fun y z => R z y)
    (hitems : items.Pairwise (Kept less R)) (hcross : ∀ y ∈ sorted, ∀ x ∈ items, Kept less R y x) :
    (insertAll sorted items).Ensures less fun result =>
      result.Perm (sorted ++ items) ∧ result.Pairwise R := by
  induction items generalizing sorted with
  | nil =>
    refine ensures_pure.mpr ⟨?_, List.pairwise_reverse.mpr hsorted⟩
    rw [List.append_nil]
    exact List.reverse_perm sorted
  | cons x items ih =>
    obtain ⟨hx, hitems⟩ := List.pairwise_cons.mp hitems
    have hinsert := ensures_insert h hsorted fun y hy => hcross y hy x List.mem_cons_self
    refine ensures_bind.mpr (hinsert.mono fun result ⟨hperm, hresult⟩ => ?_)
    refine (ih hresult hitems fun y hy z hz => ?_).mono fun all ⟨hall, hpairwise⟩ => ?_
    · obtain rfl | hy := List.mem_cons.mp (hperm.mem_iff.mp hy)
      · exact hx z hz
      · exact hcross y hy z (List.mem_cons_of_mem x hz)
    · exact ⟨(hall.trans (hperm.append_right items)).trans List.perm_middle.symm, hpairwise⟩

/-- **Insertion sort sorts.** -/
theorem sorts_insertion (h : Tells less R) (hitems : items.Pairwise (Kept less R)) :
    Sorts less R items (insertion items) :=
  ensures_insertAll h .nil hitems nofun

/-! ## Merging -/

/-- What a merge has taken comes before what it leaves. It takes as many items as it may, if both
lists have so many, and all of one list if it may take all. -/
structure Woven.Merges (S : α → α → Prop) (n : Nat) (xs ys : List α) (w : Woven α) : Prop where
  parts : ∃ a b, xs = a ++ w.left ∧ ys = b ++ w.right ∧ w.taken.Perm (a ++ b)
  sorted : w.taken.Pairwise S
  before : ∀ x ∈ w.taken, ∀ y ∈ w.left ++ w.right, S x y
  length : n ≤ xs.length → n ≤ ys.length → w.taken.length = n
  ended : xs.length + ys.length ≤ n → w.left = [] ∨ w.right = []

namespace Woven.Merges

variable {S : α → α → Prop} {n : Nat} {w : Woven α}

theorem swap (h : w.Merges S n xs ys) : Woven.Merges S n ys xs ⟨w.taken, w.right, w.left⟩ where
  parts := by
    obtain ⟨a, b, ha, hb, hperm⟩ := h.parts
    exact ⟨b, a, hb, ha, hperm.trans List.perm_append_comm⟩
  sorted := h.sorted
  before x hx y hy := h.before x hx y (List.mem_append.mpr (List.mem_append.mp hy).symm)
  length hys hxs := h.length hxs hys
  ended hn := (h.ended (Nat.add_comm _ _ ▸ hn)).symm

/-- Another item is taken first. -/
theorem takeLeft (h : w.Merges S n xs ys) (hx : ∀ y ∈ xs ++ ys, S x y) :
    Woven.Merges S (n + 1) (x :: xs) ys { w with taken := x :: w.taken } := by
  obtain ⟨a, b, rfl, rfl, hperm⟩ := h.parts
  simp only [List.mem_append] at hx
  refine ⟨⟨x :: a, b, rfl, rfl, hperm.cons x⟩, ?_, ?_, fun hxs hys => ?_, fun hn => ?_⟩
  · refine List.pairwise_cons.mpr ⟨fun y hy => hx y ?_, h.sorted⟩
    exact (List.mem_append.mp (hperm.mem_iff.mp hy)).imp .inl .inl
  · refine List.forall_mem_cons.mpr ⟨fun y hy => hx y ?_, h.before⟩
    exact (List.mem_append.mp hy).imp .inr .inr
  · exact congrArg (· + 1) (h.length (Nat.le_of_succ_le_succ hxs) (Nat.le_of_succ_le hys))
  · rw [List.length_cons] at hn
    exact h.ended (by omega)

theorem takeRight {y : α} (h : w.Merges S n xs ys) (hy : ∀ x ∈ xs ++ ys, S y x) :
    Woven.Merges S (n + 1) xs (y :: ys) { w with taken := y :: w.taken } :=
  (h.swap.takeLeft fun x hx => hy x (List.mem_append.mpr (List.mem_append.mp hx).symm)).swap

/-- All items of two lists, if one of them is taken whole. -/
theorem all (h : w.Merges S n xs ys) (hxs : xs.Pairwise S) (hys : ys.Pairwise S)
    (hn : xs.length + ys.length ≤ n) :
    (w.taken ++ (w.left ++ w.right)).Perm (xs ++ ys) ∧
      (w.taken ++ (w.left ++ w.right)).Pairwise S := by
  obtain ⟨a, b, ha, hb, hperm⟩ := h.parts
  have hrest : (w.left ++ w.right).Pairwise S := by
    rw [ha] at hxs
    rw [hb] at hys
    obtain hnil | hnil := h.ended hn
    · rw [hnil]
      exact (List.pairwise_append.mp hys).2.1
    · rw [hnil, List.append_nil]
      exact (List.pairwise_append.mp hxs).2.1
  refine ⟨?_, List.pairwise_append.mpr ⟨h.sorted, hrest, h.before⟩⟩
  have hab : ((a ++ b) ++ (w.left ++ w.right)).Perm ((a ++ w.left) ++ (b ++ w.right)) := by
    simp only [List.append_assoc]
    exact List.Perm.append_left a (List.perm_append_comm_assoc b w.left w.right)
  rw [ha, hb]
  exact (hperm.append_right _).trans hab

end Woven.Merges

/-- **What a merge does** to lists in an order, if the answers tell from which of them the next item
has to come. -/
theorem ensures_weave {S : α → α → Prop} (htrans : ∀ x y z, S x y → S y z → S x z)
    {answer : Bool} {n : Nat} (hxs : xs.Pairwise S) (hys : ys.Pairwise S)
    (htold : ∀ x ∈ xs, ∀ y ∈ ys, if less y x = answer then S x y else S y x) :
    (weave answer n xs ys).Ensures less (Woven.Merges S n xs ys) := by
  fun_induction weave answer n xs ys with
  | case1 n x xs y ys ihx ihy =>
    obtain ⟨hx, hxs'⟩ := List.pairwise_cons.mp hxs
    obtain ⟨hy, hys'⟩ := List.pairwise_cons.mp hys
    have hfirst := htold x List.mem_cons_self y List.mem_cons_self
    rw [ensures_bind, ensures_less]
    split
    · rename_i heq
      rw [if_pos (beq_iff_eq.mp heq)] at hfirst
      refine ensures_bind.mpr ((ihx hxs' hys fun z hz => htold z (List.mem_cons_of_mem x hz)).mono
        fun w hw => ensures_pure.mpr (hw.takeLeft ?_))
      exact List.forall_mem_append.mpr
        ⟨hx, List.forall_mem_cons.mpr ⟨hfirst, fun z hz => htrans x y z hfirst (hy z hz)⟩⟩
    · rename_i hne
      rw [if_neg (beq_iff_eq.not.mp hne)] at hfirst
      refine ensures_bind.mpr ((ihy hxs hys' fun z hz v hv =>
        htold z hz v (List.mem_cons_of_mem y hv)).mono
        fun w hw => ensures_pure.mpr (hw.takeRight ?_))
      exact List.forall_mem_append.mpr
        ⟨List.forall_mem_cons.mpr ⟨hfirst, fun z hz => htrans y x z hfirst (hx z hz)⟩, hy⟩
  | case2 n xs ys hne =>
    -- no item may be taken, or one list has ended
    have hends : n = 0 ∨ xs = [] ∨ ys = [] := by
      rcases n with - | n
      · exact .inl rfl
      · rcases xs with - | ⟨x, xs⟩
        · exact .inr (.inl rfl)
        · rcases ys with - | ⟨y, ys⟩
          · exact .inr (.inr rfl)
          · exact (hne n x xs y ys rfl rfl rfl).elim
    refine ensures_pure.mpr ⟨⟨[], [], rfl, rfl, .refl _⟩, .nil, nofun, fun hxs hys => ?_,
      fun hn => ?_⟩
    · obtain rfl | rfl | rfl := hends
      · rfl
      · exact (Nat.le_zero.mp hxs).symm
      · exact (Nat.le_zero.mp hys).symm
    · obtain rfl | hnil := hends
      · have hzero := Nat.eq_zero_of_add_eq_zero_right (Nat.le_zero.mp hn)
        exact .inl (List.length_eq_zero_iff.mp hzero)
      · exact hnil

section

variable (h : Tells less R) (hxs : xs.Pairwise R) (hys : ys.Pairwise R)
  (hcross : ∀ x ∈ xs, ∀ y ∈ ys, Kept less R x y) {n : Nat}

include h hxs hys hcross

theorem ensures_mergeUp : (mergeUp n xs ys).Ensures less (Woven.Merges R n xs ys) := by
  refine ensures_weave (S := R) (fun _ _ _ => h.trans) hxs hys fun x hx y hy => ?_
  split
  · rename_i hless
    exact hcross x hx y hy hless
  · rename_i hless
    exact h.of_less (Bool.not_eq_false _ ▸ hless)

theorem ensures_mergeDown : (mergeDown n xs ys).Ensures less
    (Woven.Merges (fun x y => R y x) n xs.reverse ys.reverse) := by
  refine ensures_weave (S := fun x y => R y x) (fun _ _ _ hxy hyz => h.trans hyz hxy)
    (List.pairwise_reverse.mpr hxs) (List.pairwise_reverse.mpr hys) fun x hx y hy => ?_
  split
  · rename_i hless
    exact h.of_less hless
  · rename_i hless
    exact hcross x (List.mem_reverse.mp hx) y (List.mem_reverse.mp hy) (Bool.eq_false_iff.mpr hless)

/-- **Sorted lists are merged.** -/
theorem sorts_merge : Sorts less R (xs ++ ys) (merge xs ys) := by
  unfold merge
  split
  · refine ensures_bind.mpr ((ensures_mergeUp h hxs hys hcross).mono fun w hw => ?_)
    rw [List.append_assoc]
    exact ensures_pure.mpr (hw.all hxs hys (Nat.le_refl _))
  · refine ensures_bind.mpr ((ensures_mergeDown h hxs hys hcross).mono fun w hw => ?_)
    obtain ⟨hperm, hpairwise⟩ := hw.all (List.pairwise_reverse.mpr hxs)
      (List.pairwise_reverse.mpr hys) (by simp)
    have hresult : w.right.reverse ++ w.left.reverse ++ w.taken.reverse =
        (w.taken ++ (w.left ++ w.right)).reverse := by
      simp only [List.reverse_append]
    rw [hresult]
    refine ensures_pure.mpr ⟨(List.reverse_perm _).trans (hperm.trans ?_),
      List.pairwise_reverse.mpr hpairwise⟩
    exact (List.reverse_perm xs).append (List.reverse_perm ys)

end

/-! ## Both ends -/

/-- Two cuts of a list leave a gap between them, or what they cut off has an item in common. -/
theorem gap_or_overlap {a u v c : List α} (h : a ++ u = v ++ c) :
    (∃ gap, v = a ++ gap ∧ u = gap ++ c) ∨ (∃ x ∈ a, x ∈ c) ∧ u.length < c.length := by
  obtain ⟨gap, hv, hu⟩ | ⟨common, ha, hc⟩ := List.append_eq_append_iff.mp h
  · exact .inl ⟨gap, hv, hu⟩
  · rcases common with - | ⟨x, common⟩
    · exact .inl ⟨[], by rw [ha, List.append_nil, List.append_nil], hc.symm⟩
    · refine .inr ⟨⟨x, ?_, ?_⟩, ?_⟩
      · rw [ha]
        exact List.mem_append_right v List.mem_cons_self
      · rw [hc]
        exact List.mem_append_left u List.mem_cons_self
      · rw [hc, List.length_append, List.length_cons]
        omega

section

variable {a b c d u u' v v' : List α}

/-- Of two lists the items of `a` and `b` are taken from the start and those of `c` and `d` from the
end, no more in all than there are. If an item of the first list were taken twice, one of the second
would be left out, and each would come first. -/
theorem exists_gap (hasymm : ∀ x y, R x y → ¬R y x) (hx : a ++ u = v ++ c) (hy : b ++ u' = v' ++ d)
    (hlength : a.length + b.length + (c.length + d.length) ≤ (a ++ u).length + (b ++ u').length)
    (hfront : ∀ x ∈ a, ∀ y ∈ u', R x y) (hback : ∀ x ∈ c, ∀ y ∈ v', R y x) :
    ∃ gap, v = a ++ gap ∧ u = gap ++ c := by
  obtain hgap | ⟨⟨x, hxa, hxc⟩, hlt⟩ := gap_or_overlap hx
  · exact hgap
  · simp only [List.length_append] at hlength
    obtain ⟨gap, rfl, rfl⟩ | ⟨-, hlt'⟩ := gap_or_overlap hy
    · obtain ⟨y, hy⟩ : ∃ y, y ∈ gap := by
        refine List.exists_mem_of_length_pos ?_
        rw [List.length_append] at hlength
        omega
      exact absurd (hback x hxc y (List.mem_append_right b hy))
        (hasymm x y (hfront x hxa y (List.mem_append_left d hy)))
    · omega

/-- **The two ends of a merge do not overlap.** -/
theorem exists_gaps (hasymm : ∀ x y, R x y → ¬R y x) (hx : a ++ u = v ++ c)
    (hy : b ++ u' = v' ++ d)
    (hlength : a.length + b.length + (c.length + d.length) ≤ (a ++ u).length + (b ++ u').length)
    (hfront : ∀ x ∈ a ++ b, ∀ y ∈ u ++ u', R x y) (hback : ∀ x ∈ c ++ d, ∀ y ∈ v ++ v', R y x) :
    ∃ gap gap', v = a ++ gap ∧ u = gap ++ c ∧ v' = b ++ gap' ∧ u' = gap' ++ d := by
  simp only [List.mem_append] at hfront hback
  obtain ⟨gap, hv, hu⟩ := exists_gap hasymm hx hy hlength
    (fun x hx y hy => hfront x (.inl hx) y (.inr hy))
    (fun x hx y hy => hback x (.inl hx) y (.inr hy))
  obtain ⟨gap', hv', hu'⟩ := exists_gap hasymm hy hx (by omega)
    (fun x hx y hy => hfront x (.inr hx) y (.inl hy))
    (fun x hx y hy => hback x (.inr hx) y (.inl hy))
  exact ⟨gap, gap', hv, hu, hv', hu'⟩

end

/-- What is taken from the start and from the end, with the gaps between. -/
structure Woven.Meets (R : α → α → Prop) (xs ys gap gap' : List α) (front back : Woven α) :
    Prop where
  perm : (front.taken ++ (gap ++ gap') ++ back.taken.reverse).Perm (xs ++ ys)
  pairwise : (gap ++ gap').Pairwise R →
    (front.taken ++ (gap ++ gap') ++ back.taken.reverse).Pairwise R
  length : front.left.length + back.left.length = xs.length + gap.length
  left : gap <+: front.left
  right : gap' <+: front.right

/-- **The two ends of a merge meet.** -/
theorem Woven.Merges.meets (h : Ranks less R) {n : Nat} {front back : Woven α}
    (hfront : front.Merges R n xs ys)
    (hback : back.Merges (fun x y => R y x) n xs.reverse ys.reverse) (hxs : n ≤ xs.length)
    (hys : n ≤ ys.length) : ∃ gap gap', front.Meets R xs ys gap gap' back ∧
      gap.length + gap'.length + (n + n) = xs.length + ys.length := by
  obtain ⟨a, b, ha, hb, hab⟩ := hfront.parts
  obtain ⟨c, d, hc, hd, hcd⟩ := hback.parts
  have hx : a ++ front.left = back.left.reverse ++ c.reverse := by
    rw [← ha, ← List.reverse_append, ← hc, List.reverse_reverse]
  have hy : b ++ front.right = back.right.reverse ++ d.reverse := by
    rw [← hb, ← List.reverse_append, ← hd, List.reverse_reverse]
  have hn : a.length + b.length = n := by
    rw [← List.length_append, ← hab.length_eq, hfront.length hxs hys]
  have hn' : c.length + d.length = n := by
    rw [← List.length_append, ← hcd.length_eq,
      hback.length (by rwa [List.length_reverse]) (by rwa [List.length_reverse])]
  have hfirst : ∀ x ∈ a ++ b, ∀ y ∈ front.left ++ front.right, R x y :=
    fun x hx => hfront.before x (hab.mem_iff.mpr hx)
  have hlast : ∀ x ∈ c.reverse ++ d.reverse, ∀ y ∈ back.left.reverse ++ back.right.reverse,
      R y x := by
    simp only [List.mem_append, List.mem_reverse]
    exact fun x hx y hy => hback.before x (hcd.mem_iff.mpr (List.mem_append.mpr hx)) y
      (List.mem_append.mpr hy)
  obtain ⟨gap, gap', hgap, hleft, hgap', hright⟩ := exists_gaps (fun _ _ => h.asymm) hx hy
    (by simp only [List.length_reverse, ← ha, ← hb]; omega) hfirst hlast
  rw [hleft] at ha
  rw [hright] at hb
  refine ⟨gap, gap', ⟨?_, fun hgaps => ?_, ?_, ⟨_, hleft.symm⟩, ⟨_, hright.symm⟩⟩, ?_⟩
  · classical
    refine List.perm_iff_count.mpr fun x => ?_
    have hcount := hab.count_eq x
    have hcount' := hcd.count_eq x
    simp only [ha, hb, List.count_append, List.count_reverse] at hcount hcount' ⊢
    omega
  · have hback' : ∀ x ∈ back.taken, x ∈ c.reverse ++ d.reverse := fun x hx => by
      simpa using hcd.mem_iff.mp hx
    rw [hleft, hright] at hfirst
    rw [hgap, hgap'] at hlast
    simp only [List.mem_append, List.mem_reverse] at hfirst hlast hback'
    simp only [List.pairwise_append, List.pairwise_reverse, List.mem_append, List.mem_reverse]
    refine ⟨⟨hfront.sorted, List.pairwise_append.mp hgaps, fun x hx y hy => ?_⟩, hback.sorted, ?_⟩
    · exact hfirst x (List.mem_append.mp (hab.mem_iff.mp hx)) y (hy.imp .inl .inl)
    · rintro x (hx | hx) y hy
      · exact hfirst x (List.mem_append.mp (hab.mem_iff.mp hx)) y ((hback' y hy).imp .inr .inr)
      · exact hlast y (hback' y hy) x (hx.imp .inr .inr)
  · have hlength := congrArg List.length hgap
    simp only [ha, hleft, List.length_append, List.length_reverse] at hlength ⊢
    omega
  · simp only [ha, hb, List.length_append, List.length_reverse]
    omega

/-- **Sorted halves are merged from both ends.** -/
theorem sorts_mergeEnds (h : Ranks less R) (hxs : xs.Pairwise R) (hys : ys.Pairwise R)
    (hcross : ∀ x ∈ xs, ∀ y ∈ ys, Kept less R x y) (hle : xs.length ≤ ys.length)
    (hlast : ys.length ≤ xs.length + 1) : Sorts less R (xs ++ ys) (mergeEnds xs ys) := by
  refine ensures_bind.mpr ((ensures_mergeUp h.toTells hxs hys hcross).mono fun front hfront => ?_)
  refine ensures_bind.mpr ((ensures_mergeDown h.toTells hxs hys hcross).mono fun back hback => ?_)
  obtain ⟨gap, gap', hmeets, hlength⟩ := hfront.meets h hback (Nat.le_refl _) hle
  have hgaps : (gap ++ gap').Pairwise R := by
    match hgap : gap ++ gap' with
    | [] => exact .nil
    | [x] => exact List.pairwise_singleton R x
    | x :: y :: more =>
      have := congrArg List.length hgap
      simp only [List.length_append, List.length_cons] at this
      omega
  have hsorted := And.intro hmeets.perm (hmeets.pairwise hgaps)
  show Procedure.Ensures _ _ (if _ then _ else _)
  rw [hmeets.length]
  -- an item in the gaps is the last one of an odd number
  rcases gap with - | ⟨x, gap⟩
  · rw [List.length_nil, Nat.add_zero, if_pos rfl]
    have hright : front.right.take (ys.length - xs.length) = gap' := by
      rw [List.prefix_iff_eq_take.mp hmeets.right]
      congr 1
      simp only [List.length_nil] at hlength
      omega
    rw [hright]
    exact ensures_pure.mpr hsorted
  · simp only [List.length_cons] at hlength
    obtain rfl : gap = [] := List.length_eq_zero_iff.mp (by omega)
    obtain rfl : gap' = [] := List.length_eq_zero_iff.mp (by omega)
    have hleft : front.left.take 1 = [x] := (List.prefix_iff_eq_take.mp hmeets.left).symm
    rw [if_neg (by simp), if_pos ⟨rfl, by simp at hlength; omega⟩, hleft]
    exact ensures_pure.mpr hsorted

/-! ## Small lists -/

/-- Two items in order, and what is left to say of those before and after them. -/
theorem ordered_pair (h : Tells less R) {p q : α} (hpq : Kept less R p q) :
    let pair := if less q p = true then (q, p) else (p, q)
    R pair.1 pair.2 ∧ [pair.1, pair.2].Perm [p, q] := by
  dsimp only
  split
  · rename_i hless
    exact ⟨h.of_less hless, .swap p q []⟩
  · rename_i hless
    exact ⟨hpq (Bool.eq_false_iff.mpr hless), .refl _⟩

theorem pairwise_four (h : Tells less R) {w x y z : α} (hwx : R w x) (hxy : R x y) (hyz : R y z) :
    [w, x, y, z].Pairwise R := by
  have hwy := h.trans hwx hxy
  have hxz := h.trans hxy hyz
  simp [hwx, hwy, h.trans hwy hyz, hxy, hxz, hyz]

/-- **Four items are sorted.** -/
theorem sorts_sortFour (h : Tells less R) {p q r s : α}
    (hitems : ([p, q] ++ [r, s]).Pairwise (Kept less R)) :
    Sorts less R [p, q, r, s] (sortFour p q r s) := by
  obtain ⟨hpq, hrs, hcross⟩ := List.pairwise_append.mp hitems
  obtain ⟨hab, hperm⟩ := ordered_pair h (List.rel_of_pairwise_cons hpq List.mem_cons_self)
  obtain ⟨hcd, hperm'⟩ := ordered_pair h (List.rel_of_pairwise_cons hrs List.mem_cons_self)
  simp only [Sorts, sortFour, ensures_bind, ensures_less]
  generalize (if less q p = true then (q, p) else (p, q)) = pair at *
  generalize (if less s r = true then (s, r) else (r, s)) = pair' at *
  obtain ⟨a, b⟩ := pair
  obtain ⟨c, d⟩ := pair'
  dsimp only at *
  have hkept : ∀ x ∈ [a, b], ∀ y ∈ [c, d], less y x = false → R x y :=
    fun x hx y hy => hcross x (hperm.mem_iff.mp hx) y (hperm'.mem_iff.mp hy)
  have hall : [a, b, c, d].Perm [p, q, r, s] := hperm.append hperm'
  have hswap : [a, c, b, d].Perm [p, q, r, s] := ((List.Perm.swap b c [d]).cons a).trans hall
  have hturn : [c, a, b, d].Perm [p, q, r, s] := (List.Perm.swap a c [b, d]).trans hswap
  have hnext : [a, c, d, b].Perm [p, q, r, s] :=
    (((List.Perm.swap b d []).cons c).cons a).trans hswap
  -- the least and the greatest of the four are known after two more answers
  cases hca : less c a <;> cases hdb : less d b <;>
    simp only [Bool.false_eq_true, if_true, if_false]
  · have hac := hkept a (by simp) c (by simp) hca
    have hbd := hkept b (by simp) d (by simp) hdb
    split
    · exact ensures_pure.mpr ⟨hswap, pairwise_four h hac (h.of_less ‹_›) hbd⟩
    · have hbc := hkept b (by simp) c (by simp) (Bool.eq_false_iff.mpr ‹_›)
      exact ensures_pure.mpr ⟨hall, pairwise_four h hab hbc hcd⟩
  · have hac := hkept a (by simp) c (by simp) hca
    have hdb := h.of_less hdb
    split
    · exact ensures_pure.mpr ⟨(((List.Perm.swap c d [b]).cons a)).trans hnext,
        pairwise_four h (h.trans hac hcd) (h.of_less ‹_›) (h.trans hcd hdb)⟩
    · exact ensures_pure.mpr ⟨hnext, pairwise_four h hac hcd hdb⟩
  · have hca := h.of_less hca
    have hbd := hkept b (by simp) d (by simp) hdb
    split
    · exact ensures_pure.mpr ⟨((List.Perm.swap a b [d]).cons c).trans hturn,
        pairwise_four h (h.trans hca hab) (h.of_less ‹_›) (h.trans hab hbd)⟩
    · exact ensures_pure.mpr ⟨hturn, pairwise_four h hca hab hbd⟩
  · have hca := h.of_less hca
    have hdb := h.of_less hdb
    have hlast : [c, a, d, b].Perm [p, q, r, s] := (List.Perm.swap a c [d, b]).trans hnext
    split
    · exact ensures_pure.mpr ⟨((List.Perm.swap a d [b]).cons c).trans hlast,
        pairwise_four h hcd (h.of_less ‹_›) hab⟩
    · have had := hkept a (by simp) d (by simp) (Bool.eq_false_iff.mpr ‹_›)
      exact ensures_pure.mpr ⟨hlast, pairwise_four h hca had hdb⟩

theorem sorts_sortHalf (h : Tells less R) (four : Bool) (hitems : items.Pairwise (Kept less R)) :
    Sorts less R items (sortHalf four items) := by
  unfold sortHalf
  split
  · rename_i p q r s items
    rw [show p :: q :: r :: s :: items = [p, q, r, s] ++ items from rfl] at hitems ⊢
    obtain ⟨hfour, hitems, hcross⟩ := List.pairwise_append.mp hitems
    refine ensures_bind.mpr ((sorts_sortFour h hfour).mono fun sorted ⟨hperm, hsorted⟩ => ?_)
    have hreverse : sorted.reverse.Perm [p, q, r, s] := (List.reverse_perm sorted).trans hperm
    refine (ensures_insertAll h (List.pairwise_reverse.mpr hsorted) hitems
      fun y hy => hcross y (hreverse.mem_iff.mp hy)).mono fun result ⟨hresult, hpairwise⟩ => ?_
    exact ⟨hresult.trans (hreverse.append_right items), hpairwise⟩
  · exact sorts_insertion h hitems

/-- **Small lists are sorted.** -/
theorem sorts_smallSort (h : Ranks less R) (hitems : items.Pairwise (Kept less R)) :
    Sorts less R items (smallSort items) := by
  unfold smallSort
  split
  · rename_i hlength
    refine ensures_pure.mpr ⟨.refl _, ?_⟩
    match items, hlength with
    | [], _ => exact .nil
    | [x], _ => exact List.pairwise_singleton R x
  · rename_i hlength
    rw [← List.take_append_drop (items.length / 2) items] at hitems
    obtain ⟨hfirst, hsecond, hcross⟩ := List.pairwise_append.mp hitems
    dsimp only
    refine ensures_bind.mpr ((sorts_sortHalf h.toTells _ hfirst).mono fun xs ⟨hxs, hxs'⟩ => ?_)
    refine ensures_bind.mpr ((sorts_sortHalf h.toTells _ hsecond).mono fun ys ⟨hys, hys'⟩ => ?_)
    have hlengths := And.intro hxs.length_eq hys.length_eq
    rw [List.length_take, List.length_drop] at hlengths
    refine (sorts_mergeEnds h hxs' hys'
      (fun x hx y hy => hcross x (hxs.mem_iff.mp hx) y (hys.mem_iff.mp hy)) (by omega)
      (by omega)).mono fun sorted ⟨hperm, hsorted⟩ => ⟨?_, hsorted⟩
    have hall := hperm.trans (hxs.append hys)
    rwa [List.take_append_drop] at hall

end Mustache.Sorting
