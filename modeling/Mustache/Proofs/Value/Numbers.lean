import Mustache.Proofs.Double.OfInt
import Mustache.Proofs.Value.Sort

/-!
# Sorted numbers

Two integers compare exactly, but an integer meets a number with a point as the double nearest to
it. Where two integers have the same double and this double is there as a number with a point, it
equals both of them while they differ, and the comparison is no total order any more. Only then:
unless this happens numbers are sorted by their comparison. A few numbers are sorted by their
doubles in any case.

* `Value.IsNumber`, `Value.toDouble`, `Value.numberOrder`: numbers and how they compare;
* `Value.Preordered`: the values compare as a total order with ties;
* `Value.Blurred`: a number with a point equals integers that differ; **`preordered_iff`**;
* **`Transform.result?_sorted_numbers`**.
-/

namespace Mustache

open Sorting Sorting.Procedure

namespace Value

variable {items sorted : List Value} {v w : Value}

/-- An integer of 64 bits or a finite number with a point. -/
def IsNumber : Value → Prop
  | .int n => minInt ≤ n ∧ n ≤ maxInt
  | .float x => x.isFinite
  | _ => False

instance : DecidablePred IsNumber := fun v =>
  match v with
  | .int n => inferInstanceAs (Decidable (minInt ≤ n ∧ n ≤ maxInt))
  | .float x => inferInstanceAs (Decidable (x.isFinite = true))
  | .null | .bool _ | .text _ | .sequence _ | .map _ | .lambda _ _ | .object _ _ _ _ _ =>
    inferInstanceAs (Decidable False)

/-- The double as which a number meets one with a point. -/
def toDouble : Value → Float
  | .int n => Float.ofInt n
  | .float x => x
  | _ => 0

/-- Numbers in the order of their doubles. -/
def doubleOrder (v w : Value) : Ordering := Double.order v.toDouble w.toDouble

instance : Std.TransCmp doubleOrder :=
  transCmp_on Double.order toDouble

/-- How numbers compare: two integers exactly, others by their doubles. -/
def numberOrder : Value → Value → Ordering
  | .int m, .int n => compare m n
  | v, w => doubleOrder v w

theorem isFinite_toDouble (h : IsNumber v) : v.toDouble.isFinite := by
  cases v with
  | int n => exact Double.isFinite_ofInt h.1 h.2
  | float x => exact h
  | _ => nomatch h

theorem compare?_of_isNumber (hv : IsNumber v) (hw : IsNumber w) :
    compare? v w = some (numberOrder v w) := by
  have hdouble := Double.compareFloat?_of_isFinite (isFinite_toDouble hv) (isFinite_toDouble hw)
  cases v with
  | int m =>
    cases w with
    | int n => rfl
    | float y => exact hdouble
    | _ => nomatch hw
  | float x =>
    cases w with
    | int n => exact hdouble
    | float y => exact hdouble
    | _ => nomatch hw
  | _ => nomatch hv

/-- Numbers compare as the order of numbers says. -/
theorem ordered_of_isNumber (h : ∀ v ∈ items, IsNumber v) : Ordered numberOrder items :=
  fun v hv w hw => compare?_of_isNumber (h v hv) (h w hw)

theorem numberOrder_of_ne (h : ¬∃ m n, v = .int m ∧ w = .int n) :
    numberOrder v w = doubleOrder v w := by
  unfold numberOrder
  split
  · exact absurd ⟨_, _, rfl, rfl⟩ h
  · rfl

/-- A number that compares as not greater has no greater double. -/
theorem isLE_doubleOrder (hv : IsNumber v) (hw : IsNumber w) (h : (numberOrder v w).isLE) :
    (doubleOrder v w).isLE := by
  by_cases hint : ∃ m n, v = .int m ∧ w = .int n
  · obtain ⟨m, n, rfl, rfl⟩ := hint
    have hle : m ≤ n := compare_le_iff_le.mp (Ordering.isLE_iff_ne_gt.mp h)
    exact Double.order_ofInt hv.1 hle hw.2
  · rwa [numberOrder_of_ne hint] at h

theorem numberOrder_swap (v w : Value) : numberOrder w v = (numberOrder v w).swap := by
  by_cases hint : ∃ m n, v = .int m ∧ w = .int n
  · obtain ⟨m, n, rfl, rfl⟩ := hint
    exact @Std.OrientedCmp.eq_swap Int compare _ _ _
  · have hint' : ¬∃ m n, w = .int m ∧ v = .int n := fun ⟨m, n, hw, hv⟩ => hint ⟨n, m, hv, hw⟩
    rw [numberOrder_of_ne hint, numberOrder_of_ne hint']
    exact Std.OrientedCmp.eq_swap

/-! ## Doubles in order -/

/-- The places of numbers in the order of their doubles, as their comparison tells. -/
theorem tells_doubleOrder (h : ∀ v ∈ items, IsNumber v) :
    Tells (lessBy (byPlace numberOrder items))
      fun i j => (doubleOrder (items.get i) (items.get j)).isLE where
  of_less {i j} hless := by
    refine isLE_doubleOrder (h _ (items.get_mem i)) (h _ (items.get_mem j)) ?_
    rw [show numberOrder (items.get i) (items.get j) = .lt from beq_iff_eq.mp hless]
    rfl
  trans := Std.TransCmp.isLE_trans

/-- A number that is not less than an earlier one has no lesser double. -/
theorem kept_doubleOrder (h : ∀ v ∈ items, IsNumber v) (i j : Fin items.toArray.size) :
    Kept (lessBy (byPlace numberOrder items))
      (fun i j => (doubleOrder (items.get i) (items.get j)).isLE) i j := by
  intro hless
  have hnotlt : numberOrder (items.get j) (items.get i) ≠ .lt := beq_eq_false_iff_ne.mp hless
  refine isLE_doubleOrder (h _ (items.get_mem i)) (h _ (items.get_mem j)) ?_
  rw [numberOrder_swap (items.get j)]
  cases hji : numberOrder (items.get j) (items.get i) with
  | lt => exact absurd hji hnotlt
  | eq => rfl
  | gt => rfl

/-- A few numbers are always sorted, and their doubles are in order. -/
theorem sort?_of_isNumber (h : ∀ v ∈ items, IsNumber v) (hfew : items.length ≤ 20) :
    ∃ sorted, sort? items = .value sorted ∧ sorted.Perm items ∧
      sorted.Pairwise fun v w => (doubleOrder v w).isLE := by
  obtain ⟨places, hplaces, hperm, hpairwise⟩ := sorts_insertion (tells_doubleOrder h)
    (List.pairwise_of_forall (l := List.finRange items.toArray.size) (kept_doubleOrder h))
  have hsort : sort (List.finRange items.toArray.size) = insertion (List.finRange _) :=
    if_pos (by rwa [List.length_finRange])
  rw [← hsort] at hplaces
  exact ⟨_, sortBy?_of_ordered (ordered_of_isNumber h) hplaces, perm_map_get hperm,
    List.pairwise_map.mpr hpairwise⟩

/-! ## Total orders with ties -/

/-- The comparison of the values is a total order with ties. -/
structure Preordered (items : List Value) : Prop where
  total : ∀ v ∈ items, ∀ w ∈ items, ∃ o, compare? v w = some o ∧ compare? w v = some o.swap
  trans : ∀ u ∈ items, ∀ v ∈ items, ∀ w ∈ items, compare? u v ≠ some .gt →
    compare? v w ≠ some .gt → compare? u w ≠ some .gt

theorem Ordered.preordered {order : Value → Value → Ordering} [Std.TransCmp order]
    (h : Ordered order items) : Preordered items where
  total v hv w hw := by
    refine ⟨order v w, h v hv w hw, ?_⟩
    rw [h w hw v hv, ← Std.OrientedCmp.eq_swap]
  trans u hu v hv w hw := by
    simp only [h u hu v hv, h v hv w hw, h u hu w hw, ne_eq, Option.some.injEq,
      ← Ordering.isLE_iff_ne_gt]
    exact Std.TransCmp.isLE_trans

/-- A number with a point equals two integers that differ. -/
def Blurred (items : List Value) : Prop :=
  ∃ m n x, .int m ∈ items ∧ .int n ∈ items ∧ .float x ∈ items ∧ m < n ∧
    compare? (.int m) (.float x) = some .eq ∧ compare? (.float x) (.int n) = some .eq

/-- An integer equals one of the numbers with a point. -/
def met (items : List Value) (n : Int) : Bool :=
  items.any fun
    | .float x => Double.order x (Float.ofInt n) == .eq
    | _ => false

/-- What distinguishes integers of one double, unless they have to equal it. -/
def detail (items : List Value) : Value → Int
  | .int n => if met items n then 0 else n
  | _ => 0

/-- The order of numbers by their doubles, and of integers with one double by themselves. -/
def refinedOrder (items : List Value) : Value → Value → Ordering :=
  compareLex doubleOrder (compareOn (detail items))

instance : Std.TransCmp (refinedOrder items) :=
  inferInstanceAs (Std.TransCmp (compareLex _ _))

theorem met_eq_true {n : Int} :
    met items n = true ↔ ∃ x, .float x ∈ items ∧ Double.order x (Float.ofInt n) = .eq := by
  unfold met
  rw [List.any_eq_true]
  constructor
  · rintro ⟨v, hv, heq⟩
    cases v with
    | float x => exact ⟨x, hv, beq_iff_eq.mp heq⟩
    | _ => nomatch heq
  · rintro ⟨x, hx, heq⟩
    exact ⟨.float x, hx, beq_iff_eq.mpr heq⟩

theorem refinedOrder_of_ne (h : doubleOrder v w ≠ .eq) :
    refinedOrder items v w = doubleOrder v w := by
  rw [refinedOrder, compareLex]
  cases hvw : doubleOrder v w with
  | lt => rfl
  | eq => exact absurd hvw h
  | gt => rfl

theorem refinedOrder_of_eq (h : doubleOrder v w = .eq) :
    refinedOrder items v w = compare (detail items v) (detail items w) := by
  rw [refinedOrder, compareLex, h]
  rfl

/-- Two numbers that are not both integers compare as the refined order says. -/
theorem refinedOrder_of_not_int (hvw : ¬∃ m n, v = .int m ∧ w = .int n) (hv : v ∈ items)
    (hw : w ∈ items) (hv' : IsNumber v) (hw' : IsNumber w) :
    refinedOrder items v w = doubleOrder v w := by
  by_cases heq : doubleOrder v w = .eq
  · rw [refinedOrder_of_eq heq, heq, compare_eq_iff_eq]
    cases v with
    | int m =>
      cases w with
      | int n => exact absurd ⟨m, n, rfl, rfl⟩ hvw
      | float y =>
        exact if_pos (met_eq_true.mpr ⟨y, hw, Std.OrientedCmp.eq_symm heq⟩)
      | _ => nomatch hw'
    | float x =>
      cases w with
      | int n => exact (if_pos (met_eq_true.mpr ⟨x, hv, heq⟩)).symm
      | float y => rfl
      | _ => nomatch hw'
    | _ => nomatch hv'
  · exact refinedOrder_of_ne heq

/-- A smaller integer is smaller in the refined order too. -/
theorem refinedOrder_of_lt (h : ∀ v ∈ items, IsNumber v) (hblurred : ¬Blurred items) {m n : Int}
    (hm : .int m ∈ items) (hn : .int n ∈ items) (hlt : m < n) :
    refinedOrder items (.int m) (.int n) = .lt := by
  have hle : (doubleOrder (.int m) (.int n)).isLE :=
    Double.order_ofInt (h _ hm).1 hlt.le (h _ hn).2
  cases heq : doubleOrder (.int m) (.int n) with
  | lt => rw [refinedOrder_of_ne (by rw [heq]; nofun), heq]
  | gt => rw [heq] at hle; nomatch hle
  | eq =>
    -- a number with a point that equals one of them equals both
    have hmet : ∀ x, .float x ∈ items → Double.order x (Float.ofInt m) = .eq →
        Double.order x (Float.ofInt n) ≠ .eq := by
      intro x hx hxm hxn
      have hfloat : IsNumber (.float x) := h _ hx
      refine hblurred ⟨m, n, x, hm, hn, hx, hlt, ?_, ?_⟩
      · rw [compare?_of_isNumber (h _ hm) hfloat]
        have hmx : Double.order (Float.ofInt m) x = .eq := Std.OrientedCmp.eq_symm hxm
        exact congrArg some hmx
      · rw [compare?_of_isNumber hfloat (h _ hn)]
        exact congrArg some hxn
    have hnotm : ¬met items m = true := by
      rw [met_eq_true]
      rintro ⟨x, hx, hxm⟩
      exact hmet x hx hxm (Std.TransCmp.eq_trans hxm heq)
    have hnotn : ¬met items n = true := by
      rw [met_eq_true]
      rintro ⟨x, hx, hxn⟩
      exact hmet x hx (Std.TransCmp.eq_trans hxn (Std.OrientedCmp.eq_symm heq)) hxn
    rw [refinedOrder_of_eq heq, detail, detail, if_neg hnotm, if_neg hnotn]
    exact compare_lt_iff_lt.mpr hlt

/-- Numbers that are not blurred compare as the refined order says. -/
theorem ordered_of_not_blurred (h : ∀ v ∈ items, IsNumber v) (hblurred : ¬Blurred items) :
    Ordered (refinedOrder items) items := by
  intro v hv w hw
  rw [compare?_of_isNumber (h v hv) (h w hw)]
  by_cases hint : ∃ m n, v = .int m ∧ w = .int n
  · obtain ⟨m, n, rfl, rfl⟩ := hint
    show some (compare m n) = _
    obtain hlt | rfl | hgt := lt_trichotomy m n
    · rw [refinedOrder_of_lt h hblurred hv hw hlt, compare_lt_iff_lt.mpr hlt]
    · have hself : refinedOrder items (.int m) (.int m) = .eq := Std.ReflCmp.compare_self
      rw [hself, compare_eq_iff_eq.mpr rfl]
    · have hswap : refinedOrder items (.int m) (.int n) =
          (refinedOrder items (.int n) (.int m)).swap := Std.OrientedCmp.eq_swap
      rw [hswap, refinedOrder_of_lt h hblurred hw hv hgt, compare_gt_iff_gt.mpr hgt]
      rfl
  · rw [numberOrder_of_ne hint, refinedOrder_of_not_int hint hv hw (h v hv) (h w hw)]

/-- **Numbers compare as a total order exactly if they are not blurred.** -/
theorem preordered_iff (h : ∀ v ∈ items, IsNumber v) : Preordered items ↔ ¬Blurred items := by
  refine ⟨fun hpre => ?_, fun hblurred => (ordered_of_not_blurred h hblurred).preordered⟩
  rintro ⟨m, n, x, hm, hn, hx, hlt, hmx, hxn⟩
  have hswap : ∀ v ∈ items, ∀ w ∈ items, compare? v w = some .eq → compare? w v ≠ some .gt := by
    intro v hv w hw hvw
    obtain ⟨o, ho, hback⟩ := hpre.total v hv w hw
    cases hvw.symm.trans ho
    rw [hback]
    nofun
  have hle := hpre.trans _ hn _ hx _ hm (hswap _ hx _ hn hxn) (hswap _ hm _ hx hmx)
  exact hle (congrArg some (compare_gt_iff_gt.mpr hlt))

/-- Numbers that compare as a total order are sorted, and their doubles are in order. -/
theorem sort?_of_preordered (h : ∀ v ∈ items, IsNumber v) (hpre : Preordered items) :
    ∃ sorted, sort? items = .value sorted ∧ sorted.Perm items ∧
      sorted.Pairwise fun v w => (doubleOrder v w).isLE := by
  obtain ⟨sorted, hsort, hperm, hpairwise, -⟩ :=
    sort?_of_ordered (ordered_of_not_blurred h ((preordered_iff h).mp hpre))
  refine ⟨sorted, hsort, hperm, hpairwise.imp fun {v w} hle => Ordering.isLE_iff_ne_gt.mpr ?_⟩
  intro hgt
  exact hle ((refinedOrder_of_ne (by rw [hgt]; decide)).trans hgt)

end Value

namespace Transform

open Value

/-- **Sorted numbers** are a permutation whose doubles are in order, if they are few or compare as a
total order with ties. This is the case exactly if they are not blurred; then every stable way of
sorting gives the same, and no number is greater than a later one. Numbers are never a miss. -/
theorem result?_sorted_numbers {items : List Value} (h : ∀ v ∈ items, IsNumber v) :
    (Preordered items ↔ ¬Blurred items) ∧ result? (.sequence items) "sorted" ≠ .miss ∧
      (items.length ≤ 20 ∨ Preordered items → ∃ sorted,
        result? (.sequence items) "sorted" = .value (.sequence sorted) ∧ sorted.Perm items ∧
        sorted.Pairwise (fun v w => compareFloat? v.toDouble w.toDouble ≠ some .gt) ∧
        (Preordered items → sorted.Pairwise (fun v w => compare? v w ≠ some .gt) ∧
          ∀ p : Sorter items, p.Stable → sortBy? items.toArray p = .value sorted)) := by
  refine ⟨preordered_iff h, ?_, fun hcase => ?_⟩
  · rw [result?_of_sort?]
    have hnotmiss := sort?_ne_miss (ordered_of_isNumber h)
    cases hsort : sort? items with
    | miss => exact absurd hsort hnotmiss
    | value sorted => exact fun h => by cases h
    | disorder => exact fun h => by cases h
  · obtain ⟨sorted, hsort, hperm, hdoubles⟩ : ∃ sorted, sort? items = .value sorted ∧
        sorted.Perm items ∧ sorted.Pairwise fun v w => (doubleOrder v w).isLE :=
      hcase.elim (sort?_of_isNumber h) (sort?_of_preordered h)
    have hsorted : ∀ v ∈ sorted, IsNumber v := fun v hv => h v (hperm.mem_iff.mp hv)
    refine ⟨sorted, by rw [result?_of_sort?, hsort]; rfl, hperm, ?_, fun hpre => ?_⟩
    · refine hdoubles.imp_of_mem fun {v w} hv hw hle => ?_
      rw [Double.compareFloat?_of_isFinite (isFinite_toDouble (hsorted v hv))
        (isFinite_toDouble (hsorted w hw)), ne_eq, Option.some.injEq]
      exact Ordering.isLE_iff_ne_gt.mp hle
    · have hordered := ordered_of_not_blurred h ((preordered_iff h).mp hpre)
      obtain ⟨sorted', hsort', -, hpairwise, hall⟩ := sort?_of_ordered hordered
      cases hsort.symm.trans hsort'
      refine ⟨hpairwise.imp_of_mem fun {v w} hv hw hle => ?_, hall⟩
      rw [hordered v (hperm.mem_iff.mp hv) w (hperm.mem_iff.mp hw), ne_eq, Option.some.injEq]
      exact hle

/-- Numbers of both kinds that are not blurred. -/
theorem result?_sorted_numbers_plain :
    (∀ v ∈ [.int 3, .float 1.5, .int 2], IsNumber v) ∧ ∃ sorted,
      result? (.sequence [.int 3, .float 1.5, .int 2]) "sorted" = .value (.sequence sorted) ∧
        sorted.Pairwise fun v w => compare? v w ≠ some .gt := by
  have h : ∀ v ∈ [.int 3, .float 1.5, .int 2], IsNumber v := by decide +kernel
  have hplain : ¬Blurred [.int 3, .float 1.5, .int 2] := by
    rintro ⟨m, n, x, hm, -, hx, -, hmx, -⟩
    obtain rfl : x = 1.5 := by simpa using hx
    have hne : ∀ k ∈ [(3 : Int), 2], compare? (.int k) (.float 1.5) ≠ some .eq := by decide +kernel
    exact hne m (by simpa using hm) hmx
  obtain ⟨hiff, -, hsort⟩ := result?_sorted_numbers h
  have hpre := hiff.mpr hplain
  obtain ⟨sorted, hsorted, -, -, hpairwise⟩ := hsort (.inr hpre)
  exact ⟨h, sorted, hsorted, (hpairwise hpre).1⟩

/-- Two integers with the same nearest double, the greater one first, and this double between
them. -/
def blurredNumbers : List Value :=
  [.int 9007199254740993, .float 9007199254740992, .int 9007199254740992]

/-- Blurred numbers are sorted, but not in the order of their comparison: as the double equals both
integers, all are left as they are. -/
theorem result?_sorted_blurredNumbers :
    (∀ v ∈ blurredNumbers, IsNumber v) ∧ ¬Preordered blurredNumbers ∧
      result? (.sequence blurredNumbers) "sorted" = .value (.sequence blurredNumbers) ∧
      ¬blurredNumbers.Pairwise fun v w => compare? v w ≠ some .gt := by
  have hfirst : compare? (.float 9007199254740992) (.int 9007199254740993) = some .eq := by
    decide +kernel
  have hlast : compare? (.int 9007199254740992) (.float 9007199254740992) = some .eq := by
    decide +kernel
  have h : ∀ v ∈ blurredNumbers, IsNumber v := by decide +kernel
  have hblurred : Blurred blurredNumbers :=
    ⟨9007199254740992, 9007199254740993, 9007199254740992, by simp [blurredNumbers],
      by simp [blurredNumbers], by simp [blurredNumbers], by decide, hlast, hfirst⟩
  have hgreater : compare? (.int 9007199254740993) (.int 9007199254740992) = some .gt := by decide
  have hplaces : (sort (List.finRange blurredNumbers.toArray.size)).eval
      (lessBy (byPlace numberOrder blurredNumbers)) = some (List.finRange _) := by
    decide +kernel
  refine ⟨h, fun hpre => (preordered_iff h).mp hpre hblurred, ?_, fun hpairwise => ?_⟩
  · exact congrArg (Found.map Value.sequence) (sortBy?_of_ordered (ordered_of_isNumber h) hplaces)
  · exact (List.pairwise_cons.mp hpairwise).1 _ (by simp) hgreater

end Transform

end Mustache
