import Mustache.Proofs.Sorting.Procedure
import Mustache.Proofs.Text.Order
import Mustache.Transform

/-!
# Sorted values

Values of one kind are sorted, whatever stable procedure is used. A sequence of values of different
kinds is never sorted, wherever the odd ones stand: a procedure is bound to compare two that have no
order. Such values count as equal until then, so the comparison need not be a total order, and the
procedure may notice that instead.

* `Value.Sorter`, `Value.byPlace`: procedures for the places of values; `sortBy?_eq_value`,
  `sortBy?_eq_disorder`: what they come to;
* `Value.Orderly`: values whose comparison is an order, or which are few; **`sort?_ne_disorder`**;
* `Value.Ordered`: values that compare as a total order with ties says; **`sort?_of_ordered`**;
* `Value.Kind`, `Value.Uniform`, `Value.NotAfter`: the kinds that compare exactly;
* **`uniform_of_sortBy?`**: only values of one kind are sorted; `Value.Mixed`;
* **`Transform.result?_sorted`**, `Transform.result?_sorted_interleaved`.
-/

namespace Mustache

open Sorting Sorting.Procedure

namespace Value

variable {items sorted : List Value}

/-! ## Places -/

/-- A procedure for the places of values. -/
abbrev Sorter (items : List Value) : Type :=
  Procedure (Fin items.toArray.size) (List (Fin items.toArray.size))

/-- The order of two values, equal if they have none. -/
def loosely (v w : Value) : Ordering := (compare? v w).getD .eq

/-- The order of the values at two places. -/
def byPlace (order : Value → Value → Ordering) (items : List Value)
    (i j : Fin items.toArray.size) : Ordering :=
  order (items.get i) (items.get j)

instance (order : Value → Value → Ordering) [Std.TransCmp order] (items : List Value) :
    Std.TransCmp (byPlace order items) :=
  transCmp_on order items.get

/-- Values are sorted by a procedure that only compares such as have an order. -/
theorem sortBy?_eq_value {p : Sorter items} : sortBy? items.toArray p = .value sorted ↔
    ∃ places, p.run (place? items.toArray) true = some (places, true) ∧
      places.map items.get = sorted := by
  unfold sortBy?
  split
  · rename_i places hrun
    rw [hrun]
    simp only [Found.value.injEq, Option.some.injEq, Prod.mk.injEq, and_true, exists_eq_left']
    rfl
  · rename_i hrun
    simp [hrun]
  · rename_i hrun
    simp [hrun]

/-- A procedure without a result notices that the comparison is no order. Until then values without
an order count as equal. -/
theorem sortBy?_eq_disorder {p : Sorter items} :
    sortBy? items.toArray p = .disorder ↔ p.eval (lessBy (byPlace loosely items)) = none := by
  have hless : (fun i j => place? items.toArray i j == some .lt) =
      lessBy (byPlace loosely items) := by
    funext i j
    show (compare? (items.get i) (items.get j) == some .lt) =
      ((compare? (items.get i) (items.get j)).getD .eq == .lt)
    cases compare? (items.get i) (items.get j) with
    | none => rfl
    | some o => rfl
  rw [← hless, ← @run_fst _ _ _ true, sortBy?, Option.map_eq_none_iff]
  split
  · rename_i h
    simp [h]
  · rename_i h
    simp [h]
  · rename_i h
    simp [h]

/-- What is sorted is there. -/
theorem mem_of_sortBy? {p : Sorter items} (h : sortBy? items.toArray p = .value sorted) {v : Value}
    (hv : v ∈ sorted) : v ∈ items := by
  obtain ⟨places, -, rfl⟩ := sortBy?_eq_value.mp h
  obtain ⟨i, -, rfl⟩ := List.mem_map.mp hv
  exact items.get_mem i

theorem mem_of_sort? (h : sort? items = .value sorted) {v : Value} (hv : v ∈ sorted) :
    v ∈ items :=
  mem_of_sortBy? h hv

/-! ## Disorder -/

/-- There are few of the values, or values without an order count as equal in a total order with
ties. -/
def Orderly (items : List Value) : Prop :=
  items.length ≤ 20 ∨ ∃ order : Value → Value → Ordering, Std.TransCmp order ∧
    ∀ v ∈ items, ∀ w ∈ items, loosely v w = order v w

/-- Insertion sort never gives up, and loses no item. -/
theorem exists_eval_insertion {α : Type} (less : α → α → Bool) (items : List α) :
    ∃ sorted, (insertion items).eval less = some sorted ∧ sorted.Perm items := by
  obtain ⟨sorted, hsorted, hperm, -⟩ : Sorts less (fun _ _ => True) items (insertion items) :=
    sorts_insertion ⟨fun _ => trivial, fun _ _ => trivial⟩
      (List.pairwise_of_forall fun _ _ _ => trivial)
  exact ⟨sorted, hsorted, hperm⟩

/-- **Orderly values** are sorted or missing. -/
theorem sort?_ne_disorder (h : Orderly items) : sort? items ≠ .disorder := by
  rw [sort?, ne_eq, sortBy?_eq_disorder]
  obtain hfew | ⟨order, htrans, horder⟩ := h
  · rw [sort, if_pos (by rwa [List.length_finRange])]
    obtain ⟨sorted, hsorted, -⟩ := exists_eval_insertion (lessBy (byPlace loosely items))
      (List.finRange items.toArray.size)
    rw [hsorted]
    exact Option.some_ne_none sorted
  · have hplaces : byPlace loosely items = byPlace order items :=
      funext₂ fun i j => horder _ (items.get_mem i) _ (items.get_mem j)
    obtain ⟨sorted, hsorted, -⟩ := stable_sort _ (byPlace order items)
    rw [hplaces, hsorted]
    exact Option.some_ne_none sorted

/-! ## Total orders with ties -/

/-- The values compare as the order says. -/
def Ordered (order : Value → Value → Ordering) (items : List Value) : Prop :=
  ∀ v ∈ items, ∀ w ∈ items, compare? v w = some (order v w)

/-- Values that all have an order are sorted by a procedure that does not give up. -/
theorem sortBy?_of_ordered {order : Value → Value → Ordering} (h : Ordered order items)
    {p : Sorter items} {places : List (Fin items.toArray.size)}
    (hplaces : p.eval (lessBy (byPlace order items)) = some places) :
    sortBy? items.toArray p = .value (places.map items.get) := by
  have hplace : ∀ i j, place? items.toArray i j = some (byPlace order items i j) :=
    fun i j => h _ (items.get_mem i) _ (items.get_mem j)
  rw [sortBy?, run_of_total hplace, hplaces]
  rfl

/-- Values that all have an order are not missing. -/
theorem sort?_ne_miss {order : Value → Value → Ordering} (h : Ordered order items) :
    sort? items ≠ .miss := by
  have hplace : ∀ i j, place? items.toArray i j = some (byPlace order items i j) :=
    fun i j => h _ (items.get_mem i) _ (items.get_mem j)
  rw [sort?, sortBy?, run_of_total hplace]
  cases (sort (List.finRange items.toArray.size)).eval (lessBy (byPlace order items)) with
  | none => exact fun h => by cases h
  | some places => exact fun h => by cases h

/-- The values of all places. -/
theorem perm_map_get {places : List (Fin items.toArray.size)}
    (h : places.Perm (List.finRange items.toArray.size)) : (places.map items.get).Perm items := by
  have hmap := h.map items.get
  rwa [show (List.finRange items.toArray.size).map items.get = items from
    List.map_get_finRange items] at hmap

/-- **Values in a total order with ties** are sorted by it, and every stable procedure sorts them
alike. -/
theorem sort?_of_ordered {order : Value → Value → Ordering} [Std.TransCmp order]
    (h : Ordered order items) : ∃ sorted, sort? items = .value sorted ∧ sorted.Perm items ∧
      sorted.Pairwise (fun v w => order v w ≠ .gt) ∧
        ∀ p : Sorter items, p.Stable → sortBy? items.toArray p = .value sorted := by
  obtain ⟨places, hplaces, hperm, hpairwise⟩ := stable_sort _ (byPlace order items)
  refine ⟨_, sortBy?_of_ordered h hplaces, perm_map_get hperm, ?_, fun p hp => ?_⟩
  · refine List.pairwise_map.mpr (hpairwise.imp fun hij hgt => ?_)
    rcases hij with hij | ⟨hij, -⟩ <;> cases hgt.symm.trans hij
  · exact sortBy?_of_ordered h ((hp.eval_eq (stable_sort _) _).trans hplaces)

/-! ## Kinds -/

/-- The kinds of values that compare exactly with each other. -/
inductive Kind where
  | text
  | int
  | bool

/-- The kind of a value, if it is one of these. -/
def kind? : Value → Option Kind
  | .text _ => some .text
  | .int _ => some .int
  | .bool _ => some .bool
  | _ => none

/-- The values are all texts, all integers or all truth values. -/
def Uniform (items : List Value) : Prop := ∃ kind, ∀ v ∈ items, kind? v = some kind

/-- A value of the same kind is not less: texts by their bytes, integers by what they are, and
`false` is less than `true`. -/
def NotAfter : Value → Value → Prop
  | .text s, .text t => Text.bytes s ≤ Text.bytes t
  | .int m, .int n => m ≤ n
  | .bool a, .bool b => a = true → b = true
  | _, _ => False

def asText : Value → String
  | .text s => s
  | _ => ""

def asInt : Value → Int
  | .int n => n
  | _ => 0

def asBool : Value → Bool
  | .bool b => b
  | _ => false

/-- The order of values of one kind. -/
def kindOrder : Value → Value → Ordering :=
  compareLex (compareOn asText) (compareLex (compareOn asInt) (compareOn asBool))

instance : Std.TransCmp kindOrder :=
  inferInstanceAs (Std.TransCmp (compareLex _ _))

theorem kindOrder_text (s t : String) : kindOrder (.text s) (.text t) = compare s t :=
  Ordering.then_eq

theorem kindOrder_int (m n : Int) : kindOrder (.int m) (.int n) = compare m n := by
  simp only [kindOrder, compareLex, compareOn, asText, asInt, asBool, compare_eq_iff_eq.mpr,
    Ordering.eq_then, Ordering.then_eq]

theorem kindOrder_bool (a b : Bool) : kindOrder (.bool a) (.bool b) = compare a b := by
  simp only [kindOrder, compareLex, compareOn, asText, asInt, asBool, compare_eq_iff_eq.mpr,
    Ordering.eq_then]

/-- Only values of one kind compare, if none is a number with a point. -/
theorem kind_of_compare? {v w : Value} {o : Ordering} (hv : ∀ x, v ≠ .float x)
    (hw : ∀ x, w ≠ .float x) (h : compare? v w = some o) :
    (∃ kind, kind? v = some kind ∧ kind? w = some kind) ∧ kindOrder v w = o := by
  unfold compare? at h
  split at h
  · exact ⟨⟨.text, rfl, rfl⟩, (kindOrder_text _ _).trans (Option.some.inj h)⟩
  · exact ⟨⟨.bool, rfl, rfl⟩, (kindOrder_bool _ _).trans (Option.some.inj h)⟩
  · exact ⟨⟨.int, rfl, rfl⟩, (kindOrder_int _ _).trans (Option.some.inj h)⟩
  · exact absurd rfl (hw _)
  · exact absurd rfl (hv _)
  · exact absurd rfl (hv _)
  · nomatch h

theorem compare?_of_kind {v w : Value} {kind : Kind} (hv : kind? v = some kind)
    (hw : kind? w = some kind) : compare? v w = some (kindOrder v w) := by
  unfold kind? at hv hw
  split at hv <;> split at hw <;> cases hv <;> cases hw
  · rw [kindOrder_text]; rfl
  · rw [kindOrder_int]; rfl
  · rw [kindOrder_bool]; rfl

theorem notAfter_of_kind {v w : Value} {kind : Kind} (hv : kind? v = some kind)
    (hw : kind? w = some kind) (h : kindOrder v w ≠ .gt) : NotAfter v w := by
  unfold kind? at hv hw
  split at hv <;> split at hw <;> cases hv <;> cases hw
  · rw [kindOrder_text] at h
    exact Text.bytes_le_bytes.mpr (compare_le_iff_le.mp h)
  · rw [kindOrder_int] at h
    exact compare_le_iff_le.mp h
  · rw [kindOrder_bool] at h
    exact compare_le_iff_le.mp h

/-- The class of a place: the kind of its value, or the place itself if its value compares with
none. -/
def classOf (items : List Value) (i : Fin items.toArray.size) : Kind ⊕ Fin items.toArray.size :=
  match kind? (items.get i) with
  | some kind => .inl kind
  | none => .inr i

theorem classOf_eq_inl {i : Fin items.toArray.size} {kind : Kind} :
    classOf items i = .inl kind ↔ kind? (items.get i) = some kind := by
  rw [classOf]
  cases kind? (items.get i) with
  | none => exact ⟨nofun, nofun⟩
  | some other => rw [Sum.inl.injEq, Option.some.injEq]

theorem eq_of_classOf_eq_inr {i j : Fin items.toArray.size} (h : classOf items i = .inr j) :
    i = j := by
  rw [classOf] at h
  split at h
  · nomatch h
  · exact Sum.inr.inj h

/-- **Values that are sorted are all alike**, by whatever procedure. -/
theorem uniform_of_sortBy? (hfloat : ∀ x, Value.float x ∉ items) (hlength : 2 ≤ items.length)
    {p : Sorter items} (hp : p.Stable) (h : sortBy? items.toArray p = .value sorted) :
    Uniform items := by
  have hne (i : Fin items.toArray.size) : ∀ x, items.get i ≠ .float x :=
    fun x hx => hfloat x (hx ▸ items.get_mem i)
  have hclass : ∀ i j o, place? items.toArray i j = some o → classOf items i = classOf items j ∧
      byPlace kindOrder items i j = o := by
    intro i j o ho
    obtain ⟨⟨kind, hi, hj⟩, horder⟩ := kind_of_compare? (hne i) (hne j) ho
    exact ⟨(classOf_eq_inl.mpr hi).trans (classOf_eq_inl.mpr hj).symm, horder⟩
  obtain ⟨places, hrun, -⟩ := sortBy?_eq_value.mp h
  have hall := hp.class_eq hclass hrun
  cases hfirst : classOf items ⟨0, by rw [List.size_toArray]; omega⟩ with
  | inl kind =>
    refine ⟨kind, fun v hv => ?_⟩
    obtain ⟨i, rfl⟩ := List.get_of_mem hv
    exact classOf_eq_inl.mp ((hall i _).trans hfirst)
  | inr i =>
    -- its value compares with none, and there is another place
    have hzero := eq_of_classOf_eq_inr hfirst
    have hone := eq_of_classOf_eq_inr ((hall ⟨1, hlength⟩ _).trans hfirst)
    exact absurd (congrArg Fin.val (hone.trans hzero.symm)) one_ne_zero

/-- Values that are all alike compare in the order of their kind. -/
theorem Uniform.ordered (h : Uniform items) : Ordered kindOrder items := by
  obtain ⟨kind, hkind⟩ := h
  exact fun v hv w hw => compare?_of_kind (hkind v hv) (hkind w hw)

/-- Values that are all alike are sorted, by every stable procedure in the same way. -/
theorem Uniform.exists_sort? (h : Uniform items) : ∃ sorted, sort? items = .value sorted ∧
    sorted.Perm items ∧ sorted.Pairwise NotAfter ∧
      ∀ p : Sorter items, p.Stable → sortBy? items.toArray p = .value sorted := by
  obtain ⟨sorted, hsort, hperm, hpairwise, hall⟩ := sort?_of_ordered h.ordered
  obtain ⟨kind, hkind⟩ := h
  have hsorted : ∀ v ∈ sorted, kind? v = some kind := fun v hv => hkind v (hperm.mem_iff.mp hv)
  refine ⟨sorted, hsort, hperm, hpairwise.imp_of_mem fun hv hw hle => ?_, hall⟩
  exact notAfter_of_kind (hsorted _ hv) (hsorted _ hw) hle

/-- Less than two values are sorted as they are. -/
theorem sort?_of_length_lt (h : items.length < 2) :
    sort? items = .value items ∧ items.Pairwise NotAfter := by
  match items, h with
  | [], _ => exact ⟨rfl, .nil⟩
  | [v], _ => exact ⟨rfl, List.pairwise_singleton _ v⟩

/-- There are two values or more, and they are not all alike. -/
def Mixed (items : List Value) : Prop := 2 ≤ items.length ∧ ¬Uniform items

theorem sort?_of_not_mixed (h : ¬Mixed items) :
    ∃ sorted, sort? items = .value sorted ∧ sorted.Perm items ∧ sorted.Pairwise NotAfter := by
  by_cases hlength : 2 ≤ items.length
  · obtain ⟨sorted, hsort, hperm, hpairwise, -⟩ :=
      (not_not.mp (not_and.mp h hlength)).exists_sort?
    exact ⟨sorted, hsort, hperm, hpairwise⟩
  · obtain ⟨hsort, hpairwise⟩ := sort?_of_length_lt (not_le.mp hlength)
    exact ⟨items, hsort, .refl _, hpairwise⟩

end Value

namespace Transform

open Value

theorem result?_of_sort? (items : List Value) :
    result? (.sequence items) "sorted" = (sort? items).map .sequence := rfl

/-- **What a sorted sequence is.** Without numbers with a point it is a permutation of the values
from the least to the greatest, unless they are mixed. Mixed values are never sorted, by whatever
stable procedure: they are missing if they are few, and else it may be noticed that their comparison
is no order. All stable procedures make the same of values that are all alike. -/
theorem result?_sorted {items : List Value} (hfloat : ∀ x, Value.float x ∉ items) :
    (¬Mixed items → ∃ sorted, result? (.sequence items) "sorted" = .value (.sequence sorted) ∧
      sorted.Perm items ∧ sorted.Pairwise NotAfter) ∧
    (Mixed items → result? (.sequence items) "sorted" = .miss ∨
      20 < items.length ∧ result? (.sequence items) "sorted" = .disorder) ∧
    (2 ≤ items.length → ∀ p : Sorter items, p.Stable →
      (Uniform items → sortBy? items.toArray p = sort? items) ∧
        (Mixed items → ∀ sorted, sortBy? items.toArray p ≠ .value sorted)) := by
  have hnever (p : Sorter items) (hp : p.Stable) (h : Mixed items) (sorted : List Value) :
      sortBy? items.toArray p ≠ .value sorted :=
    fun hsorted => h.2 (uniform_of_sortBy? hfloat h.1 hp hsorted)
  rw [result?_of_sort?]
  refine ⟨fun h => ?_, fun h => ?_, fun hlength p hp => ⟨fun h => ?_, hnever p hp⟩⟩
  · obtain ⟨sorted, hsort, hperm, hpairwise⟩ := sort?_of_not_mixed h
    exact ⟨sorted, by rw [hsort]; rfl, hperm, hpairwise⟩
  · cases hsort : sort? items with
    | value sorted => exact absurd hsort (hnever _ (stable_sort _) h sorted)
    | miss => exact .inl rfl
    | disorder =>
      exact .inr ⟨not_le.mp fun hfew => sort?_ne_disorder (.inl hfew) hsort, rfl⟩
  · obtain ⟨sorted, hsort, -, -, hall⟩ := h.exists_sort?
    rw [hsort, hall p hp]

/-- A text between integers is a miss, also where the integers are in order. -/
theorem result?_sorted_between :
    (∀ x, Value.float x ∉ [.int 1, .text "a", .int 2]) ∧
      result? (.sequence [.int 1, .text "a", .int 2]) "sorted" = .miss := by
  have hfloat : ∀ x, Value.float x ∉ [.int 1, .text "a", .int 2] := by simp
  have hmixed : Mixed [.int 1, .text "a", .int 2] := by
    refine ⟨by decide, fun ⟨kind, hkind⟩ => ?_⟩
    cases (hkind (.int 1) (by simp)).trans (hkind (.text "a") (by simp)).symm
  obtain hmiss | ⟨hlong, -⟩ := (result?_sorted hfloat).2.1 hmixed
  · exact ⟨hfloat, hmiss⟩
  · exact absurd hlong (by decide)

/-- Twenty-one values: the null between integers equals each of them, and so do not two integers. -/
def interleaved : List Value :=
  [.int 0, .int 11, .null, .int 12, .int 2, .int 13, .int 3, .int 14, .int 4, .int 15, .int 5,
    .int 16, .int 6, .int 17, .int 7, .int 18, .int 8, .int 19, .int 9, .int 20, .int 10]

theorem sort?_interleaved : sort? interleaved = .disorder := by
  have hnone : ((sort (List.finRange interleaved.toArray.size)).eval
      (lessBy (byPlace loosely interleaved))).isNone = true := by
    decide +kernel
  exact sortBy?_eq_disorder.mpr (Option.isNone_iff_eq_none.mp hnone)

/-- **Mixed values need not be a miss**: the two ends of a merge do not meet. -/
theorem result?_sorted_interleaved :
    (∀ x, Value.float x ∉ interleaved) ∧ Mixed interleaved ∧
      result? (.sequence interleaved) "sorted" = .disorder := by
  have hmixed : Mixed interleaved := by
    refine ⟨by decide, fun ⟨kind, hkind⟩ => ?_⟩
    cases hkind .null (by simp [interleaved])
  exact ⟨by simp [interleaved], hmixed, congrArg (Found.map .sequence) sort?_interleaved⟩

end Transform

end Mustache
