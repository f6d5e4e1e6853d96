import Mathlib.Algebra.Order.Ring.Int
import Mustache.Proofs.Sorting.Procedure
import Mustache.Value.Order

/-!
# The order of doubles

Doubles that are finite compare by their sign, their exponent and their mantissa, in that order;
for negative ones the greater exponent or mantissa is the smaller number. So the comparison of
finite doubles is a total order with ties, in which the two zeros are equal.

* `Double.side`, `Double.scale`, `Double.size`: what two doubles differ in; `Double.order`;
* **`compareFloat?_of_isFinite`**: finite doubles compare as their order says.
-/

namespace Mustache.Double

open Float.Model (UnpackedFloat)

/-- Whether the number is above or below zero. -/
def side : UnpackedFloat → Int
  | .finite .positive _ _ _ => 1
  | .finite .negative _ _ _ => -1
  | _ => 0

/-- The exponent, with the sign of the number. -/
def scale : UnpackedFloat → Int
  | .finite .positive _ e _ => e
  | .finite .negative _ e _ => -e
  | _ => 0

/-- The mantissa, with the sign of the number. -/
def size : UnpackedFloat → Int
  | .finite .positive m _ _ => m
  | .finite .negative m _ _ => -m
  | _ => 0

/-- The order of finite numbers. -/
def unpackedOrder : UnpackedFloat → UnpackedFloat → Ordering :=
  compareLex (compareOn side) (compareLex (compareOn scale) (compareOn size))

instance : Std.TransCmp unpackedOrder :=
  inferInstanceAs (Std.TransCmp (compareLex _ _))

theorem compare_neg_neg (a b : Int) : compare (-a) (-b) = (compare a b).swap := by
  rcases lt_trichotomy a b with h | rfl | h
  · rw [compare_lt_iff_lt.mpr h, compare_gt_iff_gt.mpr (neg_lt_neg h)]
    rfl
  · rw [compare_eq_iff_eq.mpr rfl, compare_eq_iff_eq.mpr rfl]
    rfl
  · rw [compare_gt_iff_gt.mpr h, compare_lt_iff_lt.mpr (neg_lt_neg h)]
    rfl

theorem compare_natCast (m n : Nat) : compare (m : Int) (n : Int) = compare m n := by
  rcases lt_trichotomy m n with h | rfl | h
  · rw [compare_lt_iff_lt.mpr h, compare_lt_iff_lt.mpr (Int.ofNat_lt.mpr h)]
  · rw [compare_eq_iff_eq.mpr rfl, compare_eq_iff_eq.mpr rfl]
  · rw [compare_gt_iff_gt.mpr h, compare_gt_iff_gt.mpr (Int.ofNat_lt.mpr h)]

/-- Numbers on one side of zero compare by their exponents and then by their mantissas. -/
theorem unpackedOrder_of_side {a b : UnpackedFloat} (h : side a = side b) :
    unpackedOrder a b = (compare (scale a) (scale b)).then (compare (size a) (size b)) := by
  rw [unpackedOrder, compareLex, compareOn, compare_eq_iff_eq.mpr h]
  rfl

/-- Numbers on different sides of zero compare by their sides. -/
theorem unpackedOrder_of_side_ne {a b : UnpackedFloat} (h : side a ≠ side b) :
    unpackedOrder a b = compare (side a) (side b) := by
  rw [unpackedOrder, compareLex, compareOn]
  cases hside : compare (side a) (side b) with
  | lt => rfl
  | eq => exact absurd (compare_eq_iff_eq.mp hside) h
  | gt => rfl

theorem isLE_of_side {a b : UnpackedFloat} (h : side a < side b) : (unpackedOrder a b).isLE := by
  rw [unpackedOrder_of_side_ne h.ne, compare_lt_iff_lt.mpr h]
  rfl

/-- What it takes for a number not to be greater than one on the same side. -/
theorem isLE_unpackedOrder {a b : UnpackedFloat} (hside : side a = side b)
    (hscale : scale a ≤ scale b) (hsize : scale a = scale b → size a ≤ size b) :
    (unpackedOrder a b).isLE := by
  rw [unpackedOrder_of_side hside]
  obtain hlt | heq := hscale.lt_or_eq
  · rw [compare_lt_iff_lt.mpr hlt]
    rfl
  · rw [compare_eq_iff_eq.mpr heq, Ordering.eq_then, Ordering.isLE_iff_ne_gt]
    exact compare_le_iff_le.mpr (hsize heq)

/-- Finite numbers compare as their order says. -/
theorem compare_of_isFinite {a b : UnpackedFloat} (ha : a.isFinite) (hb : b.isFinite) :
    a.compare b = some (unpackedOrder a b) := by
  cases a with
  | infinity s => nomatch ha
  | notANumber => nomatch ha
  | zero s =>
    cases b with
    | infinity s => nomatch hb
    | notANumber => nomatch hb
    | zero t => rfl
    | finite t n f hn => cases t <;> rfl
  | finite s m e hm =>
    cases b with
    | infinity s => nomatch hb
    | notANumber => nomatch hb
    | zero t => cases s <;> rfl
    | finite t n f hn =>
      cases s <;> cases t
      · have hside : side (.finite .negative m e hm) = side (.finite .negative n f hn) := rfl
        rw [unpackedOrder_of_side hside]
        show some ((compare e f).then (compare m n)).swap =
          some ((compare (-e) (-f)).then (compare (-(m : Int)) (-(n : Int))))
        rw [compare_neg_neg, compare_neg_neg, compare_natCast, Ordering.swap_then]
      · rfl
      · rfl
      · have hside : side (.finite .positive m e hm) = side (.finite .positive n f hn) := rfl
        rw [unpackedOrder_of_side hside]
        show some ((compare e f).then (compare m n)) =
          some ((compare e f).then (compare (m : Int) (n : Int)))
        rw [compare_natCast]

/-- The order of finite doubles. -/
def order (x y : Float) : Ordering := unpackedOrder x.toModel.unpack y.toModel.unpack

instance : Std.TransCmp order :=
  Sorting.transCmp_on unpackedOrder fun x : Float => x.toModel.unpack

theorem lt_iff_compare (x y : Float) :
    x < y ↔ x.toModel.unpack.compare y.toModel.unpack = some .lt := by
  show decide (x.toModel < y.toModel) = true ↔ _
  rw [decide_eq_true_eq]
  exact beq_iff_eq

theorem beq_iff_compare (x y : Float) :
    (x == y) = true ↔ x.toModel.unpack.compare y.toModel.unpack = some .eq := by
  show (x.toModel.unpack.compare y.toModel.unpack == some .eq) = true ↔ _
  exact beq_iff_eq

/-- **Finite doubles compare as their order says.** -/
theorem compareFloat?_of_isFinite {x y : Float} (hx : x.isFinite) (hy : y.isFinite) :
    Value.compareFloat? x y = some (order x y) := by
  have hxy : x.toModel.unpack.compare y.toModel.unpack = some (order x y) :=
    compare_of_isFinite hx hy
  have hyx : y.toModel.unpack.compare x.toModel.unpack = some (order x y).swap := by
    rw [compare_of_isFinite hy hx, ← Std.OrientedCmp.eq_swap]
    rfl
  simp only [Value.compareFloat?, lt_iff_compare, beq_iff_compare, hxy, hyx]
  cases order x y <;> rfl

end Mustache.Double
