import Mustache.Proofs.Double.Order
import Mustache.Proofs.Double.Rounding

/-!
# Integers as doubles

An integer becomes the double nearest to it. Integers of up to 64 bits become finite doubles, and a
greater integer does not become a smaller double. Different integers of more than 53 bits may become
the same double.

* `Double.key`: the double of a positive integer, as one integer; `key_mono`;
* `normal_ofNat`: a natural number as a double;
* **`isFinite_ofInt`**, **`order_ofInt`**.
-/

namespace Mustache.Double

open Float.Model Float.Model.UnpackedFloat
open Mustache.Decimal (divideToEven)

variable {m n : Nat}

/-- The exponent and the rounded mantissa of a positive integer, in one integer. -/
def key (n : Nat) : Int :=
  ((n.log2 : Int) - 52) * 2 ^ 52 + divideToEven (n * 2 ^ 53) (2 ^ (n.log2 + 1))

theorem log2_mul_two_pow (hn : 0 < n) (i : Nat) : (n * 2 ^ i).log2 = n.log2 + i := by
  refine (Nat.log2_eq_iff (Nat.mul_pos hn (Nat.two_pow_pos i)).ne').mpr ⟨?_, ?_⟩
  · rw [pow_add]
    exact Nat.mul_le_mul_right _ (Nat.log2_self_le hn.ne')
  · rw [add_right_comm, pow_add]
    exact Nat.mul_lt_mul_of_pos_right Nat.lt_log2_self (Nat.two_pow_pos i)

theorem log2_scaled (hn : 0 < n) : (n * 2 ^ 53).log2 = 52 + (n.log2 + 1) := by
  rw [log2_mul_two_pow hn]
  omega

theorem key_bounds (hn : 0 < n) : ((n.log2 : Int) - 51) * 2 ^ 52 ≤ key n ∧
    key n ≤ ((n.log2 : Int) - 50) * 2 ^ 52 := by
  obtain ⟨hlow, hhigh⟩ := divideToEven_bounds (log2_scaled hn)
  unfold key
  constructor <;> omega

/-- The keys of integers of 64 bits are far within the range of doubles. -/
theorem key_range (hpos : 0 < n) (hn : n ≤ 2 ^ 63) :
    -51 * 2 ^ 52 ≤ key n ∧ key n ≤ 13 * 2 ^ 52 := by
  have hlog : n.log2 < 64 := (Nat.log2_lt hpos.ne').mpr (hn.trans_lt (by decide))
  obtain ⟨hlow, hhigh⟩ := key_bounds hpos
  constructor <;> omega

/-- A greater integer has no smaller key. -/
theorem key_mono (hm : 0 < m) (h : m ≤ n) : key m ≤ key n := by
  have hn : 0 < n := hm.trans_le h
  have hlog : m.log2 ≤ n.log2 := (Nat.le_log2 hn.ne').mpr ((Nat.log2_self_le hm.ne').trans h)
  obtain hlt | heq := hlog.lt_or_eq
  · have hm := (key_bounds hm).2
    have hn := (key_bounds hn).1
    omega
  · have hround := Decimal.divideToEven_mono (Nat.mul_le_mul_right (2 ^ 53) h) (2 ^ (n.log2 + 1))
    unfold key
    rw [heq]
    omega

/-- A positive integer is rounded to what its key says. -/
theorem normal_round (hn : 0 < n) :
    Normal .positive (key n)
      (roundWithAccuracy Format.binary64 .positive (n * 2 ^ 53) (-53) .exact) := by
  have h := normal_roundWithAccuracy (e := -53) .positive (log2_scaled hn) (by omega)
  rwa [show (-53 : Int) + (n.log2 + 1 : Nat) = n.log2 - 52 by omega] at h

/-! ## Natural numbers as doubles -/

theorem log2_le_of_lt (hpos : 0 < n) (hn : n < 2 ^ 53) : n.log2 ≤ 52 :=
  Nat.le_of_lt_succ ((Nat.log2_lt hpos.ne').mpr hn)

/-- Up to 53 bits a natural number is a double itself. -/
theorem key_of_lt (hpos : 0 < n) (hn : n < 2 ^ 53) :
    key n = ((n.log2 : Int) - 52) * 2 ^ 52 + (n * 2 ^ (52 - n.log2) : Nat) := by
  have hlog := log2_le_of_lt hpos hn
  have hsplit : n * 2 ^ 53 = n * 2 ^ (52 - n.log2) * 2 ^ (n.log2 + 1) := by
    rw [mul_assoc, ← pow_add]
    congr 2
    omega
  rw [key, hsplit, Decimal.divideToEven_mul (Nat.two_pow_pos _)]

theorem ofUInt64_eq (hpos : 0 < n) (hn : n < 2 ^ 53) :
    UnpackedFloat.ofUInt64 Format.binary64 n.toUInt64 = roundWithAccuracy Format.binary64 .positive
      (n * 2 ^ (52 - n.log2)) ((n.log2 : Int) - 52) .exact := by
  have hlog := log2_le_of_lt hpos hn
  have hnat : n.toUInt64.toNat = n := Nat.mod_eq_of_lt (hn.trans (by decide))
  have htarget : Format.binary64.targetExponent (totalExponent n 0) = (n.log2 : Int) - 52 := by
    show max (((n.log2 : Int) + 1 + 0) - 53) (-1074) = n.log2 - 52
    omega
  have hshift : ((0 : Int) - ((n.log2 : Int) - 52)).toNat = 52 - n.log2 := by omega
  unfold UnpackedFloat.ofUInt64 UnpackedFloat.ofNat UnpackedFloat.ofInt UnpackedFloat.normalize
  rw [hnat, compare_gt_iff_gt.mpr (Int.natCast_pos.mpr hpos)]
  dsimp only
  unfold UnpackedFloat.round decreaseExponent
  dsimp only
  rw [Int.toNat_natCast, htarget, hshift, Nat.shiftLeft_eq]
  congr 1
  omega

theorem normal_toFloat (hpos : 0 < n) (hn : n < 2 ^ 53) :
    Normal .positive (key n) n.toUInt64.toFloat.toModel.unpack := by
  have hlog := log2_le_of_lt hpos hn
  have hlog' : (n * 2 ^ (52 - n.log2)).log2 = 52 + 0 := by
    rw [log2_mul_two_pow hpos]
    omega
  obtain ⟨hlow, hhigh⟩ := key_range hpos (hn.le.trans (by decide))
  have h := normal_roundWithAccuracy (e := (n.log2 : Int) - 52) .positive hlog' (by omega)
  have hexact : divideToEven (n * 2 ^ (52 - n.log2)) (2 ^ 0) = n * 2 ^ (52 - n.log2) := by
    have hone := Decimal.divideToEven_mul Nat.one_pos (n * 2 ^ (52 - n.log2))
    rwa [mul_one] at hone
  rw [hexact, Nat.cast_zero, add_zero, ← key_of_lt hpos hn, ← ofUInt64_eq hpos hn] at h
  exact normal_pack h (by omega) (by omega)

/-- The product with one. -/
theorem normal_mul_one {x : Float} {k : Int} (hx : Normal .positive k x.toModel.unpack)
    (hlow : -1021 * 2 ^ 52 ≤ k) (hhigh : k < 973 * 2 ^ 52) :
    Normal .positive k (x * Float.ofBits 0x3FF0000000000000).toModel.unpack := by
  have hone : (Float.ofBits 0x3FF0000000000000).toModel.unpack =
      .finite .positive (2 ^ 52) (-52) (by decide) := rfl
  obtain ⟨m, e, hm, hfinite, hmlow, hmhigh, hkey⟩ := hx
  have hlog : (m * 2 ^ 52).log2 = 52 + 52 := by
    rw [log2_mul_two_pow hm, log2_eq_of_lt hmlow hmhigh]
  have h := normal_roundWithAccuracy (e := e + -52) .positive hlog (by omega)
  rw [Decimal.divideToEven_mul (by decide), show e + -52 + (52 : Nat) = e by omega, hkey] at h
  refine normal_pack (u := UnpackedFloat.mul Format.binary64 _ _) ?_ (by omega) hhigh
  rw [hfinite, hone]
  exact h

theorem ofNat_of_lt (hn : n < 2 ^ 53) :
    Float.ofNat n = n.toUInt64.toFloat * Float.ofBits 0x3FF0000000000000 := by
  show Float.ofScientific n false 0 = _
  rw [Float.ofScientific, dif_pos ⟨hn, by decide⟩]
  rfl

theorem ofNat_of_le (hn : 2 ^ 53 ≤ n) :
    Float.ofNat n = Float.ofModel (Float.Model.ofScientific n 0) := by
  show Float.ofScientific n false 0 = _
  rw [Float.ofScientific, dif_neg fun h => absurd h.1 (not_lt.mpr hn)]
  rfl

theorem ofScientific_zero (hn : 0 < n) : UnpackedFloat.ofScientific Format.binary64 n 0 =
    roundWithAccuracy Format.binary64 .positive (n * 2 ^ 53) (-53) .exact := by
  have hhigh : ¬(0 : Int) > 2 ^ Format.binary64.exponentBits := by decide
  have hlow : ¬(0 : Int) < -((2 ^ Format.binary64.exponentBits : Int) + n.log2) := by
    show ¬(0 : Int) < -((2 ^ 11 : Int) + n.log2)
    omega
  have hbits : Format.binary64.mantissaBits = 53 := rfl
  have hsign : Sign.positive * Sign.positive = Sign.positive := rfl
  unfold UnpackedFloat.ofScientific
  rw [dif_neg hn.ne', if_neg hhigh, if_neg hlow, if_pos le_rfl]
  unfold UnpackedFloat.mul
  dsimp only
  rw [hsign, hbits, Nat.shiftLeft_eq, Int.toNat_zero, pow_zero, mul_one, add_zero]
  rfl

/-- **A natural number as a double.** -/
theorem normal_ofNat (hpos : 0 < n) (hn : n ≤ 2 ^ 63) :
    Normal .positive (key n) (Float.ofNat n).toModel.unpack := by
  obtain ⟨hlow, hhigh⟩ := key_range hpos hn
  obtain hlt | hle := Nat.lt_or_ge n (2 ^ 53)
  · rw [ofNat_of_lt hlt]
    exact normal_mul_one (normal_toFloat hpos hlt) (by omega) (by omega)
  · rw [ofNat_of_le hle]
    have h := normal_round hpos
    rw [← ofScientific_zero hpos] at h
    exact normal_pack h (by omega) (by omega)

/-! ## Integers as doubles -/

variable {j k y z : Int} {u v : Float.Model.UnpackedFloat}

theorem normal_ofInt (hpos : 0 < n) (hn : n ≤ 2 ^ 63) :
    Normal .positive (key n) (Float.ofInt n).toModel.unpack :=
  normal_ofNat hpos hn

theorem Normal.neg (h : Normal .positive k u) : Normal .negative k u.neg := by
  obtain ⟨m, e, hm, rfl, hlow, hhigh, hkey⟩ := h
  exact ⟨m, e, hm, rfl, hlow, hhigh, hkey⟩

theorem normal_ofInt_neg (hpos : 0 < n) (hn : n ≤ 2 ^ 63) :
    Normal .negative (key n) (Float.ofInt (-n)).toModel.unpack := by
  obtain ⟨i, rfl⟩ := Nat.exists_eq_add_one_of_ne_zero hpos.ne'
  obtain ⟨hlow, hhigh⟩ := key_range hpos hn
  exact normal_pack (normal_ofNat hpos hn).neg (by omega) (by omega)

/-- What an integer is as a double. -/
inductive Image : Int → Float.Model.UnpackedFloat → Prop
  | positive {n : Nat} {u : Float.Model.UnpackedFloat} (hn : 0 < n)
    (h : Normal .positive (key n) u) : Image n u
  | zero : Image 0 (.zero .positive)
  | negative {n : Nat} {u : Float.Model.UnpackedFloat} (hn : 0 < n)
    (h : Normal .negative (key n) u) : Image (-n) u

theorem image_ofInt (hlow : Value.minInt ≤ z) (hhigh : z ≤ Value.maxInt) :
    Image z (Float.ofInt z).toModel.unpack := by
  unfold Value.minInt at hlow
  unfold Value.maxInt at hhigh
  obtain hneg | rfl | hpos := lt_trichotomy z 0
  · obtain ⟨n, hn⟩ := Int.eq_ofNat_of_zero_le (neg_nonneg.mpr hneg.le)
    obtain rfl : z = -n := by omega
    exact .negative (by omega) (normal_ofInt_neg (by omega) (by omega))
  · exact .zero
  · obtain ⟨n, rfl⟩ := Int.eq_ofNat_of_zero_le hpos.le
    exact .positive (by omega) (normal_ofInt (by omega) (by omega))

theorem Normal.isFinite {s : Sign} (h : Normal s k u) : u.isFinite := by
  obtain ⟨m, e, hm, rfl, -⟩ := h
  rfl

theorem Image.isFinite (h : Image z u) : u.isFinite := by
  cases h with
  | positive hn h => exact h.isFinite
  | zero => rfl
  | negative hn h => exact h.isFinite

theorem Normal.side_positive (h : Normal .positive k u) : side u = 1 := by
  obtain ⟨m, e, hm, rfl, -⟩ := h
  rfl

theorem Normal.side_negative (h : Normal .negative k u) : side u = -1 := by
  obtain ⟨m, e, hm, rfl, -⟩ := h
  rfl

/-- The order of positive numbers is that of their keys. -/
theorem Normal.isLE_positive (hu : Normal .positive j u) (hv : Normal .positive k v) (h : j ≤ k) :
    (unpackedOrder u v).isLE := by
  obtain ⟨m, e, hm, rfl, hmlow, hmhigh, hj⟩ := hu
  obtain ⟨n, f, hn, rfl, hnlow, hnhigh, hk⟩ := hv
  refine isLE_unpackedOrder rfl ?_ fun (hscale : e = f) => ?_
  · show e ≤ f
    omega
  · show (m : Int) ≤ n
    omega

theorem Normal.isLE_negative (hu : Normal .negative j u) (hv : Normal .negative k v) (h : k ≤ j) :
    (unpackedOrder u v).isLE := by
  obtain ⟨m, e, hm, rfl, hmlow, hmhigh, hj⟩ := hu
  obtain ⟨n, f, hn, rfl, hnlow, hnhigh, hk⟩ := hv
  refine isLE_unpackedOrder rfl ?_ fun (hscale : -e = -f) => ?_
  · show -e ≤ -f
    omega
  · show -(m : Int) ≤ -n
    omega

/-- A greater integer has no smaller image. -/
theorem Image.isLE (hu : Image y u) (hv : Image z v) (h : y ≤ z) : (unpackedOrder u v).isLE := by
  cases hu with
  | positive hm hu =>
    cases hv with
    | positive hn hv => exact hu.isLE_positive hv (key_mono hm (by omega))
    | zero => omega
    | negative hn hv => omega
  | zero =>
    cases hv with
    | positive hn hv =>
      refine isLE_of_side ?_
      rw [hv.side_positive]
      exact Int.one_pos
    | zero => rfl
    | negative hn hv => omega
  | negative hm hu =>
    have hside : side _ = -1 := hu.side_negative
    cases hv with
    | positive hn hv =>
      refine isLE_of_side ?_
      rw [hside, hv.side_positive]
      decide
    | zero =>
      refine isLE_of_side ?_
      rw [hside]
      decide
    | negative hn hv => exact hu.isLE_negative hv (key_mono hn (by omega))

/-- **Integers of 64 bits are finite doubles.** -/
theorem isFinite_ofInt (hlow : Value.minInt ≤ z) (hhigh : z ≤ Value.maxInt) :
    (Float.ofInt z).isFinite :=
  (image_ofInt hlow hhigh).isFinite

/-- **A greater integer is no smaller double.** -/
theorem order_ofInt (hlow : Value.minInt ≤ y) (h : y ≤ z) (hhigh : z ≤ Value.maxInt) :
    (order (Float.ofInt y) (Float.ofInt z)).isLE :=
  (image_ofInt hlow (h.trans hhigh)).isLE (image_ofInt (hlow.trans h) hhigh) h

end Mustache.Double
