import Mathlib.Algebra.Order.Ring.Int
import Mathlib.Tactic.Ring
import Mustache.Decimal.Nearest

/-!
# Rounding to doubles

A mantissa is rounded by shifting it to the right, with one bit for the last digit that was shifted
out and one for those before it. The two tell how the fraction compares with a half, so the rounded
mantissa is a quotient rounded to the nearest integer, ties to even. Rounding up to the next power
of two carries into the exponent.

* `divideToEven_mono`, `divideToEven_mul`: laws of rounded quotients;
* `Double.Holds`: what an extended mantissa says of a quotient; `Holds.rounded`;
* `Double.Normal`: a number with 53 bits, by its exponent and mantissa in one integer;
  **`normal_roundWithAccuracy`**: the number that a mantissa is rounded to;
* **`unpack_pack`**: normal numbers are packed without loss.
-/

namespace Mustache.Decimal

variable {num den : Nat}

theorem div_le_divideToEven (num den : Nat) : num / den ≤ divideToEven num den := by
  unfold divideToEven
  dsimp only
  split <;> omega

theorem divideToEven_le_div (num den : Nat) : divideToEven num den ≤ num / den + 1 := by
  unfold divideToEven
  dsimp only
  split <;> omega

/-- A greater number has no smaller rounded quotient. -/
theorem divideToEven_mono {num' : Nat} (h : num ≤ num') (den : Nat) :
    divideToEven num den ≤ divideToEven num' den := by
  obtain hlt | heq := (Nat.div_le_div_right (c := den) h).lt_or_eq
  · exact (divideToEven_le_div num den).trans
      ((Nat.succ_le_of_lt hlt).trans (div_le_divideToEven num' den))
  · have hmod : num % den ≤ num' % den := by
      have hnum := Nat.div_add_mod num den
      have hnum' := Nat.div_add_mod num' den
      rw [heq] at hnum
      omega
    unfold divideToEven
    dsimp only
    rw [heq]
    split <;> split <;> omega

/-- A quotient without a fraction is not rounded. -/
theorem divideToEven_mul (hden : 0 < den) (q : Nat) : divideToEven (q * den) den = q := by
  unfold divideToEven
  dsimp only
  rw [Nat.mul_mod_left, Nat.mul_div_cancel q hden, if_neg (by omega)]

end Mustache.Decimal

namespace Mustache.Double

open Float.Model Float.Model.UnpackedFloat
open Mustache.Decimal (divideToEven)

variable {em : ExtendedMantissa} {num den : Nat}

/-- The mantissa is the quotient, and its two further bits tell how the fraction compares with a
half. -/
structure Holds (em : ExtendedMantissa) (num den : Nat) : Prop where
  mantissa : em.mantissa = num / den
  roundBit : em.roundBit = true ↔ den ≤ 2 * (num % den)
  stickyBit : em.stickyBit = true ↔ 2 * (num % den) ≠ 0 ∧ 2 * (num % den) ≠ den

theorem holds_exact (m : Nat) : Holds (.ofMantissaAndAccuracy m .exact) m 1 where
  mantissa := (Nat.div_one m).symm
  roundBit := by simp [ExtendedMantissa.ofMantissaAndAccuracy, Nat.mod_one]
  stickyBit := by simp [ExtendedMantissa.ofMantissaAndAccuracy, Nat.mod_one]

/-- A shift by one bit halves the quotient. -/
theorem Holds.shiftRightOne (h : Holds em num den) (hden : 0 < den) :
    Holds em.shiftRightOne num (den * 2) := by
  have hmod : num % (den * 2) = num % den + den * (num / den % 2) := Nat.mod_mul
  have hlt : num % den < den := Nat.mod_lt num hden
  refine ⟨?_, ?_, ?_⟩
  · show em.mantissa / 2 = _
    rw [h.mantissa, Nat.div_div_eq_div_mul]
  · show (em.mantissa % 2 != 0) = true ↔ _
    rw [h.mantissa, bne_iff_ne, hmod]
    obtain hbit | hbit := Nat.mod_two_eq_zero_or_one (num / den) <;> rw [hbit] <;> omega
  · show (em.roundBit || em.stickyBit) = true ↔ _
    rw [Bool.or_eq_true, h.roundBit, h.stickyBit, hmod]
    obtain hbit | hbit := Nat.mod_two_eq_zero_or_one (num / den) <;> rw [hbit] <;> omega

theorem Holds.shiftRight (h : Holds em num den) (hden : 0 < den) (n : Nat) :
    Holds (em >>> n) num (den * 2 ^ n) := by
  induction n with
  | zero => rwa [pow_zero, mul_one]
  | succ n ih =>
    rw [pow_succ, ← mul_assoc]
    exact ih.shiftRightOne (Nat.mul_pos hden (Nat.two_pow_pos n))

/-- The rounded mantissa is the rounded quotient. -/
theorem Holds.rounded (h : Holds em num den) : em.roundedMantissa = divideToEven num den := by
  obtain ⟨hmantissa, hround, hsticky⟩ := h
  obtain ⟨mantissa, roundBit, stickyBit⟩ := em
  unfold divideToEven
  dsimp only at hmantissa hround hsticky ⊢
  rw [← hmantissa]
  -- no fraction, less than a half, a half, more than a half
  cases roundBit <;> cases stickyBit <;>
    simp only [Bool.false_eq_true, false_iff, true_iff] at hround hsticky
  · rw [if_neg (by omega)]; rfl
  · rw [if_neg (by omega)]; rfl
  · show mantissa + mantissa % 2 = _
    split <;> omega
  · rw [if_pos (by omega)]; rfl

theorem roundedMantissa_shiftRight (m n : Nat) :
    (ExtendedMantissa.ofMantissaAndAccuracy m .exact >>> n).roundedMantissa =
      divideToEven m (2 ^ n) := by
  have h := ((holds_exact m).shiftRight Nat.one_pos n).rounded
  rwa [one_mul] at h

/-! ## Normal numbers -/

/-- A number with a mantissa of 53 bits. One integer tells its exponent and its mantissa, in the
order of the numbers, and carries from the mantissa into the exponent. -/
def Normal (s : Sign) (key : Int) (u : Float.Model.UnpackedFloat) : Prop :=
  ∃ m e, ∃ hm : 0 < m, u = .finite s m e hm ∧ 2 ^ 52 ≤ m ∧ m < 2 ^ 53 ∧ e * 2 ^ 52 + m = key

/-- A mantissa of more than 53 bits is shifted until it has 53. -/
theorem shiftToTargetExponent_eq {m j : Nat} {e : Int} (accuracy : Accuracy)
    (hm : m.log2 = 52 + j) (he : -1074 ≤ e + j) :
    shiftToTargetExponent Format.binary64 m e accuracy =
      (ExtendedMantissa.ofMantissaAndAccuracy m accuracy >>> j, e + j) := by
  have htarget : Format.binary64.targetExponent (totalExponent m e) = e + j := by
    show max (((m.log2 : Int) + 1 + e) - 53) (-1074) = e + j
    omega
  unfold shiftToTargetExponent
  dsimp only
  rw [htarget]
  unfold shiftToExponent
  dsimp only
  rw [add_sub_cancel_left, Int.toNat_natCast]

/-- A quotient of 53 bits and a fraction is rounded to 53 bits or to the next power of two. -/
theorem divideToEven_bounds {m j : Nat} (hm : m.log2 = 52 + j) :
    2 ^ 52 ≤ divideToEven m (2 ^ j) ∧ divideToEven m (2 ^ j) ≤ 2 ^ 53 := by
  have hpos : 0 < 2 ^ j := Nat.two_pow_pos j
  have hne : m ≠ 0 := by
    rintro rfl
    rw [Nat.log2_zero] at hm
    omega
  have hlow : 2 ^ 52 * 2 ^ j ≤ m := by
    rw [← pow_add, ← hm]
    exact Nat.log2_self_le hne
  have hhigh : m ≤ 2 ^ 53 * 2 ^ j := by
    rw [← pow_add, show 53 + j = m.log2 + 1 by omega]
    exact Nat.lt_log2_self.le
  constructor
  · have h := Decimal.divideToEven_mono hlow (2 ^ j)
    rwa [Decimal.divideToEven_mul hpos] at h
  · have h := Decimal.divideToEven_mono hhigh (2 ^ j)
    rwa [Decimal.divideToEven_mul hpos] at h

theorem log2_eq_of_lt {m : Nat} (hlow : 2 ^ 52 ≤ m) (hhigh : m < 2 ^ 53) : m.log2 = 52 :=
  (Nat.log2_eq_iff (by omega)).mpr ⟨hlow, hhigh⟩

/-- **What a mantissa of 53 bits or more is rounded to**: its leading bits as a rounded quotient. -/
theorem normal_roundWithAccuracy {m j : Nat} {e : Int} (s : Sign) (hm : m.log2 = 52 + j)
    (he : -1074 ≤ e + j) :
    Normal s ((e + j) * 2 ^ 52 + divideToEven m (2 ^ j))
      (roundWithAccuracy Format.binary64 s m e .exact) := by
  obtain ⟨hlow, hhigh⟩ := divideToEven_bounds hm
  unfold roundWithAccuracy
  rw [shiftToTargetExponent_eq _ hm he]
  dsimp only
  rw [roundedMantissa_shiftRight]
  obtain hlt | heq := hhigh.lt_or_eq
  · have hlog : (divideToEven m (2 ^ j)).log2 = 52 + 0 := log2_eq_of_lt hlow hlt
    rw [shiftToTargetExponent_eq _ hlog (by omega)]
    have hne : divideToEven m (2 ^ j) ≠ 0 := by omega
    refine ⟨_, e + j, Nat.pos_of_ne_zero hne, ?_, hlow, hlt, rfl⟩
    rw [Nat.cast_zero, add_zero]
    exact dif_neg hne
  · rw [heq]
    have hlog : (2 ^ 53 : Nat).log2 = 52 + 1 := Nat.log2_two_pow
    rw [shiftToTargetExponent_eq _ hlog (by omega)]
    have hne : (ExtendedMantissa.ofMantissaAndAccuracy (2 ^ 53) .exact >>> 1).mantissa ≠ 0 := by
      decide
    refine ⟨2 ^ 52, e + j + 1, by decide, dif_neg hne, le_rfl, by decide, ?_⟩
    push_cast
    ring

/-! ## Packing -/

theorem sign_packComponents (s : Sign) (e : BitVec 11) (m : BitVec 52) :
    Sign.ofBitVec (unpackSign (packComponents Format.binary64 s e m)) = s := by
  have hsign : unpackSign (packComponents Format.binary64 s e m) = s.toBitVec := by
    show (s.toBitVec ++ e ++ m).extractLsb' 63 1 = s.toBitVec
    rw [BitVec.extractLsb'_append_eq_of_le (by decide),
      BitVec.extractLsb'_append_eq_of_le (by decide)]
    exact BitVec.extractLsb'_eq_self
  rw [hsign]
  cases s <;> rfl

/-- The leading bit of a mantissa of 53 bits is left out, and put back. -/
theorem toNat_leading {m : Nat} (hlow : 2 ^ 52 ≤ m) (hhigh : m < 2 ^ 53) :
    (1#1 ++ BitVec.ofNat 52 m).toNat = m := by
  rw [BitVec.toNat_append, ← Nat.shiftLeft_add_eq_or_of_lt (BitVec.ofNat 52 m).isLt,
    BitVec.toNat_ofNat, BitVec.toNat_ofNat, Nat.shiftLeft_eq]
  omega

theorem finite_congr {s t : Sign} {m n : Nat} {e f : Int} {hm : 0 < m} {hn : 0 < n} (hs : s = t)
    (hmn : m = n) (he : e = f) :
    Float.Model.UnpackedFloat.finite s m e hm = .finite t n f hn := by
  subst hs hmn he
  rfl

/-- **Normal numbers are packed without loss**, if their exponent is in range. -/
theorem unpack_pack {s : Sign} {key : Int} {u : Float.Model.UnpackedFloat} (hu : Normal s key u)
    (hlow : -1073 * 2 ^ 52 ≤ key) (hhigh : key < 973 * 2 ^ 52) :
    (Float.Model.pack u).unpack = u := by
  obtain ⟨m, e, hpos, rfl, hmlow, hmhigh, hkey⟩ := hu
  obtain ⟨b, hb⟩ : ∃ b : Nat, e + 1075 = b := Int.eq_ofNat_of_zero_le (by omega)
  have hbias : (e + Format.binary64.exponentBias +
      Format.binary64.mantissaBitsWithoutImplicit).toNat = b := by
    show (e + 1023 + 52).toNat = b
    omega
  have hpack : UnpackedFloat.pack Format.binary64 (.finite s m e hpos) =
      packComponents Format.binary64 s (BitVec.ofNat 11 b) (BitVec.ofNat 52 m) := by
    unfold UnpackedFloat.pack
    dsimp only
    rw [hbias, log2_eq_of_lt hmlow hmhigh, if_neg (by omega),
      if_pos (show 52 + 1 = Format.binary64.mantissaBits from rfl)]
  have hexponent : (BitVec.ofNat 11 b).toNat = b := by
    rw [BitVec.toNat_ofNat]
    omega
  have hnotOnes : BitVec.ofNat 11 b ≠ -1#11 := by
    intro h
    have hnat := congrArg BitVec.toNat h
    rw [hexponent, BitVec.neg_one_eq_allOnes, BitVec.toNat_allOnes] at hnat
    omega
  have hnotZero : BitVec.ofNat 11 b ≠ 0#11 := by
    intro h
    have hnat := congrArg BitVec.toNat h
    rw [hexponent, BitVec.toNat_zero] at hnat
    omega
  show UnpackedFloat.unpack Format.binary64
    (UnpackedFloat.pack Format.binary64 (.finite s m e hpos)) = _
  rw [hpack]
  unfold UnpackedFloat.unpack
  dsimp only
  rw [if_neg (by rwa [unpackExponent_packComponents]),
    if_neg (by rwa [unpackExponent_packComponents])]
  refine finite_congr (sign_packComponents s _ _) ?_ ?_
  · rw [unpackMantissa_packComponents]
    exact toNat_leading hmlow hmhigh
  · have hbias' : (Format.binary64.exponentBias : Int) = 1023 := rfl
    rw [unpackExponent_packComponents, hexponent, hbias']
    omega

theorem normal_pack {s : Sign} {key : Int} {u : Float.Model.UnpackedFloat} (hu : Normal s key u)
    (hlow : -1073 * 2 ^ 52 ≤ key) (hhigh : key < 973 * 2 ^ 52) :
    Normal s key (Float.Model.pack u).unpack := by
  rwa [unpack_pack hu hlow hhigh]

end Mustache.Double
