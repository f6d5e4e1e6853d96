import Mathlib.Order.Basic
import Mathlib.Data.String.Basic

/-!
# The order of texts is that of their bytes

Texts are compared by code points. The bytes of a code point in UTF-8 are ordered as the code points
are, and none of them is the start of another, so that comparing bytes gives the same order.

* `Text.bytes`: the bytes of a text;
* `Text.encode_lt`: the bytes of a smaller character, whatever follows;
* **`Text.bytes_le_bytes`**.
-/

namespace Mustache.Text

/-- The bytes of a text in UTF-8. -/
def bytes (s : String) : List UInt8 := s.toUTF8.data.toList

theorem bytes_eq (s : String) : bytes s = s.toList.flatMap String.utf8EncodeChar := by
  have hs : s.toByteArray = s.toList.utf8Encode := by
    rw [← String.toByteArray_ofList, String.ofList_toList]
  rw [bytes, String.toUTF8_eq_toByteArray, hs, List.utf8Encode, List.toList_data_toByteArray]

theorem byte_lt {m n : Nat} (hm : m < 256) (hn : n < 256) :
    UInt8.ofNat m < UInt8.ofNat n ↔ m < n := by
  rw [UInt8.lt_iff_toNat_lt, UInt8.toNat_ofNat_of_lt' hm, UInt8.toNat_ofNat_of_lt' hn]

theorem byte_inj {m n : Nat} (hm : m < 256) (hn : n < 256) :
    UInt8.ofNat m = UInt8.ofNat n ↔ m = n := by
  rw [← UInt8.toNat_inj, UInt8.toNat_ofNat_of_lt' hm, UInt8.toNat_ofNat_of_lt' hn]

/-- Of two numbers with four digits to base 64 the smaller one has the smaller digit where they
first differ. -/
theorem digits_lt {m n : Nat} (h : m < n) :
    m / 262144 < n / 262144 ∨ m / 262144 = n / 262144 ∧
      (m / 4096 % 64 < n / 4096 % 64 ∨ m / 4096 % 64 = n / 4096 % 64 ∧
        (m / 64 % 64 < n / 64 % 64 ∨ m / 64 % 64 = n / 64 % 64 ∧ m % 64 < n % 64)) := by
  obtain h | ⟨h, hlast⟩ : m / 64 < n / 64 ∨ m / 64 = n / 64 ∧ m % 64 < n % 64 := by omega
  · obtain h | ⟨h, hlast⟩ : m / 4096 < n / 4096 ∨
        m / 4096 = n / 4096 ∧ m / 64 % 64 < n / 64 % 64 := by omega
    · obtain h | ⟨h, hlast⟩ : m / 262144 < n / 262144 ∨
          m / 262144 = n / 262144 ∧ m / 4096 % 64 < n / 4096 % 64 := by omega
      · exact .inl h
      · exact .inr ⟨h, .inl hlast⟩
    · exact .inr ⟨by omega, .inr ⟨by omega, .inl hlast⟩⟩
  · exact .inr ⟨by omega, .inr ⟨by omega, .inr ⟨by omega, hlast⟩⟩⟩

/-- **Bytes are ordered as characters are**, and no character starts with the bytes of another. -/
theorem encode_lt {c d : Char} (h : c < d) (cs ds : List UInt8) :
    String.utf8EncodeChar c ++ cs < String.utf8EncodeChar d ++ ds := by
  have hval : c.val.toNat < d.val.toNat := h
  have hd : d.val.toNat < 0x110000 := by
    have := d.valid
    simp only [UInt32.isValidChar, Nat.isValidChar] at this
    omega
  have hdigits := digits_lt hval
  rw [← Nat.mod_eq_of_lt (show c.val.toNat / 262144 < 8 by omega),
    ← Nat.mod_eq_of_lt (show d.val.toNat / 262144 < 8 by omega)] at hdigits
  unfold String.utf8EncodeChar
  dsimp only
  split_ifs <;>
    simp (disch := omega) only [List.cons_append, List.nil_append, List.cons_lt_cons_iff, byte_lt,
      byte_inj] <;>
    omega

theorem flatMap_encode_lt {cs ds : List Char} (h : cs < ds) :
    cs.flatMap String.utf8EncodeChar < ds.flatMap String.utf8EncodeChar := by
  induction h with
  | @nil d ds =>
    have hne : (d :: ds).flatMap String.utf8EncodeChar ≠ [] := by
      rw [List.flatMap_cons]
      exact List.append_ne_nil_of_left_ne_nil String.utf8EncodeChar_ne_nil _
    obtain ⟨b, bs, hb⟩ := List.exists_cons_of_ne_nil hne
    rw [hb]
    exact .nil
  | rel h => exact encode_lt h _ _
  | cons _ ih => exact List.append_left_lt ih

/-- **Texts are ordered as their bytes are.** -/
theorem bytes_le_bytes {s t : String} : bytes s ≤ bytes t ↔ s ≤ t := by
  have hlt {s t : String} (h : s < t) : bytes s < bytes t := by
    rw [bytes_eq, bytes_eq]
    exact flatMap_encode_lt (String.lt_iff_toList_lt.mp h)
  constructor
  · intro h
    by_contra hn
    exact h (hlt (not_le.mp hn))
  · intro h
    obtain rfl | h := h.eq_or_lt
    · exact List.le_refl _
    · exact List.le_of_lt (hlt h)

end Mustache.Text
