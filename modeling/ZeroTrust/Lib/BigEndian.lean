import Mathlib.Data.Nat.Bitwise
import Mathlib.Tactic.Positivity

/-!
# Numbers in network order

A number is the disjunction of its bytes, each shifted to its place.
-/

namespace ZeroTrust

/-- A byte of a number joins the bytes above it. -/
theorem or_digit (n k : ℕ) : n / 2 ^ (k + 8) * 2 ^ (k + 8) ||| n / 2 ^ k % 2 ^ 8 * 2 ^ k = n / 2 ^ k * 2 ^ k := by
  have hlow : n / 2 ^ k % 2 ^ 8 * 2 ^ k < 2 ^ (k + 8) := by
    rw [pow_add, mul_comm (2 ^ k)]
    exact Nat.mul_lt_mul_of_pos_right (Nat.mod_lt _ (by positivity)) (by positivity)
  rw [← Nat.shiftLeft_eq _ (k + 8), ← Nat.shiftLeft_add_eq_or_of_lt hlow, Nat.shiftLeft_eq, pow_add,
    ← Nat.div_div_eq_div_mul, mul_comm (2 ^ k) (2 ^ 8), ← mul_assoc, ← add_mul, Nat.div_add_mod']

/-- A byte in its place fits into a word. -/
theorem digit_mod {k width : ℕ} (n : ℕ) (h : k + 8 ≤ width) : n % 2 ^ 8 * 2 ^ k % 2 ^ width = n % 2 ^ 8 * 2 ^ k := by
  apply Nat.mod_eq_of_lt
  calc n % 2 ^ 8 * 2 ^ k < 2 ^ 8 * 2 ^ k := Nat.mul_lt_mul_of_pos_right (Nat.mod_lt _ (by positivity)) (by positivity)
    _ = 2 ^ (k + 8) := by rw [pow_add, mul_comm]
    _ ≤ 2 ^ width := Nat.pow_le_pow_right (by decide) h

/-- A number of 32 bits is read back from its four bytes. -/
theorem uint32_of_bytes (v : UInt32) : (v >>> 24).toUInt8.toUInt32 <<< 24 ||| (v >>> 16).toUInt8.toUInt32 <<< 16 |||
    (v >>> 8).toUInt8.toUInt32 <<< 8 ||| v.toUInt8.toUInt32 = v := by
  apply UInt32.toNat_inj.mp
  have hfirst : v.toNat / 2 ^ 24 % 2 ^ 8 = v.toNat / 2 ^ 24 := Nat.mod_eq_of_lt (Nat.div_lt_of_lt_mul v.toNat_lt)
  have hlast := or_digit v.toNat 0
  rw [pow_zero, Nat.div_one, Nat.mul_one, Nat.mul_one] at hlast
  have hdigits : v.toNat / 2 ^ 24 % 2 ^ 8 * 2 ^ 24 ||| v.toNat / 2 ^ 16 % 2 ^ 8 * 2 ^ 16 |||
      v.toNat / 2 ^ 8 % 2 ^ 8 * 2 ^ 8 ||| v.toNat % 2 ^ 8 = v.toNat := by
    rw [hfirst, or_digit _ 16, or_digit _ 8, hlast]
  rw [← digit_mod _ (show 24 + 8 ≤ 32 by decide), ← digit_mod _ (show 16 + 8 ≤ 32 by decide),
    ← digit_mod _ (show 8 + 8 ≤ 32 by decide)] at hdigits
  refine Eq.trans ?_ hdigits
  simp only [UInt32.toNat_or, UInt32.toNat_shiftLeft, UInt32.toNat_shiftRight, UInt8.toNat_toUInt32,
    UInt32.toNat_toUInt8, Nat.shiftLeft_eq, Nat.shiftRight_eq_div_pow, UInt32.toNat_ofNat]

/-- A number of 16 bits is read back from its two bytes. -/
theorem uint16_of_bytes (v : UInt16) : (v >>> 8).toUInt8.toUInt16 <<< 8 ||| v.toUInt8.toUInt16 = v := by
  apply UInt16.toNat_inj.mp
  have hfirst : v.toNat / 2 ^ 8 % 2 ^ 8 = v.toNat / 2 ^ 8 := Nat.mod_eq_of_lt (Nat.div_lt_of_lt_mul v.toNat_lt)
  have hlast := or_digit v.toNat 0
  rw [pow_zero, Nat.div_one, Nat.mul_one, Nat.mul_one] at hlast
  have hdigits : v.toNat / 2 ^ 8 % 2 ^ 8 * 2 ^ 8 ||| v.toNat % 2 ^ 8 = v.toNat := by rw [hfirst, hlast]
  rw [← digit_mod _ (show 8 + 8 ≤ 16 by decide)] at hdigits
  refine Eq.trans ?_ hdigits
  simp only [UInt16.toNat_or, UInt16.toNat_shiftLeft, UInt16.toNat_shiftRight, UInt8.toNat_toUInt16,
    UInt16.toNat_toUInt8, Nat.shiftLeft_eq, Nat.shiftRight_eq_div_pow, UInt16.toNat_ofNat]

end ZeroTrust
