import Mathlib.Data.Nat.Bitwise
import Mathlib.Algebra.Order.Ring.Nat

/-!
# Blocks of numbers

The numbers that agree in all but their last `k` binary digits form a block of `2 ^ k` numbers. It starts at
the one whose last `k` digits are zero.
-/

namespace ZeroTrust

/-- The number with its last `k` binary digits cleared. -/
def blockStart (k n : ℕ) : ℕ := n / 2 ^ k * 2 ^ k

/-- The numbers agree in all but their last `k` binary digits. -/
def SameBlock (k m n : ℕ) : Prop := m / 2 ^ k = n / 2 ^ k

variable {k m n : ℕ}

/-- A block is an interval. -/
theorem sameBlock_iff : SameBlock k m n ↔ blockStart k m ≤ n ∧ n < blockStart k m + 2 ^ k := by
  rw [SameBlock, eq_comm, Nat.div_eq_iff (Nat.two_pow_pos k), blockStart]
  have hpos := Nat.two_pow_pos k
  omega

/-- The numbers of one block have one start. -/
theorem SameBlock.blockStart_eq (h : SameBlock k m n) : blockStart k m = blockStart k n := congrArg (· * 2 ^ k) h

/-- The blocks of the numbers of a word are inside of the word. -/
theorem blockStart_add_le {width : ℕ} (hn : n < 2 ^ width) (hk : k ≤ width) : blockStart k n + 2 ^ k ≤ 2 ^ width := by
  have hwidth : 2 ^ (width - k) * 2 ^ k = 2 ^ width := by rw [← pow_add, Nat.sub_add_cancel hk]
  have hquotient : n / 2 ^ k < 2 ^ (width - k) := by
    apply Nat.div_lt_of_lt_mul
    rwa [Nat.mul_comm, hwidth]
  calc blockStart k n + 2 ^ k = (n / 2 ^ k + 1) * 2 ^ k := by rw [blockStart, add_mul, one_mul]
    _ ≤ 2 ^ (width - k) * 2 ^ k := Nat.mul_le_mul_right _ hquotient
    _ = 2 ^ width := hwidth

/-- The mask of the leading digits of a word clears the last ones. -/
theorem and_leadingDigits {width : ℕ} (hn : n < 2 ^ width) (k : ℕ) :
    n &&& (2 ^ width - 1) <<< k % 2 ^ width = blockStart k n := by
  apply Nat.eq_of_testBit_eq
  intro i
  rw [blockStart, Nat.testBit_and, Nat.testBit_mod_two_pow, Nat.testBit_shiftLeft, Nat.testBit_two_pow_sub_one,
    Nat.testBit_mul_two_pow, Nat.testBit_div_two_pow]
  by_cases hi : i < width
  · by_cases hk : k ≤ i
    · simp [hi, hk, Nat.sub_add_cancel hk]
      omega
    · simp [hk]
  · have hzero : n.testBit i = false :=
      Nat.testBit_lt_two_pow (hn.trans_le (Nat.pow_le_pow_right (by decide) (Nat.not_lt.mp hi)))
    by_cases hk : k ≤ i
    · simp [hi, hk, Nat.sub_add_cancel hk, hzero]
    · simp [hi, hk]

end ZeroTrust
