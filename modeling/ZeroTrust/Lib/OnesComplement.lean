import Mathlib.Data.Nat.ModEq
import Mathlib.Data.List.Induction

/-!
# Ones'-complement sums

A sum of `w`-bit words with end-around carry. It is known modulo `2 ^ w - 1`, where zero has the two
representations `0` and `2 ^ w - 1`; which of them a sum has is settled by the sum of the words being
zero. `IsOnesSum` says both, so it determines the result of every way to carry.
-/

namespace ZeroTrust

/-- One end-around carry: the part above `2 ^ w` is added back below. -/
def endAround (w n : ℕ) : ℕ := n % 2 ^ w + n / 2 ^ w

/-- Ones'-complement addition of two words. -/
def onesAdd (w a b : ℕ) : ℕ := if a + b < 2 ^ w then a + b else a + b + 1 - 2 ^ w

/-- The ones'-complement sum of a sequence of words. -/
def onesSum (w : ℕ) (words : List ℕ) : ℕ := words.foldl (onesAdd w) 0

/-- The word `r` stands for the sum `n`. -/
structure IsOnesSum (w n r : ℕ) : Prop where
  lt : r < 2 ^ w
  congr : r ≡ n [MOD 2 ^ w - 1]
  zero_iff : r = 0 ↔ n = 0

/-- A carry does not change the residue. -/
theorem endAround_modEq (w n : ℕ) : endAround w n ≡ n [MOD 2 ^ w - 1] := by
  have hone : 2 ^ w ≡ 1 [MOD 2 ^ w - 1] := by
    apply Nat.ModEq.symm
    apply (Nat.modEq_iff_dvd' Nat.one_le_two_pow).mpr
    exact dvd_refl _
  have hscaled : 2 ^ w * (n / 2 ^ w) ≡ n / 2 ^ w [MOD 2 ^ w - 1] := by
    simpa using hone.mul_right (n / 2 ^ w)
  calc endAround w n
      _ ≡ n % 2 ^ w + 2 ^ w * (n / 2 ^ w) [MOD 2 ^ w - 1] := hscaled.symm.add_left _
      _ = n := Nat.mod_add_div n (2 ^ w)

/-- A carry never makes zero of anything else. -/
theorem endAround_eq_zero (w n : ℕ) : endAround w n = 0 ↔ n = 0 := by
  constructor
  · intro h
    have hdiv := Nat.mod_add_div n (2 ^ w)
    rw [endAround, Nat.add_eq_zero_iff] at h
    rw [h.1, h.2] at hdiv
    simpa using hdiv.symm
  · intro h
    simp [endAround, h]

/-- A carry makes a number of more than `w` bits smaller. -/
theorem endAround_lt {w n : ℕ} (hw : 0 < w) (h : 2 ^ w ≤ n) : endAround w n < n := by
  have htwo : 2 ≤ 2 ^ w := by simpa using Nat.pow_le_pow_right (by omega : 0 < 2) hw
  have hquot : 0 < n / 2 ^ w := Nat.div_pos h (by omega)
  have hdiv := Nat.mod_add_div n (2 ^ w)
  have hscaled : 2 * (n / 2 ^ w) ≤ 2 ^ w * (n / 2 ^ w) := Nat.mul_le_mul_right _ htwo
  rw [endAround]
  omega

namespace IsOnesSum

variable {w n n' r r' : ℕ}

/-- A sum has one word. -/
theorem unique (h : IsOnesSum w n r) (h' : IsOnesSum w n r') : r = r' := by
  by_cases hn : n = 0
  · rw [h.zero_iff.mpr hn, h'.zero_iff.mpr hn]
  · have hr : r ≠ 0 := fun hz => hn (h.zero_iff.mp hz)
    have hr' : r' ≠ 0 := fun hz => hn (h'.zero_iff.mp hz)
    have hmod : r ≡ r' [MOD 2 ^ w - 1] := h.congr.trans h'.congr.symm
    have hlt := h.lt
    have hlt' := h'.lt
    -- both lie in `1 .. 2 ^ w - 1`, one full period
    have hpred : r - 1 ≡ r' - 1 [MOD 2 ^ w - 1] := by
      apply Nat.ModEq.add_right_cancel' 1
      simpa only [Nat.sub_add_cancel (Nat.pos_of_ne_zero hr), Nat.sub_add_cancel (Nat.pos_of_ne_zero hr')]
        using hmod
    have heq := hpred.eq_of_lt_of_lt (by omega) (by omega)
    omega

/-- A word stands for itself. -/
theorem self (h : n < 2 ^ w) : IsOnesSum w n n := ⟨h, rfl, Iff.rfl⟩

/-- A carry of the sum is another form of it. -/
theorem of_endAround (h : IsOnesSum w (endAround w n) r) : IsOnesSum w n r :=
  ⟨h.lt, h.congr.trans (endAround_modEq w n), h.zero_iff.trans (endAround_eq_zero w n)⟩

/-- The words of two sums add up to the word of both. -/
theorem onesAdd (h : IsOnesSum w n r) (h' : IsOnesSum w n' r') : IsOnesSum w (n + n') (onesAdd w r r') := by
  have hlt := h.lt
  have hlt' := h'.lt
  have hsum : r + r' ≡ n + n' [MOD 2 ^ w - 1] := h.congr.add h'.congr
  have hzero : r + r' = 0 ↔ n + n' = 0 := by
    rw [Nat.add_eq_zero_iff, Nat.add_eq_zero_iff, h.zero_iff, h'.zero_iff]
  by_cases hcarry : r + r' < 2 ^ w
  · rw [ZeroTrust.onesAdd, if_pos hcarry]
    exact ⟨hcarry, hsum, hzero⟩
  · rw [ZeroTrust.onesAdd, if_neg hcarry]
    have hpow : 1 ≤ 2 ^ w := Nat.one_le_two_pow
    constructor
    · omega
    · have hsplit : r + r' = (r + r' + 1 - 2 ^ w) + (2 ^ w - 1) := by omega
      rw [hsplit] at hsum
      simpa [Nat.ModEq] using hsum
    · rw [← hzero]
      omega

/-- With the complement of its own word a sum is all ones. -/
theorem add_complement (h : IsOnesSum w n r) : IsOnesSum w (n + (2 ^ w - 1 - r)) (2 ^ w - 1) := by
  have hlt := h.lt
  have hpow : 1 ≤ 2 ^ w := Nat.one_le_two_pow
  constructor
  · omega
  · have hsum := h.congr.add_right (2 ^ w - 1 - r)
    rwa [Nat.add_sub_cancel' (by omega : r ≤ 2 ^ w - 1)] at hsum
  · have hzero := h.zero_iff
    omega

end IsOnesSum

/-- The ones'-complement sum stands for the sum of the words. -/
theorem isOnesSum_onesSum {w : ℕ} (words : List ℕ) (hwords : ∀ x ∈ words, x < 2 ^ w) :
    IsOnesSum w words.sum (onesSum w words) := by
  induction words using List.reverseRecOn with
  | nil => exact IsOnesSum.self (Nat.two_pow_pos w)
  | append_singleton words last ih =>
    have hfront := ih fun x hx => hwords x (List.mem_append_left _ hx)
    have hlast : last < 2 ^ w := hwords last (by simp)
    have hboth := hfront.onesAdd (IsOnesSum.self hlast)
    simpa [onesSum, List.foldl_append] using hboth

end ZeroTrust
