import ZeroTrust.Scan.Dpkg
import ZeroTrust.Core.CString
import Mathlib.Tactic.Ring

/-!
# The package comparison is the policy order

One iteration of the outer loop compares one part of each version and continues behind
both parts exactly when they are equivalent. On text without zero bytes the loop therefore
ends with the sign of `policyCompare`, which is a total preorder by construction.
-/

namespace ZeroTrust

open Std (TransCmp OrientedCmp ReflCmp)

/-- The range of `signed char`. -/
theorem signedChar_bounds (c : Byte) : -128 ≤ signedChar c ∧ signedChar c ≤ 127 := by
  have := c.toNat_lt
  unfold signedChar
  split <;> omega

/-- The range of the letters. -/
theorem signedChar_of_isAlpha {c : Byte} (h : isAlpha c) : 65 ≤ signedChar c ∧ signedChar c ≤ 122 := by
  simp only [isAlpha, Bool.or_eq_true, Bool.and_eq_true, decide_eq_true_eq,
    UInt8.le_iff_toNat_le, UInt8.reduceToNat] at h
  unfold signedChar
  rw [if_pos (by omega)]
  omega

/-- The order value of a character in terms of its class. -/
theorem dpkgCharOrder_class {c : Byte} (h : c ≠ 0) :
    (policyClass (some c) = 0 ∧ dpkgCharOrder c = -1 ∧ signedChar c = 126) ∨
    (policyClass (some c) = 2 ∧ dpkgCharOrder c = signedChar c ∧ 65 ≤ signedChar c ∧
      signedChar c ≤ 122) ∨
    (policyClass (some c) = 3 ∧ dpkgCharOrder c = signedChar c + 256) := by
  unfold dpkgCharOrder policyClass
  rw [if_neg h]
  by_cases ht : c = 126
  · subst ht; exact Or.inl (by decide)
  · by_cases ha : isAlpha c
    · exact Or.inr (Or.inl (by simp [ht, ha, signedChar_of_isAlpha ha]))
    · exact Or.inr (Or.inr (by simp [ht, ha]))

/-- A shift of both sides does not change their order. -/
theorem compare_add_right (a b k : ℤ) : compare (a + k) (b + k) = compare a b := by
  rcases lt_trichotomy a b with h | h | h
  · rw [compare_lt_iff_lt.mpr h, compare_lt_iff_lt.mpr (by omega)]
  · rw [compare_eq_iff_eq.mpr h, compare_eq_iff_eq.mpr (by omega)]
  · rw [compare_gt_iff_gt.mpr h, compare_gt_iff_gt.mpr (by omega)]

/-- The order values of two characters compare as policy says. -/
theorem compare_dpkgCharOrder {c d : Byte} (hc : c ≠ 0) (hd : d ≠ 0) :
    compare (dpkgCharOrder c) (dpkgCharOrder d) = policyCompareChar (some c) (some d) := by
  have bc := signedChar_bounds c
  have bd := signedChar_bounds d
  simp only [policyCompareChar, compareLex, compareOn, Option.getD_some]
  rcases dpkgCharOrder_class hc with ⟨h₁, h₂, h₃⟩ | ⟨h₁, h₂, h₃⟩ | ⟨h₁, h₂⟩ <;>
    rcases dpkgCharOrder_class hd with ⟨k₁, k₂, k₃⟩ | ⟨k₁, k₂, k₃⟩ | ⟨k₁, k₂⟩ <;>
    rw [h₁, h₂, k₁, k₂]
  · rw [h₃, k₃]; rfl
  · exact compare_lt_iff_lt.mpr (by omega)
  · exact compare_lt_iff_lt.mpr (by omega)
  · exact compare_gt_iff_gt.mpr (by omega)
  · rfl
  · exact compare_lt_iff_lt.mpr (by omega)
  · exact compare_gt_iff_gt.mpr (by omega)
  · exact compare_gt_iff_gt.mpr (by omega)
  · exact compare_add_right _ _ _

/-- The end of a run has order value 0 and compares as policy says. -/
theorem compare_dpkgCharOrder_zero {c : Byte} (hc : c ≠ 0) :
    compare (dpkgCharOrder c) 0 = policyCompareChar (some c) none ∧
      policyCompareChar (some c) none ≠ .eq := by
  have bc := signedChar_bounds c
  simp only [policyCompareChar, compareLex, compareOn]
  rcases dpkgCharOrder_class hc with ⟨h₁, h₂, -⟩ | ⟨h₁, h₂, h₃⟩ | ⟨h₁, h₂⟩ <;> rw [h₁, h₂]
  · exact ⟨rfl, nofun⟩
  · exact ⟨compare_gt_iff_gt.mpr (by omega), nofun⟩
  · exact ⟨compare_gt_iff_gt.mpr (by omega), nofun⟩

/-- The code's verdict on two order values is the sign of their comparison. -/
theorem verdict_eq_orderingSign {a b : ℤ} (h : a ≠ b) :
    (if a < b then -1 else 1) = orderingSign (compare a b) := by
  rcases lt_or_gt_of_ne h with h | h
  · rw [if_pos h, compare_lt_iff_lt.mpr h]; rfl
  · rw [if_neg (by omega), compare_gt_iff_gt.mpr h]; rfl

/-- The cursor of a run is at its end or at a character of it. -/
theorem runHead_cases {a : Bytes} (ha : NulFree a) :
    (runHead a = 0 ∧ a.takeWhile (!isDigit ·) = [] ∧ a.dropWhile (!isDigit ·) = a) ∨
      ∃ c a', a = c :: a' ∧ c ≠ 0 ∧ isDigit c = false ∧ runHead a = c := by
  cases a with
  | nil => exact Or.inl ⟨rfl, rfl, rfl⟩
  | cons c a =>
    cases hc : isDigit c with
    | true => exact Or.inl (by simp [runHead, hc])
    | false =>
      exact Or.inr ⟨c, a, rfl, fun h => ha (h ▸ List.mem_cons_self), hc, by simp [runHead, hc]⟩

/-- A verdict other than equality survives whatever is compared next. -/
theorem then_of_ne_eq {o p : Ordering} (h : o ≠ .eq) : o.then p = o := by
  cases o <;> first | rfl | exact absurd rfl h

/-- What the run loop returns for a verdict of policy. -/
def runEndOf (a b : Bytes) : Ordering → RunEnd
  | .eq => .stopped (a.dropWhile (!isDigit ·)) (b.dropWhile (!isDigit ·))
  | verdict => .decided (orderingSign verdict)

/-- A difference decides. -/
theorem runEndOf_of_ne_eq {a b : Bytes} {o : Ordering} (h : o ≠ .eq) :
    runEndOf a b o = .decided (orderingSign o) := by
  cases o <;> first | rfl | exact absurd rfl h

/-- Two ends stop the run. -/
theorem nonDigitRun_stop {a b : Bytes} (ha : runHead a = 0) (hb : runHead b = 0) :
    nonDigitRun.step (a, b) = .inr (.stopped a b) := by
  simp [nonDigitRun, ha, hb]

/-- Different orders decide. -/
theorem nonDigitRun_decide {a b : Bytes} (h : dpkgCharOrder (runHead a) ≠ dpkgCharOrder (runHead b)) :
    nonDigitRun.step (a, b) = .inr (.decided
      (orderingSign (compare (dpkgCharOrder (runHead a)) (dpkgCharOrder (runHead b))))) := by
  have hhead : ¬(runHead a = 0 ∧ runHead b = 0) := fun hab => h (by rw [hab.1, hab.2])
  have hempty : ¬(a = [] ∧ b = []) := fun hab => hhead (by rw [hab.1, hab.2]; exact ⟨rfl, rfl⟩)
  simp only [nonDigitRun, hhead, hempty, if_false, ne_eq, h, not_false_eq_true, if_true,
    verdict_eq_orderingSign h]

/-- The same order goes on. -/
theorem nonDigitRun_continue {a b : Bytes} (ha : runHead a ≠ 0)
    (h : dpkgCharOrder (runHead a) = dpkgCharOrder (runHead b)) :
    nonDigitRun.step (a, b) = .inl (runAdvance a, runAdvance b) := by
  have hempty : ¬(a = [] ∧ b = []) := fun hab => ha (by rw [hab.1]; rfl)
  simp only [nonDigitRun, ha, false_and, hempty, if_false, ne_eq, h, not_true_eq_false]

/-- The run loop decides by the runs, or stops behind both of them. -/
theorem nonDigitRun_run {a b : Bytes} (ha : NulFree a) (hb : NulFree b) :
    nonDigitRun.run (a, b) = runEndOf a b
      (policyCompareRun (a.takeWhile (!isDigit ·)) (b.takeWhile (!isDigit ·))) := by
  induction hn : a.length using Nat.strongRecOn generalizing a b with
  | ind n ih =>
    rcases runHead_cases ha with ⟨ha₀, hat, had⟩ | ⟨c, a, rfl, hc, hcd, hah⟩ <;>
      rcases runHead_cases hb with ⟨hb₀, hbt, hbd⟩ | ⟨d, b, rfl, hd, hdd, hbh⟩
    · rw [hat, hbt, Loop.run_of_exit _ (nonDigitRun_stop ha₀ hb₀)]
      simp [policyCompareRun, runEndOf, had, hbd]
    · obtain ⟨hcmp, hne⟩ := compare_dpkgCharOrder_zero hd
      have hswap : compare (dpkgCharOrder (runHead a)) (dpkgCharOrder (runHead (d :: b))) =
          policyCompareChar none (some d) := by
        rw [ha₀, hbh, @OrientedCmp.eq_swap _ compare _, @OrientedCmp.eq_swap _ policyCompareChar _,
          ← hcmp]
        rfl
      have hne' : policyCompareChar none (some d) ≠ .eq := by
        rw [@OrientedCmp.eq_swap _ policyCompareChar _]
        simpa using hne
      have horder : dpkgCharOrder (runHead a) ≠ dpkgCharOrder (runHead (d :: b)) :=
        fun h => hne' (hswap ▸ compare_eq_iff_eq.mpr h)
      rw [Loop.run_of_exit _ (nonDigitRun_decide horder), hswap, hat, policyCompareRun]
      simp only [List.takeWhile_cons, hdd, Bool.not_false, if_true, List.map_nil, List.map_cons,
        paddedCompare_nil_cons, then_of_ne_eq hne', runEndOf_of_ne_eq hne']
    · obtain ⟨hcmp, hne⟩ := compare_dpkgCharOrder_zero hc
      have hcmp' : compare (dpkgCharOrder (runHead (c :: a))) (dpkgCharOrder (runHead b)) =
          policyCompareChar (some c) none := by
        rw [hb₀, hah]; exact hcmp
      have horder : dpkgCharOrder (runHead (c :: a)) ≠ dpkgCharOrder (runHead b) :=
        fun h => hne (hcmp' ▸ compare_eq_iff_eq.mpr h)
      rw [Loop.run_of_exit _ (nonDigitRun_decide horder), hcmp', hbt, policyCompareRun]
      simp only [List.takeWhile_cons, hcd, Bool.not_false, if_true, List.map_nil, List.map_cons,
        paddedCompare_cons_nil, then_of_ne_eq hne, runEndOf_of_ne_eq hne]
    · have hcmp : compare (dpkgCharOrder (runHead (c :: a))) (dpkgCharOrder (runHead (d :: b))) =
          policyCompareChar (some c) (some d) := by
        rw [hah, hbh, compare_dpkgCharOrder hc hd]
      have hruns : policyCompareRun ((c :: a).takeWhile (!isDigit ·)) ((d :: b).takeWhile (!isDigit ·)) =
          (policyCompareChar (some c) (some d)).then
            (policyCompareRun (a.takeWhile (!isDigit ·)) (b.takeWhile (!isDigit ·))) := by
        simp [policyCompareRun, hcd, hdd]
      rw [hruns, ← hcmp]
      by_cases horder : dpkgCharOrder (runHead (c :: a)) = dpkgCharOrder (runHead (d :: b))
      · have hadvance : runAdvance (c :: a) = a ∧ runAdvance (d :: b) = b := by
          simp [runAdvance, hah, hbh, hc, hd]
        rw [Loop.run_of_continue _ (nonDigitRun_continue (by rw [hah]; exact hc) horder), hadvance.1, hadvance.2,
          compare_eq_iff_eq.mpr horder, ih a.length (by simp [← hn]) (fun h => ha (List.mem_cons_of_mem _ h))
            (fun h => hb (List.mem_cons_of_mem _ h)) rfl]
        simp only [Ordering.then]
        cases policyCompareRun (a.takeWhile (!isDigit ·)) (b.takeWhile (!isDigit ·)) <;>
          simp [runEndOf, hcd, hdd]
      · have hne := compare_eq_iff_eq.not.mpr horder
        rw [Loop.run_of_exit _ (nonDigitRun_decide horder), then_of_ne_eq hne, runEndOf_of_ne_eq hne]

/-- The range of the digits. -/
theorem toNat_of_isDigit {c : Byte} (h : isDigit c) : 48 ≤ c.toNat ∧ c.toNat ≤ 57 := by
  simpa [isDigit, UInt8.le_iff_toNat_le] using h

/-- Digits behind a number shift it. -/
theorem digitsValue_foldl (s : Bytes) (n : ℕ) :
    s.foldl (fun n c => 10 * n + (c.toNat - 48)) n = n * 10 ^ s.length + digitsValue s := by
  unfold digitsValue
  induction s generalizing n with
  | nil => simp
  | cons c s ih =>
    rw [List.foldl_cons, ih, List.foldl_cons, ih (10 * 0 + _), List.length_cons, pow_succ]
    ring

/-- No digits are zero. -/
@[simp] theorem digitsValue_nil : digitsValue [] = 0 := rfl

/-- The leading digit counts with the weight of its position. -/
@[simp] theorem digitsValue_cons (c : Byte) (s : Bytes) :
    digitsValue (c :: s) = (c.toNat - 48) * 10 ^ s.length + digitsValue s := by
  have h := digitsValue_foldl s (10 * 0 + (c.toNat - 48))
  simpa [digitsValue] using h

/-- A run of digits is below the power of its length. -/
theorem digitsValue_lt {s : Bytes} (h : s.all isDigit) : digitsValue s < 10 ^ s.length := by
  induction s with
  | nil => exact Nat.one_pos
  | cons c s ih =>
    rw [List.all_cons, Bool.and_eq_true] at h
    have hc := toNat_of_isDigit h.1
    have hs := ih h.2
    have hweight : (c.toNat - 48) * 10 ^ s.length ≤ 9 * 10 ^ s.length :=
      Nat.mul_le_mul_right _ (by omega)
    rw [digitsValue_cons, List.length_cons, pow_succ]
    omega

/-- Without a leading zero a run of digits reaches the power below its length. -/
theorem le_digitsValue {c : Byte} {s : Bytes} (h : isDigit c) (hc : c ≠ 48) :
    10 ^ s.length ≤ digitsValue (c :: s) := by
  have hdigit := toNat_of_isDigit h
  have hne : c.toNat ≠ 48 := fun heq => hc (UInt8.toNat_inj.mp heq)
  have hweight : 1 * 10 ^ s.length ≤ (c.toNat - 48) * 10 ^ s.length :=
    Nat.mul_le_mul_right _ (by omega)
  rw [digitsValue_cons]
  omega

/-- A longer run without leading zero is larger. -/
theorem digitsValue_lt_of_length_lt {x y : Bytes} (hx : x.all isDigit) (hy : y.all isDigit)
    (hzero : y.head? ≠ some 48) (h : x.length < y.length) : digitsValue x < digitsValue y := by
  cases y with
  | nil => exact absurd h (Nat.not_lt_zero _)
  | cons c y =>
    have hc : isDigit c := (Bool.and_eq_true _ _ ▸ List.all_cons ▸ hy).1
    calc digitsValue x < 10 ^ x.length := digitsValue_lt hx
      _ ≤ 10 ^ y.length := Nat.pow_le_pow_right (by decide) (Nat.lt_succ_iff.mp h)
      _ ≤ digitsValue (c :: y) := le_digitsValue hc (fun heq => hzero (by rw [heq]; rfl))

/-- The digit loop compares numbers of equal length. -/
theorem digitLoop_eq {x y : Bytes} (hx : x.all isDigit) (hy : y.all isDigit)
    (hlength : x.length = y.length) :
    digitLoop x y = if digitsValue x = digitsValue y then none
      else some (orderingSign (compare (digitsValue x) (digitsValue y))) := by
  induction x generalizing y with
  | nil =>
    cases y with
    | nil => rfl
    | cons d y => exact absurd hlength (by simp)
  | cons c x ih =>
    cases y with
    | nil => exact absurd hlength (by simp)
    | cons d y =>
      rw [List.all_cons, Bool.and_eq_true] at hx hy
      replace hlength : x.length = y.length := by simpa using hlength
      have hxlt := digitsValue_lt hx.2
      have hylt := digitsValue_lt hy.2
      rw [hlength] at hxlt
      have hc := toNat_of_isDigit hx.1
      have hd := toNat_of_isDigit hy.1
      rw [digitLoop, digitsValue_cons, digitsValue_cons, hlength]
      -- a smaller leading digit outweighs everything behind it
      have hweight : ∀ {c d : Byte} {m n : ℕ}, 48 ≤ c.toNat → c.toNat < d.toNat → m < 10 ^ y.length →
          (c.toNat - 48) * 10 ^ y.length + m < (d.toNat - 48) * 10 ^ y.length + n := by
        intro c d m n hc hcd hm
        have := Nat.mul_le_mul_right (10 ^ y.length) (show c.toNat - 48 + 1 ≤ d.toNat - 48 by omega)
        rw [Nat.add_mul, Nat.one_mul] at this
        omega
      rcases lt_trichotomy c.toNat d.toNat with h | h | h
      · have hlt := hweight hc.1 h hxlt (n := digitsValue y)
        have hcd : c < d := UInt8.lt_iff_toNat_lt.mpr h
        have hne : c ≠ d := fun heq => by rw [heq] at h; omega
        rw [if_pos hne, if_pos hcd, if_neg (by omega), compare_lt_iff_lt.mpr hlt]
        rfl
      · obtain rfl := UInt8.toNat_inj.mp h
        rw [if_neg (by simp), ih hx.2 hy.2 hlength]
        simp only [Nat.add_left_cancel_iff]
        congr 3
        rcases lt_trichotomy (digitsValue x) (digitsValue y) with h | h | h
        · rw [compare_lt_iff_lt.mpr h, compare_lt_iff_lt.mpr (by omega)]
        · rw [compare_eq_iff_eq.mpr h, compare_eq_iff_eq.mpr (by omega)]
        · rw [compare_gt_iff_gt.mpr h, compare_gt_iff_gt.mpr (by omega)]
      · have hlt := hweight hd.1 h hylt (n := digitsValue x)
        have hcd : ¬c < d := fun hlt => by rw [UInt8.lt_iff_toNat_lt] at hlt; omega
        have hne : c ≠ d := fun heq => by rw [heq] at h; omega
        rw [if_pos hne, if_neg hcd, if_neg (by omega),
          compare_gt_iff_gt.mpr hlt]
        rfl

/-- Leading zeros do not change a number. -/
theorem digitsValue_dropWhile_zero (s : Bytes) :
    digitsValue ((s.dropWhile (· == 48)).takeWhile isDigit) = digitsValue (s.takeWhile isDigit) := by
  induction s with
  | nil => rfl
  | cons c s ih =>
    by_cases h : c = 48
    · subst h
      have hd : isDigit 48 = true := by decide
      simpa [hd] using ih
    · simp [h]

/-- Leading zeros are digits. -/
theorem dropWhile_isDigit_dropWhile_zero (s : Bytes) :
    (s.dropWhile (· == 48)).dropWhile isDigit = s.dropWhile isDigit := by
  induction s with
  | nil => rfl
  | cons c s ih =>
    by_cases h : c = 48
    · subst h
      have hd : isDigit 48 = true := by decide
      simpa [hd] using ih
    · simp [h]

/-- Behind the leading zeros there is another digit or none. -/
theorem head?_takeWhile_dropWhile_zero (s : Bytes) :
    ((s.dropWhile (· == 48)).takeWhile isDigit).head? ≠ some 48 := by
  induction s with
  | nil => nofun
  | cons c s ih =>
    by_cases h : c = 48
    · simpa [h] using ih
    · cases hc : isDigit c <;> simp [h, hc]

/-- The part that was taken, by its length. -/
theorem take_length_takeWhile (p : Byte → Bool) (s : Bytes) :
    s.take (s.takeWhile p).length = s.takeWhile p :=
  (List.prefix_iff_eq_take.mp (List.takeWhile_prefix p)).symm

/-- The part that was left, by the length of what was taken. -/
theorem drop_length_takeWhile (p : Byte → Bool) (s : Bytes) :
    s.drop (s.takeWhile p).length = s.dropWhile p := by
  conv_lhs => arg 2; rw [← List.takeWhile_append_dropWhile (p := p) (l := s)]
  rw [List.drop_left]

/-- What an iteration does for a verdict on the leading parts. -/
def stepOf (rest : Bytes × Bytes) : Ordering → (Bytes × Bytes) ⊕ ℤ
  | .eq => .inl rest
  | verdict => .inr (orderingSign verdict)

/-- A difference ends the comparison. -/
theorem stepOf_of_ne_eq {rest : Bytes × Bytes} {o : Ordering} (h : o ≠ .eq) :
    stepOf rest o = .inr (orderingSign o) := by
  cases o <;> first | rfl | exact absurd rfl h

/-- Behind equivalent runs the iteration compares the numbers. -/
theorem dpkgStep_stopped {a b a' b' : Bytes} (hempty : ¬(a = [] ∧ b = []))
    (h : nonDigitRun.run (a, b) = .stopped a' b') :
    dpkgStep (a, b) = stepOf (a'.dropWhile isDigit, b'.dropWhile isDigit)
      (compare (digitsValue (a'.takeWhile isDigit)) (digitsValue (b'.takeWhile isDigit))) := by
  have hx : ((a'.dropWhile (· == 48)).takeWhile isDigit).all isDigit := List.all_takeWhile
  have hy : ((b'.dropWhile (· == 48)).takeWhile isDigit).all isDigit := List.all_takeWhile
  have hxzero := head?_takeWhile_dropWhile_zero a'
  have hyzero := head?_takeWhile_dropWhile_zero b'
  rw [← digitsValue_dropWhile_zero a', ← digitsValue_dropWhile_zero b']
  simp only [dpkgStep, hempty, if_false, h]
  rcases lt_trichotomy ((a'.dropWhile (· == 48)).takeWhile isDigit).length
    ((b'.dropWhile (· == 48)).takeWhile isDigit).length with hlt | heq | hgt
  · have hvalue := digitsValue_lt_of_length_lt hx hy hyzero hlt
    rw [if_pos (by omega), if_pos hlt, compare_lt_iff_lt.mpr hvalue]
    rfl
  · rw [if_neg (by omega), drop_length_takeWhile, drop_length_takeWhile, take_length_takeWhile, heq,
      take_length_takeWhile, digitLoop_eq hx hy heq, dropWhile_isDigit_dropWhile_zero,
      dropWhile_isDigit_dropWhile_zero]
    by_cases hvalue : digitsValue ((a'.dropWhile (· == 48)).takeWhile isDigit) =
        digitsValue ((b'.dropWhile (· == 48)).takeWhile isDigit)
    · rw [if_pos hvalue, compare_eq_iff_eq.mpr hvalue]
      rfl
    · rw [if_neg hvalue, stepOf_of_ne_eq (compare_eq_iff_eq.not.mpr hvalue)]
  · have hvalue := digitsValue_lt_of_length_lt hy hx hxzero hgt
    rw [if_pos (by omega), if_neg (by omega), compare_gt_iff_gt.mpr hvalue]
    rfl

/-- One iteration compares one part of each version. -/
theorem dpkgStep_eq {a b : Bytes} (ha : NulFree a) (hb : NulFree b) (hempty : ¬(a = [] ∧ b = [])) :
    dpkgStep (a, b) = stepOf (policyRest a, policyRest b)
      (policyComparePart (policyPart a) (policyPart b)) := by
  have hpart : policyComparePart (policyPart a) (policyPart b) =
      (policyCompareRun (a.takeWhile (!isDigit ·)) (b.takeWhile (!isDigit ·))).then
        (compare (policyPart a).2 (policyPart b).2) := rfl
  have hrun := nonDigitRun_run ha hb
  rw [hpart]
  by_cases h : policyCompareRun (a.takeWhile (!isDigit ·)) (b.takeWhile (!isDigit ·)) = .eq
  · rw [h] at hrun ⊢
    exact dpkgStep_stopped hempty hrun
  · rw [runEndOf_of_ne_eq h] at hrun
    rw [then_of_ne_eq h, stepOf_of_ne_eq h]
    simp only [dpkgStep, hempty, if_false, hrun]

/-- A version is its first part and the parts behind it. -/
theorem policyParts_eq {a : Bytes} (h : a ≠ []) :
    policyParts a = policyPart a :: policyParts (policyRest a) := by
  rw [policyParts, dif_neg h]

/-- The end of a version has no parts. -/
@[simp] theorem policyParts_nil : policyParts [] = [] := by
  rw [policyParts, dif_pos rfl]

/-- The leading parts decide before the rests. -/
theorem policyCompare_eq_then (a b : Bytes) :
    policyCompare a b = (policyComparePart (policyPart a) (policyPart b)).then
      (policyCompare (policyRest a) (policyRest b)) := by
  have hhead : ∀ s, (policyParts s).headD ([], 0) = policyPart s := by
    intro s
    by_cases h : s = []
    · subst h; simp [policyPart]
    · rw [policyParts_eq h]; rfl
  have htail : ∀ s, (policyParts s).tail = policyParts (policyRest s) := by
    intro s
    by_cases h : s = []
    · subst h; simp [policyRest]
    · rw [policyParts_eq h]; rfl
  rw [policyCompare, paddedCompare_eq_then, hhead, hhead, htail, htail]
  rfl

/-- The rest of a version has no zero byte either. -/
theorem NulFree.policyRest {a : Bytes} (h : NulFree a) : NulFree (policyRest a) :=
  h.of_sublist ((List.dropWhile_sublist _).trans (List.dropWhile_sublist _))

/-- An iteration that has something to read consumes text. -/
theorem length_policyRest_lt_of_open {a b : Bytes} (hempty : ¬(a = [] ∧ b = [])) :
    (policyRest a).length + (policyRest b).length < a.length + b.length := by
  have hle : ∀ s : Bytes, (policyRest s).length ≤ s.length := fun s =>
    (length_dropWhile_le _).trans (length_dropWhile_le _)
  have hla := hle a
  have hlb := hle b
  by_cases hae : a = []
  · have := length_policyRest_lt (fun hbe => hempty ⟨hae, hbe⟩)
    omega
  · have := length_policyRest_lt hae
    omega

/-- With a sufficient budget the loop ends with the verdict of policy. -/
theorem iterate_dpkgStep {a b : Bytes} (ha : NulFree a) (hb : NulFree b) {budget : ℕ}
    (h : a.length + b.length < budget) :
    iterate dpkgStep budget (a, b) = some (orderingSign (policyCompare a b)) := by
  induction budget generalizing a b with
  | zero => exact absurd h (Nat.not_lt_zero _)
  | succ budget ih =>
    rw [iterate]
    by_cases hempty : a = [] ∧ b = []
    · obtain ⟨rfl, rfl⟩ := hempty
      simp [dpkgStep, policyCompare, orderingSign]
    · rw [dpkgStep_eq ha hb hempty, policyCompare_eq_then]
      by_cases hpart : policyComparePart (policyPart a) (policyPart b) = .eq
      · have hshorter := length_policyRest_lt_of_open hempty
        rw [hpart]
        exact ih ha.policyRest hb.policyRest (by omega)
      · rw [stepOf_of_ne_eq hpart, then_of_ne_eq hpart]

/-- The string comparison is the sign of the policy order. -/
theorem dpkgCompareStr_eq {a b : Bytes} (ha : NulFree a) (hb : NulFree b) :
    dpkgCompareStr a b = some (orderingSign (policyCompare a b)) :=
  iterate_dpkgStep ha hb (Nat.lt_succ_self _)

/-- The epoch split sees only the text before the first colon. -/
theorem splitEpoch_of_colon {d : Bytes} (hd : (58 : Byte) ∉ d) (rest : Bytes) :
    splitEpoch (d ++ 58 :: rest) =
      if d ≠ [] ∧ d.all isDigit then (d, rest) else ([], d ++ 58 :: rest) := by
  rw [splitEpoch, findByte_append_cons hd]
  simp [List.length_pos_iff]

/-- A dash behind a version does not influence its epoch. -/
theorem splitEpoch_append_dash (v r : Bytes) :
    splitEpoch (v ++ 45 :: r) = ((splitEpoch v).1, (splitEpoch v).2 ++ 45 :: r) := by
  by_cases hv : (58 : Byte) ∈ v
  · obtain ⟨d, rest, rfl, hd⟩ := exists_of_mem_first hv
    rw [List.append_assoc, List.cons_append, splitEpoch_of_colon hd, splitEpoch_of_colon hd]
    split <;> simp
  · have hsplit : splitEpoch v = ([], v) := by rw [splitEpoch, findByte_eq_none.mpr hv]
    rw [hsplit]
    by_cases hr : (58 : Byte) ∈ r
    · obtain ⟨d, rest, rfl, hd⟩ := exists_of_mem_first hr
      have hcolon : (58 : Byte) ∉ v ++ 45 :: d := by simp [hv, hd]
      rw [show v ++ 45 :: (d ++ 58 :: rest) = (v ++ 45 :: d) ++ 58 :: rest by simp,
        splitEpoch_of_colon hcolon, if_neg]
      have hdash : isDigit 45 = false := by decide
      simp [hdash]
    · rw [splitEpoch, findByte_eq_none.mpr (by simp [hv, hr])]

/-- The revision is what follows the last dash. -/
theorem parseDpkgVersion_append_dash {r : Bytes} (hr : (45 : Byte) ∉ r) (v : Bytes) :
    parseDpkgVersion (v ++ 45 :: r) =
      { epoch := (splitEpoch v).1, upstream := (splitEpoch v).2, revision := r } := by
  rw [parseDpkgVersion, splitEpoch_append_dash]
  dsimp only
  rw [rfindByte_append_cons hr]
  simp

/-- What is behind an epoch ends the version. -/
theorem snd_splitEpoch_suffix (v : Bytes) : (splitEpoch v).2 <:+ v := by
  unfold splitEpoch
  split
  · split
    · exact List.drop_suffix _ _
    · exact List.suffix_refl _
  · exact List.suffix_refl _

/-- An epoch starts the version. -/
theorem splitEpoch_isPrefix (v : Bytes) : (splitEpoch v).1 <+: v := by
  unfold splitEpoch
  split
  · split
    · exact List.take_prefix _ _
    · exact List.nil_prefix
  · exact List.nil_prefix

/-- Without a dash there is no revision. -/
theorem parseDpkgVersion_of_not_mem {v : Bytes} (hv : (45 : Byte) ∉ v) :
    parseDpkgVersion v = { epoch := (splitEpoch v).1, upstream := (splitEpoch v).2, revision := [] } := by
  rw [parseDpkgVersion]
  dsimp only
  rw [rfindByte_eq_none fun h => hv ((snd_splitEpoch_suffix v).subset h)]

/-- A missing epoch has no zero byte either. -/
theorem NulFree.epochOrZero {v : DpkgVersion} (h : NulFree v.epoch) : NulFree v.epochOrZero := by
  unfold DpkgVersion.epochOrZero
  split
  · decide
  · exact h

/-- The parts of a version are free of zero bytes when the version is. -/
theorem NulFree.parseDpkgVersion {v : Bytes} (h : NulFree v) :
    NulFree (parseDpkgVersion v).epochOrZero ∧ NulFree (parseDpkgVersion v).upstream ∧
      NulFree (parseDpkgVersion v).revision := by
  have hepoch : NulFree (splitEpoch v).1 := h.of_sublist (splitEpoch_isPrefix v).sublist
  have hrest : NulFree (splitEpoch v).2 := h.of_sublist (snd_splitEpoch_suffix v).sublist
  cases hdash : rfindByte 45 (splitEpoch v).2 with
  | none =>
    simp only [ZeroTrust.parseDpkgVersion, hdash]
    exact ⟨NulFree.epochOrZero hepoch, hrest, List.not_mem_nil⟩
  | some dash =>
    simp only [ZeroTrust.parseDpkgVersion, hdash]
    exact ⟨NulFree.epochOrZero hepoch, hrest.of_sublist (List.take_sublist _ _),
      hrest.of_sublist (List.drop_sublist _ _)⟩

/-- The comparison of whole versions is the sign of the policy order on their parts. -/
theorem dpkgCompare_eq {a b : Bytes} (ha : NulFree a) (hb : NulFree b) :
    dpkgCompare a b =
      some (orderingSign (policyCompareVersion (parseDpkgVersion a) (parseDpkgVersion b))) := by
  obtain ⟨haE, haU, haR⟩ := ha.parseDpkgVersion
  obtain ⟨hbE, hbU, hbR⟩ := hb.parseDpkgVersion
  have hversion : policyCompareVersion (parseDpkgVersion a) (parseDpkgVersion b) =
      (policyCompare (parseDpkgVersion a).epochOrZero (parseDpkgVersion b).epochOrZero).then
        ((policyCompare (parseDpkgVersion a).upstream (parseDpkgVersion b).upstream).then
          (policyCompare (parseDpkgVersion a).revision (parseDpkgVersion b).revision)) := rfl
  rw [hversion]
  simp only [dpkgCompare, dpkgCompareStr_eq haE hbE, dpkgCompareStr_eq haU hbU,
    dpkgCompareStr_eq haR hbR, Option.bind_eq_bind, Option.bind_some, ne_eq, orderingSign_eq_zero]
  by_cases hE : policyCompare (parseDpkgVersion a).epochOrZero (parseDpkgVersion b).epochOrZero = .eq
  · rw [hE]
    by_cases hU : policyCompare (parseDpkgVersion a).upstream (parseDpkgVersion b).upstream = .eq
    · rw [hU]; rfl
    · rw [then_of_ne_eq hU]; simp [hU]
  · rw [then_of_ne_eq hE]; simp [hE]

/-- A missing part is a part without characters and with number zero. -/
theorem policyCompare_nil_zero : policyCompare [] (str "0") = .eq := by
  rw [policyCompare, policyParts_nil, show str "0" = [48] from rfl, policyParts_eq (by simp)]
  have hrest : policyRest [48] = [] := by decide
  rw [hrest, policyParts_nil]
  decide

/-- The string comparison totally preorders text without zero bytes by Debian policy; so does the
comparison of whole versions, and an absent revision counts as revision `0`. -/
theorem dpkg_order :
    TotallyPreorders dpkgCompareStr NulFree ∧
      (∀ a b, NulFree a → NulFree b → dpkgCompareStr a b = some (orderingSign (policyCompare a b))) ∧
      TotallyPreorders dpkgCompare NulFree ∧
      ∀ v, NulFree v → (45 : Byte) ∉ v → dpkgCompare v (v ++ str "-0") = some 0 ∧
        ∀ w, NulFree w → dpkgCompare (v ++ str "-0") w = dpkgCompare v w := by
  have hstr := fun a b => @dpkgCompareStr_eq a b
  refine ⟨totallyPreorders_of_sign policyCompare hstr, hstr,
    totallyPreorders_of_sign (compareVia policyCompareVersion parseDpkgVersion)
      fun a b => @dpkgCompare_eq a b, ?_⟩
  intro v hv hdash
  have hzero : NulFree (v ++ str "-0") := by
    unfold NulFree
    rw [List.mem_append, not_or]
    exact ⟨hv, by decide⟩
  have hequiv : policyCompareVersion (parseDpkgVersion v) (parseDpkgVersion (v ++ str "-0")) = .eq := by
    rw [show str "-0" = 45 :: str "0" from rfl, parseDpkgVersion_append_dash (by decide),
      parseDpkgVersion_of_not_mem hdash]
    simp only [policyCompareVersion, compareLex, compareVia, DpkgVersion.epochOrZero,
      ReflCmp.compare_self, policyCompare_nil_zero, Ordering.then]
  refine ⟨?_, fun w hw => ?_⟩
  · rw [dpkgCompare_eq hv hzero, hequiv]
    rfl
  · rw [dpkgCompare_eq hzero hw, dpkgCompare_eq hv hw, TransCmp.congr_left hequiv]

end ZeroTrust
