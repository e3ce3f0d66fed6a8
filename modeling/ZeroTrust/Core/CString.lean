import ZeroTrust.Core.Bytes
import Mathlib.Data.List.TakeWhile

/-!
# C strings

Text that is handed over as a pointer ends at its first zero byte.
-/

namespace ZeroTrust

/-- No zero byte, as in every C string. -/
def NulFree (s : Bytes) : Prop := (0 : Byte) ∉ s

instance (s : Bytes) : Decidable (NulFree s) := inferInstanceAs (Decidable (_ ∉ _))

/-- Taking bytes away adds no zero byte. -/
theorem NulFree.of_sublist {s t : Bytes} (h : NulFree t) (hst : s.Sublist t) : NulFree s :=
  fun hs => h (hst.subset hs)

/-- What stands before the first zero byte. -/
def beforeNul (s : Bytes) : Bytes := s.takeWhile (· ≠ 0)

/-- What is in front of the first zero byte has none. -/
theorem nulFree_beforeNul (s : Bytes) : NulFree (beforeNul s) :=
  fun h => absurd (List.all_eq_true.mp List.all_takeWhile 0 h) (by decide)

/-- The text is handed over as a whole exactly if it has no zero byte. -/
theorem beforeNul_eq_self {s : Bytes} : beforeNul s = s ↔ NulFree s := by
  constructor
  · intro h
    rw [← h]
    exact nulFree_beforeNul s
  · intro h
    apply List.takeWhile_eq_self_iff.mpr
    intro c hc
    exact decide_eq_true fun hzero => h (hzero ▸ hc)

/-- A text that was cut there is not cut again. -/
@[simp] theorem beforeNul_beforeNul (s : Bytes) : beforeNul (beforeNul s) = beforeNul s :=
  beforeNul_eq_self.mpr (nulFree_beforeNul s)

end ZeroTrust
