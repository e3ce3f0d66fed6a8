import ZeroTrust.Core.Bytes

/-!
# Reads of a buffer

Which bytes a reader of a hostile packet touches. A function that is to stay inside of its input is
modelled together with the ranges that it reads, in the order in which it reads them.
-/

namespace ZeroTrust

/-- A position and a number of bytes that are read from there. -/
abbrev ByteRange := ℕ × ℕ

/-- Every byte of the range is one of the input. -/
def ByteRange.Inside (raw : Bytes) (range : ByteRange) : Prop := ∀ i < range.2, range.1 + i < raw.length

/-- A range that starts inside of the input is inside when its end is. -/
theorem ByteRange.inside_iff {raw : Bytes} {pos n : ℕ} (h : pos ≤ raw.length) :
    ByteRange.Inside raw (pos, n) ↔ pos + n ≤ raw.length := by
  constructor
  · intro hinside
    cases n with
    | zero => exact h
    | succ n => exact hinside n n.lt_succ_self
  · intro hend i hi
    change pos + i < raw.length
    change i < n at hi
    omega

/-- What a walk over a buffer reads and what it comes to. -/
structure Walk (α : Type) where
  reads : List ByteRange
  result : α

/-- The walk does not leave the buffer. -/
def Walk.Inside {α : Type} (raw : Bytes) (walk : Walk α) : Prop := ∀ range ∈ walk.reads, range.Inside raw

end ZeroTrust
