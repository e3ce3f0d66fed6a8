import ZeroTrust.Core.Bytes
import ZeroTrust.Lib.Loop
import ZeroTrust.Lib.PaddedLex

/-!
# Debian package versions

`dpkg_compare_str` of `cve.cpp` walks two strings with independent cursors; a cursor is
modelled by the text behind it. The outer loop makes progress only on text without zero
bytes, so it is run with a budget and `none` means that it never ends.

The policy order is stated on its own terms: a version is a sequence of parts, a part is
a run of non-digits followed by a number, and missing parts are empty.
-/

namespace ZeroTrust

open Std

/-- The value of a plain `char`, which is signed. -/
def signedChar (c : Byte) : ℤ := if c.toNat < 128 then c.toNat else (c.toNat : ℤ) - 256

/-- `dpkg_char_order`. -/
def dpkgCharOrder (c : Byte) : ℤ :=
  if c = 0 then 0
  else if c = 126 then -1
  else if isAlpha c then signedChar c
  else signedChar c + 256

/-- How the comparison of two non-digit runs ends. -/
inductive RunEnd
  | decided (verdict : ℤ)
  | stopped (a b : Bytes)
deriving DecidableEq

/-- The next character of a non-digit run, or `'\0'` at its end. -/
def runHead : Bytes → Byte
  | c :: _ => if isDigit c then 0 else c
  | [] => 0

/-- Move the cursor past the current character of its run, if there is one. -/
def runAdvance (a : Bytes) : Bytes := if runHead a ≠ 0 then a.tail else a

/-- A run does not get longer. -/
theorem length_runAdvance_le (a : Bytes) : (runAdvance a).length ≤ a.length := by
  unfold runAdvance
  split <;> simp

/-- A character that counts is passed. -/
theorem length_runAdvance_lt {a : Bytes} (h : runHead a ≠ 0) : (runAdvance a).length < a.length := by
  cases a with
  | nil => exact absurd rfl h
  | cons c a => simp [runAdvance, h]

/-- The loop over the non-digit runs. -/
def nonDigitRun : Loop (Bytes × Bytes) RunEnd where
  step := fun (a, b) =>
    if a = [] ∧ b = [] then .inr (.stopped a b)
    else
      let ca := runHead a
      let cb := runHead b
      if ca = 0 ∧ cb = 0 then .inr (.stopped a b)
      else
        let oa := dpkgCharOrder ca
        let ob := dpkgCharOrder cb
        if oa ≠ ob then .inr (.decided (if oa < ob then -1 else 1))
        else .inl (runAdvance a, runAdvance b)
  variant := fun (a, b) => a.length + b.length
  decreases := by
    rintro ⟨a, b⟩ s h
    dsimp only at h
    split at h
    · cases h
    · split at h
      · cases h
      · next hboth =>
        split at h
        · cases h
        · cases h
          have ha := length_runAdvance_le a
          have hb := length_runAdvance_le b
          by_cases hca : runHead a = 0
          · have := length_runAdvance_lt (fun hcb => hboth ⟨hca, hcb⟩)
            dsimp only
            omega
          · have := length_runAdvance_lt hca
            dsimp only
            omega

/-- The loop over two digit runs of equal length. -/
def digitLoop : Bytes → Bytes → Option ℤ
  | x :: xs, y :: ys => if x ≠ y then some (if x < y then -1 else 1) else digitLoop xs ys
  | _, _ => none

/-- One iteration of the outer loop: a verdict, or the text behind both cursors. -/
def dpkgStep : Bytes × Bytes → (Bytes × Bytes) ⊕ ℤ := fun (a, b) =>
  if a = [] ∧ b = [] then .inr 0
  else match nonDigitRun.run (a, b) with
    | .decided verdict => .inr verdict
    | .stopped a b =>
      let a := a.dropWhile (· == 48)
      let b := b.dropWhile (· == 48)
      let da := (a.takeWhile isDigit).length
      let db := (b.takeWhile isDigit).length
      if da ≠ db then .inr (if da < db then -1 else 1)
      else match digitLoop (a.take da) (b.take da) with
        | some verdict => .inr verdict
        | none => .inl (a.drop da, b.drop db)

/-- `dpkg_compare_str`; `none` when the loop does not end. -/
def dpkgCompareStr (a b : Bytes) : Option ℤ := iterate dpkgStep (a.length + b.length + 1) (a, b)

/-- `DpkgVersion`; empty texts stand for absent parts. -/
structure DpkgVersion where
  epoch : Bytes
  upstream : Bytes
  revision : Bytes
deriving DecidableEq, Repr

/-- The epoch is a non-empty run of digits before the first colon. -/
def splitEpoch (raw : Bytes) : Bytes × Bytes :=
  match findByte 58 raw with
  | some colon =>
    if 0 < colon ∧ (raw.take colon).all isDigit then (raw.take colon, raw.drop (colon + 1))
    else ([], raw)
  | none => ([], raw)

/-- `parse_dpkg_version`: epoch, then upstream and revision around the last dash. -/
def parseDpkgVersion (raw : Bytes) : DpkgVersion :=
  let (epoch, rest) := splitEpoch raw
  match rfindByte 45 rest with
  | some dash => { epoch := epoch, upstream := rest.take dash, revision := rest.drop (dash + 1) }
  | none => { epoch := epoch, upstream := rest, revision := [] }

/-- An absent epoch counts as `0`. -/
def DpkgVersion.epochOrZero (v : DpkgVersion) : Bytes := if v.epoch = [] then str "0" else v.epoch

/-- `dpkg_compare`: epoch, upstream and revision in turn. -/
def dpkgCompare (a b : Bytes) : Option ℤ := do
  let va := parseDpkgVersion a
  let vb := parseDpkgVersion b
  let c ← dpkgCompareStr va.epochOrZero vb.epochOrZero
  if c ≠ 0 then return c
  let c ← dpkgCompareStr va.upstream vb.upstream
  if c ≠ 0 then return c
  dpkgCompareStr va.revision vb.revision

/-- `~` sorts before the end of a part, the end before letters, letters before the rest. -/
def policyClass : Option Byte → ℕ
  | none => 1
  | some c => if c = 126 then 0 else if isAlpha c then 2 else 3

/-- Characters are compared by class, and within a class by value. -/
def policyCompareChar : Option Byte → Option Byte → Ordering :=
  compareLex (compareOn policyClass) (compareOn fun c => signedChar (c.getD 0))

/-- Non-digit runs are compared character by character, the end of a run included. -/
def policyCompareRun (r s : Bytes) : Ordering :=
  paddedCompare policyCompareChar none (r.map some) (s.map some)

/-- Parts are compared by their run and then by their number. -/
def policyComparePart : Bytes × ℕ → Bytes × ℕ → Ordering :=
  compareLex (compareVia policyCompareRun Prod.fst) (compareOn Prod.snd)

/-- The leading part of a version: its first non-digit run and the number behind it. -/
def policyPart (s : Bytes) : Bytes × ℕ :=
  (s.takeWhile (!isDigit ·), digitsValue ((s.dropWhile (!isDigit ·)).takeWhile isDigit))

/-- What follows the leading part. -/
def policyRest (s : Bytes) : Bytes := (s.dropWhile (!isDigit ·)).dropWhile isDigit

/-- Dropping does not make a text longer. -/
theorem length_dropWhile_le {p : Byte → Bool} (s : Bytes) : (s.dropWhile p).length ≤ s.length :=
  (List.dropWhile_suffix p).length_le

/-- A part consumes text. -/
theorem length_policyRest_lt {s : Bytes} (h : s ≠ []) : (policyRest s).length < s.length := by
  unfold policyRest
  cases s with
  | nil => exact absurd rfl h
  | cons c cs =>
    have h₁ := length_dropWhile_le (p := isDigit) (cs.dropWhile (!isDigit ·))
    have h₂ := length_dropWhile_le (p := (!isDigit ·)) cs
    have h₃ := length_dropWhile_le (p := isDigit) cs
    cases hc : isDigit c <;> simp only [List.dropWhile_cons, hc, Bool.not_true, Bool.not_false,
      Bool.false_eq_true, if_true, if_false, List.length_cons] <;> omega

/-- The parts of a version. -/
def policyParts (s : Bytes) : List (Bytes × ℕ) :=
  if _h : s = [] then [] else policyPart s :: policyParts (policyRest s)
termination_by s.length
decreasing_by exact length_policyRest_lt _h

/-- The order of Debian policy on version strings. -/
def policyCompare (a b : Bytes) : Ordering :=
  paddedCompare policyComparePart ([], 0) (policyParts a) (policyParts b)

instance : TransCmp policyCompareChar :=
  inferInstanceAs (TransCmp (compareLex (compareOn policyClass) (compareOn _)))

instance : TransCmp policyCompareRun :=
  inferInstanceAs (TransCmp (compareVia (paddedCompare policyCompareChar none) _))

instance : TransCmp policyComparePart :=
  inferInstanceAs (TransCmp (compareLex (compareVia policyCompareRun Prod.fst) (compareOn Prod.snd)))

instance : TransCmp policyCompare :=
  inferInstanceAs (TransCmp (compareVia (paddedCompare policyComparePart ([], 0)) policyParts))

/-- Whole versions: epoch, upstream and revision in turn. -/
def policyCompareVersion : DpkgVersion → DpkgVersion → Ordering :=
  compareLex (compareVia policyCompare DpkgVersion.epochOrZero)
    (compareLex (compareVia policyCompare DpkgVersion.upstream)
      (compareVia policyCompare DpkgVersion.revision))

instance : TransCmp policyCompareVersion :=
  inferInstanceAs (TransCmp (compareLex (compareVia policyCompare _)
    (compareLex (compareVia policyCompare _) (compareVia policyCompare _))))

end ZeroTrust
