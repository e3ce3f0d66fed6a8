import ZeroTrust.Core.Bytes
import Mathlib.Data.Rat.Floor
import Mathlib.Data.Int.Log
import Mathlib.Data.List.TakeWhile

/-!
# Numbers of the language

Numbers are the rationals that a `double` can hold, but for its largest exponent: literals, sums and
differences are rounded, and a sum beyond the largest `double`, which is infinite in the source, is a
number here. The casts follow the behaviour of the compiled code on values outside the range of the
target type, where the language leaves them undefined.
-/

namespace ZeroTrust.Ztl

/-- Round towards zero. -/
def truncate (q : ℚ) : ℤ := if q < 0 then ⌈q⌉ else ⌊q⌋

/-- `static_cast<int>`; the conversion instruction yields the least `int` outside the range. -/
def toInt32 (q : ℚ) : ℤ :=
  let t := truncate q
  if -2 ^ 31 ≤ t ∧ t < 2 ^ 31 then t else -2 ^ 31

/-- `static_cast<std::size_t>`; negative values wrap around. -/
def toSizeT (q : ℚ) : ℕ :=
  let t := truncate q
  if t < -2 ^ 63 then 2 ^ 63
  else if t < 2 ^ 64 then (t % 2 ^ 64).toNat
  else 0

/-- The digits of `digits[.digits]` as one number, and how many of them follow the dot. -/
def numberParts (text : Bytes) : ℕ × ℕ :=
  let whole := text.takeWhile isDigit
  let fraction := text.drop (whole.length + 1)
  (digitsValue (whole ++ fraction), fraction.length)

/-- Whether `std::stod` accepts a number: it is zero, or normal and finite as a `double`. -/
def stodInRange (text : Bytes) : Bool :=
  let (m, k) := numberParts text
  m == 0 || (10 ^ k ≤ m * 2 ^ 1022 && m < (2 ^ 1024 - 2 ^ 970) * 10 ^ k)

/-- The nearest integer, ties to even. -/
def roundHalfEven (q : ℚ) : ℤ :=
  let low := ⌊q⌋
  if q - low < 1 / 2 then low
  else if 1 / 2 < q - low then low + 1
  else if low % 2 = 0 then low
  else low + 1

/-- The nearest `double`: 53 binary digits, of which the last one is not below `2 ^ -1074`. -/
def toDouble (q : ℚ) : ℚ :=
  let unit : ℚ := 2 ^ max (Int.log 2 |q| - 52) (-1074)
  roundHalfEven (q / unit) * unit

/-- The value of a number token. -/
def numberValue (text : Bytes) : ℚ :=
  let (m, k) := numberParts text
  toDouble (m / 10 ^ k)

example : numberValue (str "0.1") = 3602879701896397 / 36028797018963968 := by decide +kernel

/-- Decimal digits, padded with zeros on the left. -/
def paddedDecimal (width n : ℕ) : Bytes :=
  let digits := decimal n
  List.replicate (width - digits.length) 48 ++ digits

/-- A fraction part without trailing zeros, with its point. -/
def fractionText (digits : Bytes) : Bytes :=
  let kept := (digits.reverse.dropWhile (· == 48)).reverse
  if kept.isEmpty then [] else 46 :: kept

/-- A positive number as `%g` prints it: six significant digits. -/
def generalFormat (q : ℚ) : Bytes :=
  let exponent := Int.log 10 q
  let scaled := (roundHalfEven (q * 10 ^ (5 - exponent))).toNat
  let (mantissa, exponent) := if scaled = 10 ^ 6 then (10 ^ 5, exponent + 1) else (scaled, exponent)
  if -4 ≤ exponent ∧ exponent < 6 then
    let places := (5 - exponent).toNat
    decimal (mantissa / 10 ^ places) ++ fractionText (paddedDecimal places (mantissa % 10 ^ places))
  else
    decimal (mantissa / 10 ^ 5) ++ fractionText (paddedDecimal 5 (mantissa % 10 ^ 5)) ++ str "e" ++
      (if exponent < 0 then str "-" else str "+") ++ paddedDecimal 2 exponent.natAbs

/-- How `value_to_string` prints a number. -/
def numberToString (q : ℚ) : Bytes :=
  if q = ⌊q⌋ ∧ |q| < 10 ^ 15 then decimalInt ⌊q⌋
  else if q < 0 then 45 :: generalFormat (-q)
  else generalFormat q

example : numberToString (-3) = str "-3" := by decide +kernel

/-- `std::stoi`: white space, a sign and digits; `none` where it throws. -/
def stoi (s : Bytes) : Option ℤ :=
  let s := s.dropWhile isSpace
  let (negative, s) := match s with
    | 45 :: rest => (true, rest)
    | 43 :: rest => (false, rest)
    | _ => (false, s)
  let digits := s.takeWhile isDigit
  let n : ℤ := if negative then -(digitsValue digits : ℤ) else digitsValue digits
  if digits = [] then none
  else if -2 ^ 31 ≤ n ∧ n < 2 ^ 31 then some n
  else none

/-- Digits alone are read as their value. -/
theorem stoi_digits {s : Bytes} (hne : s ≠ []) (h : ∀ c ∈ s, isDigit c = true) :
    stoi s = if digitsValue s < 2 ^ 31 then some (digitsValue s : ℤ) else none := by
  have hother : ∀ c : Byte, isDigit c = false → s.head? ≠ some c := by
    intro c hc hhead
    have hdigit := h c (List.mem_of_head? hhead)
    rw [hc] at hdigit
    exact Bool.noConfusion hdigit
  have hblank : s.dropWhile isSpace = s := by
    cases s with
    | nil => rfl
    | cons c t =>
      apply List.dropWhile_cons_of_neg
      rw [isSpace_of_isDigit (h c List.mem_cons_self)]
      exact Bool.false_ne_true
  have hrun : s.takeWhile isDigit = s := List.takeWhile_eq_self_iff.mpr h
  rw [stoi]
  dsimp only
  rw [hblank]
  split
  · exact absurd rfl (hother 45 rfl)
  · exact absurd rfl (hother 43 rfl)
  · dsimp only
    rw [hrun, if_neg hne]
    have hrange : (-2 ^ 31 ≤ (digitsValue s : ℤ) ∧ (digitsValue s : ℤ) < 2 ^ 31) ↔ digitsValue s < 2 ^ 31 := by
      omega
    exact if_congr hrange rfl rfl

/-- A numeral is read back. -/
theorem stoi_decimal {n : ℕ} (h : n < 2 ^ 31) : stoi (decimal n) = some (n : ℤ) := by
  obtain ⟨c, t, hct, -⟩ := exists_decimal_eq_cons n
  rw [stoi_digits (hct ▸ List.cons_ne_nil c t) fun _ hd => isDigit_of_mem_decimal hd, digitsValue_decimal, if_pos h]

end ZeroTrust.Ztl
