import Mathlib.Data.List.Basic
import Mathlib.Algebra.Order.Ring.Int

/-!
# Byte strings

`std::string` is a list of bytes. Character classes and case conversion are those of the
C locale: only ASCII letters are letters. Positions are `Option ℕ`, with `none` for `npos`.
-/

namespace ZeroTrust

/-- One `char` of a `std::string`. -/
abbrev Byte := UInt8

/-- A `std::string`. -/
abbrev Bytes := List Byte

/-- The bytes of a literal. -/
def str (s : String) : Bytes := s.toByteArray.data.toList

/-- `std::isdigit`. -/
def isDigit (c : Byte) : Bool := 48 ≤ c && c ≤ 57

/-- `std::isalpha`. -/
def isAlpha (c : Byte) : Bool := (65 ≤ c && c ≤ 90) || (97 ≤ c && c ≤ 122)

/-- `std::isalnum`. -/
def isAlnum (c : Byte) : Bool := isAlpha c || isDigit c

/-- `std::isspace`. -/
def isSpace (c : Byte) : Bool := c == 32 || (9 ≤ c && c ≤ 13)

/-- `std::tolower`. -/
def toLowerByte (c : Byte) : Byte := if 65 ≤ c && c ≤ 90 then c + 32 else c

/-- `std::toupper`. -/
def toUpperByte (c : Byte) : Byte := if 97 ≤ c && c ≤ 122 then c - 32 else c

/-- Lower-case every byte; `to_lower` of `cve.cpp` and `lower` of `runner.cpp`. -/
def toLower (s : Bytes) : Bytes := s.map toLowerByte

/-- Upper-case every byte. -/
def toUpper (s : Bytes) : Bytes := s.map toUpperByte

/-- Strip white space at both ends. -/
def trim (s : Bytes) : Bytes := ((s.dropWhile isSpace).reverse.dropWhile isSpace).reverse

/-- `s.find(c)` for a single byte. -/
def findByte (c : Byte) (s : Bytes) : Option ℕ := s.findIdx? (· == c)

/-- `s.rfind(c)` for a single byte. -/
def rfindByte (c : Byte) : Bytes → Option ℕ
  | [] => none
  | x :: xs =>
    match rfindByte c xs with
    | some i => some (i + 1)
    | none => if x = c then some 0 else none

/-- `s.find(sub)`. -/
def findSub (sub : Bytes) : Bytes → Option ℕ
  | [] => if sub = [] then some 0 else none
  | x :: xs => if sub.isPrefixOf (x :: xs) then some 0 else (findSub sub xs).map (· + 1)

/-- `s.find(sub) != npos`. -/
def contains (s sub : Bytes) : Bool := (findSub sub s).isSome

/-- The lines that repeated `std::getline(stream, line, delimiter)` delivers. -/
def getlines (delimiter : Byte) : Bytes → List Bytes
  | [] => []
  | c :: cs =>
    if c = delimiter then [] :: getlines delimiter cs
    else match getlines delimiter cs with
      | [] => [[c]]
      | line :: lines => (c :: line) :: lines

/-- The value of a run of decimal digits. -/
def digitsValue (s : Bytes) : ℕ := s.foldl (fun n c => 10 * n + (c.toNat - 48)) 0

/-- `std::to_string` of an unsigned number. -/
def decimal (n : ℕ) : Bytes := (Nat.toDigits 10 n).map fun c => c.toNat.toUInt8

/-- `std::to_string` of a signed number. -/
def decimalInt (z : ℤ) : Bytes := if z < 0 then 45 :: decimal z.natAbs else decimal z.natAbs

/-- A byte that does not occur is not found. -/
theorem rfindByte_eq_none {c : Byte} {s : Bytes} (h : c ∉ s) : rfindByte c s = none := by
  induction s with
  | nil => rfl
  | cons x xs ih =>
    rw [List.mem_cons, not_or] at h
    rw [rfindByte, ih h.2]
    exact if_neg (Ne.symm h.1)

/-- The last occurrence is the one without another behind it. -/
theorem rfindByte_append_cons {c : Byte} {t : Bytes} (h : c ∉ t) (s : Bytes) :
    rfindByte c (s ++ c :: t) = some s.length := by
  induction s with
  | nil => simp [rfindByte, rfindByte_eq_none h]
  | cons x s ih => simp [rfindByte, ih]

/-- A byte that does not occur is not found. -/
theorem findByte_eq_none {c : Byte} {s : Bytes} : findByte c s = none ↔ c ∉ s := by
  rw [findByte, List.findIdx?_eq_none_iff]
  refine ⟨fun h hc => by simpa using h c hc, fun h x hx => ?_⟩
  rw [beq_eq_false_iff_ne]
  exact fun hxc => h (hxc ▸ hx)

/-- The first occurrence is the one without another before it. -/
theorem findByte_append_cons {c : Byte} {s : Bytes} (h : c ∉ s) (t : Bytes) :
    findByte c (s ++ c :: t) = some s.length := by
  rw [findByte, List.findIdx?_append, show s.findIdx? (· == c) = none from findByte_eq_none.mpr h]
  simp [List.findIdx?_cons]

/-- Text with an occurrence splits at the first one. -/
theorem exists_of_mem_first {c : Byte} {s : Bytes} (h : c ∈ s) :
    ∃ t u, s = t ++ c :: u ∧ c ∉ t := by
  obtain ⟨t, u, rfl, ht⟩ := List.eq_append_cons_of_mem h
  exact ⟨t, u, rfl, ht⟩

/-- The text before a separator that it does not contain can be told from what follows. -/
theorem append_separator_inj {c : Byte} {s t x y : Bytes} (hs : c ∉ s) (ht : c ∉ t)
    (h : s ++ c :: x = t ++ c :: y) : s = t ∧ x = y := by
  have hlength : s.length = t.length := by
    have hfind := congrArg (findByte c) h
    rw [findByte_append_cons hs, findByte_append_cons ht] at hfind
    exact Option.some.inj hfind
  obtain ⟨hst, hxy⟩ := List.append_inj h hlength
  exact ⟨hst, (List.cons.inj hxy).2⟩

/-- What is read from the first entry that is looked for. -/
theorem getD_map_find?_cons {α β : Type} (p : α → Bool) (f : α → β) (default : β) (entry : α) (rest : List α) :
    (((entry :: rest).find? p).map f).getD default =
      if p entry then f entry else ((rest.find? p).map f).getD default := by
  rw [List.find?_cons]
  cases p entry with
  | true => rfl
  | false => rfl

/-- A line ends at the first delimiter. -/
theorem getlines_append_cons {d : Byte} {line : Bytes} (h : d ∉ line) (rest : Bytes) :
    getlines d (line ++ d :: rest) = line :: getlines d rest := by
  induction line with
  | nil => rw [List.nil_append, getlines, if_pos rfl]
  | cons c line ih =>
    obtain ⟨hc, hline⟩ := not_or.mp (List.mem_cons.not.mp h)
    rw [List.cons_append, getlines, if_neg (Ne.symm hc), ih hline]

/-- A last line without a delimiter counts if it is not empty. -/
theorem getlines_of_not_mem {d : Byte} {line : Bytes} (h : d ∉ line) (hne : line ≠ []) :
    getlines d line = [line] := by
  induction line with
  | nil => exact absurd rfl hne
  | cons c line ih =>
    obtain ⟨hc, hline⟩ := not_or.mp (List.mem_cons.not.mp h)
    rw [getlines, if_neg (Ne.symm hc)]
    cases line with
    | nil => rfl
    | cons b line => rw [ih hline (List.cons_ne_nil b line)]

/-- The lines of a text are parts of it. -/
theorem sublist_of_mem_getlines {delimiter : Byte} {s line : Bytes} (h : line ∈ getlines delimiter s) :
    line.Sublist s := by
  induction s generalizing line with
  | nil => cases h
  | cons c cs ih =>
    rw [getlines] at h
    split at h
    · rcases List.mem_cons.mp h with rfl | h
      · exact List.nil_sublist _
      · exact (ih h).cons c
    · cases hlines : getlines delimiter cs with
      | nil =>
        rw [hlines, List.mem_singleton] at h
        exact h ▸ (List.nil_sublist cs).cons_cons c
      | cons first lines =>
        rw [hlines] at h ih
        rcases List.mem_cons.mp h with rfl | h
        · exact (ih List.mem_cons_self).cons_cons c
        · exact (ih (List.mem_cons_of_mem _ h)).cons c

/-- No line contains the delimiter. -/
theorem not_mem_of_mem_getlines {d : Byte} {s line : Bytes} (h : line ∈ getlines d s) : d ∉ line := by
  induction s generalizing line with
  | nil => cases h
  | cons c cs ih =>
    rw [getlines] at h
    split at h
    · rcases List.mem_cons.mp h with rfl | h
      · exact List.not_mem_nil
      · exact ih h
    · next hc =>
      cases hlines : getlines d cs with
      | nil =>
        rw [hlines, List.mem_singleton] at h
        exact h ▸ fun hd => hc (List.mem_singleton.mp hd).symm
      | cons first lines =>
        rw [hlines] at h ih
        rcases List.mem_cons.mp h with rfl | h
        · intro hd
          rcases List.mem_cons.mp hd with rfl | hd
          · exact hc rfl
          · exact ih List.mem_cons_self hd
        · exact ih (List.mem_cons_of_mem _ h)

/-- Lines that are ended one by one are read one by one. -/
theorem getlines_flatMap {d : Byte} {lines : List Bytes} (h : ∀ line ∈ lines, d ∉ line) (rest : Bytes) :
    getlines d (lines.flatMap (· ++ [d]) ++ rest) = lines ++ getlines d rest := by
  induction lines with
  | nil => rfl
  | cons line lines ih =>
    obtain ⟨hline, hlines⟩ := List.forall_mem_cons.mp h
    rw [List.flatMap_cons, List.append_assoc, List.append_assoc, List.singleton_append,
      getlines_append_cons hline, ih hlines, List.cons_append]

/-- The byte of a digit character still has the character's code. -/
theorem toNat_toUInt8_of_isDigit {c : Char} (h : c.isDigit) :
    c.toNat.toUInt8.toNat = c.toNat ∧ 48 ≤ c.toNat ∧ c.toNat ≤ 57 := by
  have hc : 48 ≤ c.toNat ∧ c.toNat ≤ 57 := by
    simp only [Char.isDigit, Bool.and_eq_true, decide_eq_true_eq] at h
    exact ⟨UInt32.le_iff_toNat_le.mp h.1, UInt32.le_iff_toNat_le.mp h.2⟩
  exact ⟨UInt8.toNat_ofNat_of_lt' (by simp only [UInt8.size]; omega), hc⟩

/-- Decimal numerals consist of digits. -/
theorem isDigit_of_mem_decimal {n : ℕ} {c : Byte} (h : c ∈ decimal n) : isDigit c = true := by
  obtain ⟨d, hd, rfl⟩ := List.mem_map.mp h
  have hdigit := toNat_toUInt8_of_isDigit (Nat.isDigit_of_mem_toDigits (by decide) (by decide) hd)
  simp only [isDigit, Bool.and_eq_true, decide_eq_true_eq, UInt8.le_iff_toNat_le, hdigit.1]
  exact hdigit.2

/-- A numeral is worth its number. -/
theorem digitsValue_decimal (n : ℕ) : digitsValue (decimal n) = n := by
  have hchars : digitsValue (decimal n) = Nat.ofDigitChars 10 (Nat.toDigits 10 n) 0 := by
    rw [digitsValue, decimal, List.foldl_map, Nat.ofDigitChars_eq_foldl]
    apply List.foldl_ext
    intro v c hc
    have hdigit := toNat_toUInt8_of_isDigit (Nat.isDigit_of_mem_toDigits (by decide) (by decide) hc)
    rw [hdigit.1]
    rfl
  rw [hchars, Nat.ofDigitChars_ten_toDigits]

/-- Different numbers have different numerals. -/
theorem decimal_injective : Function.Injective decimal := by
  intro m n h
  rw [← digitsValue_decimal m, h, digitsValue_decimal]

/-- A numeral starts with a digit. -/
theorem exists_decimal_eq_cons (n : ℕ) : ∃ c t, decimal n = c :: t ∧ isDigit c = true := by
  cases hn : decimal n with
  | nil => exact absurd (List.map_eq_nil_iff.mp hn) Nat.toDigits_ne_nil
  | cons c t => exact ⟨c, t, rfl, isDigit_of_mem_decimal (hn ▸ List.mem_cons_self)⟩

/-- A digit is no white space. -/
theorem isSpace_of_isDigit {c : Byte} (h : isDigit c = true) : isSpace c = false := by
  rw [isDigit, Bool.and_eq_true, decide_eq_true_eq, decide_eq_true_eq, UInt8.le_iff_toNat_le,
    UInt8.le_iff_toNat_le] at h
  rw [isSpace, Bool.or_eq_false_iff, beq_eq_false_iff_ne, Bool.and_eq_false_iff, decide_eq_false_iff_not,
    decide_eq_false_iff_not, UInt8.le_iff_toNat_le, UInt8.le_iff_toNat_le, ne_eq, ← UInt8.toNat_inj]
  change 48 ≤ c.toNat ∧ c.toNat ≤ 57 at h
  change c.toNat ≠ 32 ∧ (¬9 ≤ c.toNat ∨ ¬c.toNat ≤ 13)
  omega

/-- A byte that is no digit does not occur in a numeral. -/
theorem not_mem_decimal {n : ℕ} {c : Byte} (h : isDigit c = false) : c ∉ decimal n := by
  intro hc
  rw [isDigit_of_mem_decimal hc] at h
  exact Bool.noConfusion h

end ZeroTrust
