import ZeroTrust.Lib.Separated
import ZeroTrust.Scan.Cve

/-!
# Version ranges

The versions that `VersionMatcher` reads as numbers between dots, and what its ranges and verdicts say
about them and about others.
-/

namespace ZeroTrust

/-- Decimal numbers between dots. -/
def DottedDecimal (text : Bytes) : Prop :=
  ∀ field ∈ text.splitOn 46, field ≠ [] ∧ ∀ c ∈ field, isDigit c = true

instance (text : Bytes) : Decidable (DottedDecimal text) :=
  inferInstanceAs (Decidable (∀ field ∈ text.splitOn 46, _))

/-- The numbers between the dots. -/
def dottedNumbers (text : Bytes) : List ℕ := (text.splitOn 46).map digitsValue

/-- Dotted numbers that fit into an `int`. -/
def DottedNumber (text : Bytes) : Prop := DottedDecimal text ∧ ∀ n ∈ dottedNumbers text, n < 2 ^ 31

instance (text : Bytes) : Decidable (DottedNumber text) := inferInstanceAs (Decidable (_ ∧ _))

variable {text : Bytes}

/-- Dotted numbers have digits and dots. -/
theorem DottedDecimal.mem (h : DottedDecimal text) {c : Byte} (hc : c ∈ text) : isDigit c = true ∨ c = 46 := by
  rcases eq_or_exists_mem_splitOn 46 hc with hdot | ⟨field, hfield, hmem⟩
  · exact .inr hdot
  · exact .inl ((h field hfield).2 c hmem)

/-- A dotted number has no zero byte. -/
theorem DottedDecimal.nulFree (h : DottedDecimal text) : NulFree text := by
  intro hzero
  rcases h.mem hzero with hdigit | hdot
  · exact absurd hdigit (by decide)
  · exact absurd hdot (by decide)

/-- One iteration reads the digits up to the next other byte. -/
theorem parseComponents_field {field behind : Bytes} (hne : field ≠ []) (hdigits : ∀ c ∈ field, isDigit c = true)
    (hbehind : ∀ c, behind.head? = some c → isDigit c = false) (budget : ℕ) (before : VersionComponents) :
    parseComponents (budget + 1) (field ++ behind) before =
      if digitsValue field < 2 ^ 31 then
        match behind with
        | 46 :: rest => parseComponents budget rest (before ++ [digitsValue field])
        | _ => before ++ [digitsValue field]
      else [] := by
  have hstop : behind.takeWhile isDigit = [] := by
    cases behind with
    | nil => rfl
    | cons c rest => exact List.takeWhile_cons_of_neg (by simp [hbehind c rfl])
  have hrun : (field ++ behind).takeWhile isDigit = field := by
    rw [List.takeWhile_append_of_pos hdigits, hstop, List.append_nil]
  rw [parseComponents, hrun, if_neg hne, List.drop_left, stoiDigits]
  by_cases hfits : digitsValue field < 2 ^ 31
  · rw [if_pos hfits, if_pos hfits]
    rfl
  · rw [if_neg hfits, if_neg hfits]

/-- The loop reads all fields, or gives up at one that does not fit. -/
theorem parseComponents_dotted {fields : List Bytes} {behind : Bytes} {budget : ℕ} (hne : fields ≠ [])
    (hfields : ∀ field ∈ fields, field ≠ [] ∧ ∀ c ∈ field, isDigit c = true)
    (hbehind : ∀ c, behind.head? = some c → isDigit c = false ∧ c ≠ 46) (hbudget : fields.length ≤ budget)
    (before : VersionComponents) :
    parseComponents budget ([46].intercalate fields ++ behind) before =
      if ∀ n ∈ fields.map digitsValue, n < 2 ^ 31 then before ++ fields.map digitsValue else [] := by
  induction fields generalizing budget before with
  | nil => exact absurd rfl hne
  | cons field rest ih =>
    cases budget with
    | zero => exact absurd hbudget (Nat.not_succ_le_zero _)
    | succ budget =>
      obtain ⟨hfield, hdigits⟩ := hfields field List.mem_cons_self
      cases rest with
      | nil =>
        have hend : ∀ rest, behind ≠ 46 :: rest := fun rest h => (hbehind 46 (h ▸ rfl)).2 rfl
        rw [List.intercalate_singleton, parseComponents_field hfield hdigits fun c hc => (hbehind c hc).1]
        by_cases hfits : digitsValue field < 2 ^ 31
        · rw [if_pos hfits, List.map_singleton, if_pos (by simpa using hfits)]
          split
          · exact absurd rfl (hend _)
          · rfl
        · rw [if_neg hfits, List.map_singleton, if_neg (by simpa using hfits)]
      | cons next rest =>
        rw [List.intercalate_cons_cons, List.append_assoc, List.append_assoc, List.singleton_append,
          parseComponents_field hfield hdigits (by rintro c ⟨⟩; rfl)]
        change (if digitsValue field < 2 ^ 31 then
          parseComponents budget ([46].intercalate (next :: rest) ++ behind) (before ++ [digitsValue field])
          else []) = _
        rw [ih (List.cons_ne_nil next rest) (fun f hf => hfields f (List.mem_cons_of_mem field hf))
          (Nat.le_of_succ_le_succ hbudget), List.append_assoc, List.map_cons, List.singleton_append]
        by_cases hfits : digitsValue field < 2 ^ 31
        · rw [if_pos hfits]
          have hall : (∀ n ∈ (field :: next :: rest).map digitsValue, n < 2 ^ 31) ↔
              ∀ n ∈ (next :: rest).map digitsValue, n < 2 ^ 31 := by
            rw [List.map_cons, List.forall_mem_cons, and_iff_right hfits]
          exact if_congr hall.symm rfl rfl
        · rw [if_neg hfits, if_neg fun hall => hfits (hall _ List.mem_cons_self)]

/-- Dotted numbers, maybe with other text behind them, are read field by field. -/
theorem DottedDecimal.parseVersion_append (h : DottedDecimal text) {behind : Bytes}
    (hbehind : ∀ c, behind.head? = some c → isDigit c = false ∧ c ≠ 46) :
    parseVersion (text ++ behind) =
      if ∀ n ∈ dottedNumbers text, n < 2 ^ 31 then dottedNumbers text else [] := by
  have hne : text.splitOn 46 ≠ [] := List.splitOn_ne_nil 46 text
  have hstart : (text ++ behind).dropWhile (!isDigit ·) = text ++ behind := by
    have hfieldwise : [46].intercalate (text.splitOn 46) = text := List.intercalate_splitOn 46
    rw [← hfieldwise]
    cases hfields : text.splitOn 46 with
    | nil => exact absurd hfields hne
    | cons field rest =>
      obtain ⟨hfield, hdigits⟩ := h field (hfields ▸ List.mem_cons_self)
      cases field with
      | nil => exact absurd rfl hfield
      | cons c field =>
        have hc : (!isDigit c) = false := by simp [hdigits c List.mem_cons_self]
        cases rest with
        | nil => simp [hc]
        | cons next rest => simp [List.intercalate_cons_cons, hc]
  have hbudget : (text.splitOn 46).length ≤ (text ++ behind).length + 1 := by
    rw [length_splitOn, List.length_append]
    have := List.count_le_length (a := (46 : Byte)) (l := text)
    omega
  rw [parseVersion, hstart]
  have hread := parseComponents_dotted hne h hbehind hbudget []
  rw [List.intercalate_splitOn] at hread
  exact hread
/-- Dotted numbers are read as their numbers. -/
theorem DottedNumber.parseVersion_eq (h : DottedNumber text) : parseVersion text = dottedNumbers text := by
  have hread : parseVersion (text ++ []) = _ := h.1.parseVersion_append nofun
  rw [List.append_nil, if_pos h.2] at hread
  exact hread

/-- There is a first number. -/
theorem dottedNumbers_ne_nil (text : Bytes) : dottedNumbers text ≠ [] :=
  fun h => List.splitOn_ne_nil 46 text (List.map_eq_nil_iff.mp h)

/-- The version up to its missing components, which are zero. -/
def paddedNumbers (text : Bytes) : Lex (ℕ → ℕ) := toLex (padded 0 (dottedNumbers text))

/-- A verdict says which of two versions comes first. -/
theorem compareVersions_le_zero {a b : Bytes} (ha : DottedNumber a) (hb : DottedNumber b) :
    compareVersions (parseVersion a) (parseVersion b) ≤ 0 ↔ paddedNumbers a ≤ paddedNumbers b := by
  rw [compareVersions, orderingSign_le_zero, isLE_paddedCompare_iff, ha.parseVersion_eq, hb.parseVersion_eq]
  rfl

/-- Verdicts in exchanged order are opposite. -/
theorem compareVersions_swap (left right : VersionComponents) :
    compareVersions left right = -compareVersions right left := by
  rw [compareVersions, paddedCompare_swap, orderingSign_swap]
  rfl

/-- Ranges between dotted numbers are intervals of the lexicographic order, and the verdicts preorder
dotted numbers with equivalence up to zeros at the end. -/
theorem versionRanges_exact :
    (∀ version minimum maximum, DottedNumber version → (minimum = str "*" ∨ DottedNumber minimum) →
      (maximum = str "*" ∨ DottedNumber maximum) →
        (versionInRange version minimum maximum = true ↔
          (minimum = str "*" ∨ paddedNumbers minimum ≤ paddedNumbers version) ∧
          (maximum = str "*" ∨ paddedNumbers version ≤ paddedNumbers maximum))) ∧
    TotallyPreorders (fun a b => some (compareVersions (parseVersion a) (parseVersion b))) DottedNumber ∧
    ∀ a b, DottedNumber a → DottedNumber b → (compareVersions (parseVersion a) (parseVersion b) = 0 ↔
      ∃ k l, dottedNumbers a ++ List.replicate k 0 = dottedNumbers b ++ List.replicate l 0) := by
  refine ⟨?_, ?_, ?_⟩
  · intro version minimum maximum hversion hminimum hmaximum
    have hsome : (parseVersion version).isEmpty = false := by
      rw [hversion.parseVersion_eq, List.isEmpty_eq_false_iff]
      exact dottedNumbers_ne_nil version
    have hlow : ¬(minimum ≠ str "*" ∧ compareVersions (parseVersion version) (parseVersion minimum) < 0) ↔
        minimum = str "*" ∨ paddedNumbers minimum ≤ paddedNumbers version := by
      rcases hminimum with rfl | hminimum
      · simp
      · rw [compareVersions_swap, ← compareVersions_le_zero hminimum hversion]
        grind
    have hhigh : ¬(maximum ≠ str "*" ∧ compareVersions (parseVersion version) (parseVersion maximum) > 0) ↔
        maximum = str "*" ∨ paddedNumbers version ≤ paddedNumbers maximum := by
      rcases hmaximum with rfl | hmaximum
      · simp
      · rw [← compareVersions_le_zero hversion hmaximum]
        grind
    rw [versionInRange, hsome, ← hlow, ← hhigh]
    grind
  · exact totallyPreorders_of_sign (compareVia (paddedCompare compare 0) parseVersion) fun _ _ _ _ => rfl
  · intro a b ha hb
    rw [compareVersions, orderingSign_eq_zero, paddedCompare_eq_eq_iff, padded_eq_padded_iff, ha.parseVersion_eq,
      hb.parseVersion_eq]

/-- A lower-case letter. -/
def isLowerLetter (c : Byte) : Bool := 97 ≤ c && c ≤ 122

variable {x y : Byte}

/-- The range of the lower-case letters. -/
theorem toNat_of_isLowerLetter (h : isLowerLetter x = true) : 97 ≤ x.toNat ∧ x.toNat ≤ 122 := by
  simpa [isLowerLetter, UInt8.le_iff_toNat_le] using h

/-- A letter is no digit. -/
theorem isDigit_of_isLowerLetter (h : isLowerLetter x = true) : isDigit x = false := by
  have hx := toNat_of_isLowerLetter h
  simp only [isDigit, Bool.and_eq_false_iff, decide_eq_false_iff_not, UInt8.le_iff_toNat_le, UInt8.reduceToNat]
  omega

/-- Policy orders letters as the alphabet does. -/
theorem policyCompareChar_letters (hx : isLowerLetter x = true) (hy : isLowerLetter y = true) (h : x < y) :
    policyCompareChar (some x) (some y) = .lt := by
  have hclass : ∀ {c : Byte}, isLowerLetter c = true → policyClass (some c) = 2 ∧ signedChar c = c.toNat := by
    intro c hc
    have hbounds := toNat_of_isLowerLetter hc
    have halpha : isAlpha c = true := by
      simp only [isAlpha, Bool.or_eq_true, Bool.and_eq_true, decide_eq_true_eq, UInt8.le_iff_toNat_le,
        UInt8.reduceToNat]
      omega
    have htilde : c ≠ 126 := by
      rintro rfl
      exact absurd hc (by decide)
    exact ⟨by rw [policyClass, if_neg htilde, if_pos halpha], by rw [signedChar, if_pos (by omega)]⟩
  have hlt : signedChar x < signedChar y := by
    rw [(hclass hx).2, (hclass hy).2]
    exact Int.ofNat_lt.mpr (UInt8.lt_iff_toNat_lt.mp h)
  simp only [policyCompareChar, compareLex, compareOn, (hclass hx).1, (hclass hy).1, Option.getD_some]
  rw [compare_eq_iff_eq.mpr rfl, compare_lt_iff_lt.mpr hlt]
  rfl

/-- Behind its last number a version goes on as it did. -/
theorem policyPart_append {c : Byte} (hc : isDigit c = false) (h : text.dropWhile (!isDigit ·) ≠ []) :
    policyPart (text ++ [c]) = policyPart text ∧ policyRest (text ++ [c]) = policyRest text ++ [c] := by
  have htake : (text ++ [c]).takeWhile (!isDigit ·) = text.takeWhile (!isDigit ·) := by
    rw [List.takeWhile_append, if_neg]
    intro hlength
    have hsplit := congrArg List.length (List.takeWhile_append_dropWhile (p := (!isDigit ·)) (l := text))
    rw [List.length_append] at hsplit
    exact h (List.length_eq_zero_iff.mp (by omega))
  have hdrop : (text ++ [c]).dropWhile (!isDigit ·) = text.dropWhile (!isDigit ·) ++ [c] := by
    rw [List.dropWhile_append, if_neg (by simpa [List.isEmpty_iff] using h)]
  have hnumber : ∀ run : Bytes, (run ++ [c]).takeWhile isDigit = run.takeWhile isDigit ∧
      (run ++ [c]).dropWhile isDigit = run.dropWhile isDigit ++ [c] := by
    intro run
    induction run with
    | nil => simp [hc]
    | cons d run ih => cases hd : isDigit d <;> simp [hd, ih]
  rw [policyPart, policyPart, policyRest, policyRest, htake, hdrop, (hnumber _).1, (hnumber _).2]
  exact ⟨rfl, rfl⟩

/-- Policy orders equal versions by a letter behind them. -/
theorem policyCompare_letters (hx : isLowerLetter x = true) (hy : isLowerLetter y = true) (h : x < y) (text : Bytes) :
    policyCompare (text ++ [x]) (text ++ [y]) = .lt := by
  have hdx := isDigit_of_isLowerLetter hx
  have hdy := isDigit_of_isLowerLetter hy
  induction hn : text.length using Nat.strongRecOn generalizing text with
  | ind n ih =>
    rw [policyCompare_eq_then]
    by_cases hend : text.dropWhile (!isDigit ·) = []
    · -- without a number the letters stand in the same run
      have hrun : ∀ {c : Byte}, isDigit c = false → (policyPart (text ++ [c])).1 = text ++ [c] := by
        intro c hc
        apply List.takeWhile_eq_self_iff.mpr
        intro d hd
        rcases List.mem_append.mp hd with hd | hd
        · exact List.dropWhile_eq_nil_iff.mp hend d hd
        · rw [List.mem_singleton.mp hd, hc]
          rfl
      have hpart : policyComparePart (policyPart (text ++ [x])) (policyPart (text ++ [y])) = .lt := by
        simp only [policyComparePart, compareLex, compareVia, hrun hdx, hrun hdy, policyCompareRun, List.map_append,
          paddedCompare_append_left]
        simp [policyCompareChar_letters hx hy h]
      rw [hpart]
      rfl
    · obtain ⟨hpx, hrx⟩ := policyPart_append hdx hend
      obtain ⟨hpy, hry⟩ := policyPart_append hdy hend
      have hne : text ≠ [] := by
        rintro rfl
        exact hend rfl
      have hself : policyComparePart (policyPart text) (policyPart text) = .eq := Std.ReflCmp.compare_self
      rw [hpx, hpy, hrx, hry, hself, ih _ (hn ▸ length_policyRest_lt hne) _ rfl]
      rfl

/-- Where the numbers fit, a letter behind an inclusive bound is not seen, so that a version is outside the range
only through the other bound; policy always orders the two. -/
theorem versionInRange_letters {text minimum : Bytes} {x y : Byte} (htext : DottedDecimal text)
    (hx : isLowerLetter x = true) (hy : isLowerLetter y = true) (h : x < y) :
    dpkgCompareStr (text ++ [x]) (text ++ [y]) = some (-1) ∧
    (versionInRange (text ++ [y]) minimum (text ++ [x]) = false ↔
      (∃ n ∈ dottedNumbers text, 2 ^ 31 ≤ n) ∨
      minimum ≠ str "*" ∧ compareVersions (dottedNumbers text) (parseVersion minimum) < 0) := by
  have hletter : ∀ {c : Byte}, isLowerLetter c = true →
      parseVersion (text ++ [c]) = if ∀ n ∈ dottedNumbers text, n < 2 ^ 31 then dottedNumbers text else [] := by
    intro c hc
    apply htext.parseVersion_append
    rintro d ⟨⟩
    refine ⟨isDigit_of_isLowerLetter hc, ?_⟩
    rintro rfl
    exact absurd hc (by decide)
  have hnul : ∀ {c : Byte}, isLowerLetter c = true → NulFree (text ++ [c]) := by
    intro c hc hzero
    rcases List.mem_append.mp hzero with hzero | hzero
    · exact htext.nulFree hzero
    · obtain rfl := List.mem_singleton.mp hzero
      exact absurd hc (by decide)
  constructor
  · rw [dpkgCompareStr_eq (hnul hx) (hnul hy), policyCompare_letters hx hy h]
    rfl
  · rw [versionInRange, hletter hx, hletter hy]
    by_cases hfits : ∀ n ∈ dottedNumbers text, n < 2 ^ 31
    · have hself : compareVersions (dottedNumbers text) (dottedNumbers text) = 0 := by
        rw [compareVersions, paddedCompare_self]
        rfl
      have hsome : (dottedNumbers text).isEmpty = false := List.isEmpty_eq_false_iff.mpr (dottedNumbers_ne_nil text)
      have hnone : ¬∃ n ∈ dottedNumbers text, 2 ^ 31 ≤ n := by
        rintro ⟨n, hn, hle⟩
        exact absurd (hfits n hn) (Nat.not_lt_of_le hle)
      rw [if_pos hfits, hself, hsome, or_iff_right hnone]
      simp
    · have hsome : ∃ n ∈ dottedNumbers text, 2 ^ 31 ≤ n := by
        push Not at hfits
        exact hfits
      rw [if_neg hfits]
      simp only [hsome, true_or, iff_true]
      rfl

/-- The release behind the last one that Heartbleed affects is reported as affected. -/
theorem heartbleed_fixed_inRange : ¬versionInRange (str "1.0.1g") (str "1.0.1") (str "1.0.1f") = false := by
  decide +kernel

/-- A minimum above both. -/
theorem versionInRange_letters_below : DottedDecimal (str "1.0.1") ∧
    (versionInRange (str "1.0.1" ++ [103]) (str "2.0") (str "1.0.1" ++ [102]) = false ↔
      (∃ n ∈ dottedNumbers (str "1.0.1"), 2 ^ 31 ≤ n) ∨
      str "2.0" ≠ str "*" ∧ compareVersions (dottedNumbers (str "1.0.1")) (parseVersion (str "2.0")) < 0) := by
  refine ⟨by decide +kernel,
    (versionInRange_letters (by decide +kernel) (by decide) (by decide) (by decide)).2⟩

section

variable {database : List CveEntry} {cveId product version : Bytes}

/-- An entry that a query for the identifier and the product looks at. -/
def CveEntry.Asked (entry : CveEntry) (cveId product : Bytes) : Prop :=
  (cveId = [] ∨ entry.cveId = cveId) ∧ productMatches entry.product product = true

/-- No entry is found exactly if none of those asked for has the version in its range. -/
theorem cveMatch_eq_none (hproduct : product ≠ []) (hversion : version ≠ []) :
    cveMatch database cveId product version = none ↔
      ∀ entry ∈ database, entry.Asked cveId product →
        versionInRange version entry.versionMin entry.versionMax = false := by
  have hopen : (product.isEmpty || version.isEmpty) = false := by
    rw [List.isEmpty_eq_false_iff.mpr hproduct, List.isEmpty_eq_false_iff.mpr hversion]
    rfl
  rw [cveMatch, hopen, if_neg Bool.false_ne_true, Option.map_eq_none_iff, List.find?_eq_none]
  apply forall₂_congr
  intro entry _
  cases hrange : versionInRange version entry.versionMin entry.versionMax <;>
    simp [CveEntry.Asked, CveEntry.covers, hrange]

/-- Outside the range of an entry is what was compared with one of its bounds and failed, and what has no number. -/
theorem versionInRange_eq_false {minimum maximum : Bytes} :
    versionInRange version minimum maximum = false ↔ parseVersion version = [] ∨
      minimum ≠ str "*" ∧ compareVersions (parseVersion version) (parseVersion minimum) < 0 ∨
      maximum ≠ str "*" ∧ compareVersions (parseVersion version) (parseVersion maximum) > 0 := by
  rw [versionInRange, ← List.isEmpty_iff]
  grind

/-- The verdict by its cases. -/
theorem verifyVersion_verification (database : List CveEntry) (cveId product version : Bytes) :
    (verifyVersion database cveId product version).verification =
      if product = [] ∨ version = [] then str "UNKNOWN"
      else if cveMatch database cveId product version = none then str "NOT_VULNERABLE" else str "VERSION_MATCH" := by
  rw [verifyVersion]
  by_cases hopen : product = [] ∨ version = []
  · simp [hopen]
  · have hclosed : (product.isEmpty || version.isEmpty) = false := by
      simpa [List.isEmpty_iff] using hopen
    rw [hclosed, if_neg Bool.false_ne_true, if_neg hopen]
    cases cveMatch database cveId product version <;> rfl

/-- Nothing is found for complete data exactly if the verdict is `NOT_VULNERABLE`. -/
theorem verifyVersion_notVulnerable_iff :
    (verifyVersion database cveId product version).verification = str "NOT_VULNERABLE" ↔
      product ≠ [] ∧ version ≠ [] ∧ ∀ entry ∈ database, entry.Asked cveId product →
        versionInRange version entry.versionMin entry.versionMax = false := by
  have hunknown : str "UNKNOWN" ≠ str "NOT_VULNERABLE" := by decide
  have hmatch : str "VERSION_MATCH" ≠ str "NOT_VULNERABLE" := by decide
  rw [verifyVersion_verification, ← and_assoc, ← not_or]
  split_ifs with hmissing hnone
  · simp [hunknown, hmissing]
  · obtain ⟨hproduct, hversion⟩ := not_or.mp hmissing
    simp only [hmissing, not_false_eq_true, true_and, true_iff]
    exact (cveMatch_eq_none hproduct hversion).mp hnone
  · obtain ⟨hproduct, hversion⟩ := not_or.mp hmissing
    simp only [hmatch, hmissing, not_false_eq_true, true_and, false_iff]
    exact fun hall => hnone ((cveMatch_eq_none hproduct hversion).mpr hall)

/-- The verdict is `UNKNOWN` exactly when product or version is missing, and `NOT_VULNERABLE` exactly when they are
complete and no entry covers them. Behind the latter stands a failed comparison with a bound of every entry asked for
if the version has a number; a version without one is covered by no entry. -/
theorem verifyVersion_verdict (database : List CveEntry) (cveId product version : Bytes) :
    ((verifyVersion database cveId product version).verification = str "UNKNOWN" ↔ product = [] ∨ version = []) ∧
    ((verifyVersion database cveId product version).verification = str "NOT_VULNERABLE" ↔
      product ≠ [] ∧ version ≠ [] ∧ ∀ entry ∈ database, entry.Asked cveId product →
        versionInRange version entry.versionMin entry.versionMax = false) ∧
    ((verifyVersion database cveId product version).verification = str "NOT_VULNERABLE" →
      parseVersion version ≠ [] → ∀ entry ∈ database, entry.Asked cveId product →
        entry.versionMin ≠ str "*" ∧ compareVersions (parseVersion version) (parseVersion entry.versionMin) < 0 ∨
        entry.versionMax ≠ str "*" ∧ compareVersions (parseVersion version) (parseVersion entry.versionMax) > 0) ∧
    (product ≠ [] → version ≠ [] → parseVersion version = [] →
      (verifyVersion database cveId product version).verification = str "NOT_VULNERABLE") := by
  refine ⟨?_, verifyVersion_notVulnerable_iff, ?_, ?_⟩
  · have hnone : str "NOT_VULNERABLE" ≠ str "UNKNOWN" := by decide
    have hmatch : str "VERSION_MATCH" ≠ str "UNKNOWN" := by decide
    rw [verifyVersion_verification]
    split_ifs with hmissing
    · exact iff_of_true rfl hmissing
    · exact iff_of_false hnone hmissing
    · exact iff_of_false hmatch hmissing
  · intro hverdict hnumber entry hentry hasked
    obtain ⟨-, -, houtside⟩ := verifyVersion_notVulnerable_iff.mp hverdict
    exact (versionInRange_eq_false.mp (houtside entry hentry hasked)).resolve_left hnumber
  · intro hproduct hversion hnone
    apply verifyVersion_notVulnerable_iff.mpr
    exact ⟨hproduct, hversion, fun _ _ _ => versionInRange_eq_false.mpr (.inl hnone)⟩

/-- A number beyond `int` is not vulnerable even where all versions are. -/
theorem verifyVersion_overflow : ¬((verifyVersion
    [{ cveId := str "CVE-2024-6387", product := str "OpenSSH", versionMin := str "*", versionMax := str "*" }]
    (str "CVE-2024-6387") (str "OpenSSH") (str "9999999999.1")).verification = str "NOT_VULNERABLE" →
      parseVersion (str "9999999999.1") ≠ []) := by
  decide +kernel

end

end ZeroTrust
