import ZeroTrust.Ztl.Interpreter

/-!
# Indexes into strings

`slice` and `byte_at` cast numbers of a script to `std::size_t`. What they are for is stated on the numbers
themselves, and the casts are told apart by whether the language defines them.
-/

namespace ZeroTrust.Ztl

/-- The cast to `std::size_t` where the language defines it. -/
def definedSizeT (q : ℚ) : Option ℕ :=
  if 0 ≤ truncate q ∧ truncate q < 2 ^ 64 then some (truncate q).toNat else none

/-- Numbers from behind `-1` up to the largest size. -/
def FitsSizeT (q : ℚ) : Prop := -1 < q ∧ q < 2 ^ 64

instance (q : ℚ) : Decidable (FitsSizeT q) := inferInstanceAs (Decidable (_ ∧ _))

/-- These are the numbers whose integral part is a size. -/
theorem fitsSizeT_iff {q : ℚ} : FitsSizeT q ↔ 0 ≤ truncate q ∧ truncate q < 2 ^ 64 := by
  unfold FitsSizeT truncate
  split_ifs with hneg
  · have hceil : ⌈q⌉ ≤ 0 := Int.ceil_le.mpr (by exact_mod_cast hneg.le)
    have hpos : 0 ≤ ⌈q⌉ ↔ -1 < q := by
      rw [← Int.sub_one_lt_iff, zero_sub, Int.lt_ceil]
      norm_num
    constructor
    · exact fun h => ⟨hpos.mpr h.1, by omega⟩
    · exact fun h => ⟨hpos.mp h.1, by linarith⟩
  · have hfloor : 0 ≤ ⌊q⌋ := Int.floor_nonneg.mpr (not_lt.mp hneg)
    have hlt : ⌊q⌋ < 2 ^ 64 ↔ q < 2 ^ 64 := by
      rw [Int.floor_lt]
      norm_num
    constructor
    · exact fun h => ⟨hfloor, hlt.mpr h.2⟩
    · exact fun h => ⟨by linarith [not_lt.mp hneg], hlt.mp h.2⟩

/-- They are rounded towards zero. -/
theorem toSizeT_eq {q : ℚ} (h : FitsSizeT q) : toSizeT q = (truncate q).toNat := by
  obtain ⟨hlow, hhigh⟩ := fitsSizeT_iff.mp h
  rw [toSizeT, if_neg (by omega), if_pos hhigh, Int.emod_eq_of_lt hlow hhigh]

/-- A defined cast is the one of the program. -/
theorem definedSizeT_eq {q : ℚ} (h : FitsSizeT q) : definedSizeT q = some (toSizeT q) := by
  rw [definedSizeT, if_pos (fitsSizeT_iff.mp h), toSizeT_eq h]

/-- The cast to `size_t` is defined just for numbers that fit. -/
theorem isSome_definedSizeT {q : ℚ} : (definedSizeT q).isSome ↔ FitsSizeT q := by
  rw [definedSizeT, fitsSizeT_iff]
  split_ifs with h
  · exact iff_of_true rfl h
  · exact iff_of_false Bool.false_ne_true h

/-- A number clamped to the positions of a text. -/
def clampIndex (q : ℚ) (size : ℕ) : ℕ := (max 0 (min (truncate q) size)).toNat

/-- The text from one position to another, clamped; the second one may be left out. -/
def clampedSlice (s : Bytes) (start : ℚ) (stop : Option ℚ) : Bytes :=
  (s.take ((stop.map fun q => clampIndex q s.length).getD s.length)).drop (clampIndex start s.length)

/-- The byte at a position, or `-1` outside of the text. -/
def byteOrMinusOne (s : Bytes) (q : ℚ) : ℤ :=
  if truncate q < 0 then -1 else (s[(truncate q).toNat]?.map fun c => (c.toNat : ℤ)).getD (-1)

/-- It is a byte or `-1`. -/
theorem byteOrElse_mem (c : Option Byte) :
    -1 ≤ (c.map fun c => (c.toNat : ℤ)).getD (-1) ∧ (c.map fun c => (c.toNat : ℤ)).getD (-1) ≤ 255 := by
  cases c with
  | none => simp
  | some c =>
    have hc := c.toNat_lt
    simp only [Option.map_some, Option.getD_some]
    omega

/-- Casting clamps the numbers that fit. -/
theorem min_toSizeT {q : ℚ} (h : FitsSizeT q) (size : ℕ) : min (toSizeT q) size = clampIndex q size := by
  have hlow := (fitsSizeT_iff.mp h).1
  rw [toSizeT_eq h, clampIndex]
  omega

/-- Negative numbers are clamped to the start. -/
theorem clampIndex_of_neg {q : ℚ} (h : q < 0) (size : ℕ) : clampIndex q size = 0 := by
  have hceil : truncate q ≤ 0 := by
    rw [truncate, if_pos h]
    exact Int.ceil_le.mpr (by exact_mod_cast h.le)
  rw [clampIndex]
  omega

/-- The end of `slice` with a cast that may be undefined; a negative one is not cast. -/
def sliceEnd (cast : ℚ → Option ℕ) (s : Bytes) : Option ℚ → Option ℕ
  | none => some s.length
  | some e => if e < 0 then some 0 else (cast e).map (min · s.length)

/-- `slice` with a cast that may be undefined. -/
def sliceCasting (cast : ℚ → Option ℕ) (s : Bytes) (start : ℚ) (stop : Option ℚ) : Option Bytes :=
  (cast start).bind fun start => (sliceEnd cast s stop).map fun stop =>
    (s.drop (min start s.length)).take (stop - min start s.length)

/-- `byte_at` with a cast that may be undefined. -/
def byteAtCasting (cast : ℚ → Option ℕ) (s : Bytes) (index : ℚ) : Option ℤ :=
  (cast index).map fun i => (s[i]?.map fun c => (c.toNat : ℤ)).getD (-1)

/-- The cast of the program always gives something. -/
def machineCast (q : ℚ) : Option ℕ := some (toSizeT q)

variable {s : Bytes}

/-- `slice` with number arguments answers what the casts of the machine give. -/
theorem callStringMethod_slice (s : Bytes) (start : ℚ) (stop : Option ℚ) (pos : Pos) :
    ∃ r, sliceCasting machineCast s start stop = some r ∧
      callStringMethod s (str "slice") (.number start :: stop.toList.map .number) pos = .ok (.string r) := by
  cases stop with
  | none => exact ⟨_, rfl, rfl⟩
  | some stop =>
    refine ⟨_, ?_, rfl⟩
    by_cases hneg : stop < 0
    · simp [sliceCasting, sliceEnd, machineCast, hneg]
    · simp [sliceCasting, sliceEnd, machineCast, hneg]

/-- `byte_at` with a number answers what the casts of the machine give. -/
theorem callStringMethod_byteAt (s : Bytes) (index : ℚ) (pos : Pos) :
    ∃ r : ℤ, byteAtCasting machineCast s index = some r ∧
      callStringMethod s (str "byte_at") [.number index] pos = .ok (.number r) := by
  refine ⟨_, rfl, ?_⟩
  have hcall : callStringMethod s (str "byte_at") [.number index] pos = byteAt s [.number index] pos := rfl
  have hindex : numberArgument [.number index] 0 (str "index") pos = .ok index := rfl
  rw [hcall, byteAt, hindex]
  cases hbyte : s[toSizeT index]? with
  | none => simp [bind, Except.bind, pure, Except.pure, hbyte]
  | some c => simp [bind, Except.bind, pure, Except.pure, hbyte]

/-- A cast that is defined is the one that the program makes. -/
theorem machineCast_of_defined {q : ℚ} {n : ℕ} (h : definedSizeT q = some n) : machineCast q = some n := by
  have hfits : FitsSizeT q := isSome_definedSizeT.mp (h ▸ rfl)
  exact (definedSizeT_eq hfits).symm.trans h

/-- The end with defined casts. -/
theorem sliceEnd_defined {stop : Option ℚ} (h : ∀ q ∈ stop, q < 2 ^ 64) :
    sliceEnd definedSizeT s stop = some ((stop.map fun q => clampIndex q s.length).getD s.length) := by
  cases stop with
  | none => rfl
  | some stop =>
    rw [sliceEnd]
    split_ifs with hneg
    · exact congrArg some (clampIndex_of_neg hneg s.length).symm
    · have hfits : FitsSizeT stop := ⟨by linarith, h stop rfl⟩
      rw [definedSizeT_eq hfits]
      exact congrArg some (min_toSizeT hfits s.length)

/-- The end of a slice has a defined cast just when it is below `2 ^ 64`. -/
theorem isSome_sliceEnd {stop : Option ℚ} : (sliceEnd definedSizeT s stop).isSome ↔ ∀ q ∈ stop, q < 2 ^ 64 := by
  constructor
  · rintro h q ⟨⟩
    rw [sliceEnd] at h
    split_ifs at h with hneg
    · linarith
    · rw [Option.isSome_map, isSome_definedSizeT] at h
      exact h.2
  · intro h
    rw [sliceEnd_defined h]
    rfl

/-- With defined casts the program computes the end that is meant. -/
theorem sliceEnd_machine {stop : Option ℚ} {n : ℕ} (h : sliceEnd definedSizeT s stop = some n) :
    sliceEnd machineCast s stop = some n := by
  cases stop with
  | none => exact h
  | some stop =>
    rw [sliceEnd] at h ⊢
    split_ifs at h ⊢ with hneg
    · exact h
    · obtain ⟨m, hm, rfl⟩ := Option.map_eq_some_iff.mp h
      rw [machineCast_of_defined hm]
      rfl

/-- All casts of `slice` are defined. -/
theorem isSome_sliceCasting {start : ℚ} {stop : Option ℚ} :
    (sliceCasting definedSizeT s start stop).isSome ↔ FitsSizeT start ∧ ∀ q ∈ stop, q < 2 ^ 64 := by
  rw [sliceCasting, ← isSome_definedSizeT, ← isSome_sliceEnd (s := s)]
  cases definedSizeT start with
  | none => simp
  | some start => simp

/-- With defined casts `slice` yields the clamped text. -/
theorem sliceCasting_machine {start : ℚ} {stop : Option ℚ} (hstart : FitsSizeT start)
    (hstop : ∀ q ∈ stop, q < 2 ^ 64) :
    sliceCasting machineCast s start stop = some (clampedSlice s start stop) := by
  rw [sliceCasting, machineCast_of_defined (definedSizeT_eq hstart), Option.bind_some,
    sliceEnd_machine (sliceEnd_defined hstop), Option.map_some, clampedSlice, List.drop_take, min_toSizeT hstart]

/-- `slice` clamps its arguments and `byte_at` its index exactly where no number outside of `std::size_t` is cast: the
start and the index lie above `-1` and below `2 ^ 64`, the end below `2 ^ 64`. What `byte_at` yields is always a byte
or `-1`. -/
theorem stringIndexes_clamped_iff (s : Bytes) (pos : Pos) :
    (∀ (start : ℚ) (stop : Option ℚ),
      (callStringMethod s (str "slice") (.number start :: stop.toList.map .number) pos =
          .ok (.string (clampedSlice s start stop)) ∧ (sliceCasting definedSizeT s start stop).isSome) ↔
        (-1 < start ∧ start < 2 ^ 64) ∧ ∀ q ∈ stop, q < 2 ^ 64) ∧
    (∀ index : ℚ,
      (callStringMethod s (str "byte_at") [.number index] pos = .ok (.number (byteOrMinusOne s index)) ∧
          (byteAtCasting definedSizeT s index).isSome) ↔ -1 < index ∧ index < 2 ^ 64) ∧
    ∀ index : ℚ, ∃ r : ℤ, callStringMethod s (str "byte_at") [.number index] pos = .ok (.number r) ∧
      -1 ≤ r ∧ r ≤ 255 := by
  refine ⟨?_, ?_, ?_⟩
  · intro start stop
    obtain ⟨r, hr, hcall⟩ := callStringMethod_slice s start stop pos
    rw [isSome_sliceCasting, hcall]
    apply and_iff_right_of_imp
    rintro ⟨hstart, hstop⟩
    rw [sliceCasting_machine hstart hstop] at hr
    cases hr
    rfl
  · intro index
    obtain ⟨r, hr, hcall⟩ := callStringMethod_byteAt s index pos
    rw [byteAtCasting, Option.isSome_map, isSome_definedSizeT, hcall]
    apply and_iff_right_of_imp
    intro hindex
    have hlow := (fitsSizeT_iff.mp hindex).1
    rw [byteAtCasting, machineCast, Option.map_some, Option.some_inj, toSizeT_eq hindex] at hr
    rw [byteOrMinusOne, if_neg (not_lt.mpr hlow), hr]
  · intro index
    obtain ⟨r, hr, hcall⟩ := callStringMethod_byteAt s index pos
    obtain rfl := Option.some.inj hr
    exact ⟨_, hcall, byteOrElse_mem _⟩

/-- A start in front of the text is taken for one behind it. -/
theorem slice_minusOne : ¬callStringMethod (str "abc") (str "slice") [.number (-1)] ⟨1, 1⟩ =
    .ok (.string (clampedSlice (str "abc") (-1) none)) := by
  intro h
  obtain ⟨r, hr, hcall⟩ := callStringMethod_slice (str "abc") (-1) none ⟨1, 1⟩
  cases hcall.symm.trans h
  exact absurd hr (by decide +kernel)

end ZeroTrust.Ztl
