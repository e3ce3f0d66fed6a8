import ZeroTrust.Core.Ipv4
import ZeroTrust.Lib.AlignedBlock
import ZeroTrust.Ztl.Number

/-!
# CIDR blocks

`scan/cidr.cpp`: the addresses of a block, in order, up to a limit.
-/

namespace ZeroTrust

/-- `MAX_HOSTS`. -/
def maxHosts : UInt64 := 65536

/-- `mask`: a shift by the whole width is avoided. -/
def cidrMask (prefixLen : ℕ) : UInt32 :=
  if prefixLen = 0 then 0 else 0xFFFFFFFF <<< (32 - prefixLen).toUInt32

/-- `count`, after the limit. -/
def cidrCount (prefixLen : ℕ) : UInt64 :=
  let count : UInt64 := if prefixLen = 32 then 1 else 1 <<< (32 - prefixLen).toUInt64
  if count > maxHosts then maxHosts else count

/-- `expand_cidr`: text without a slash is one host. -/
def expandCidr (input : Bytes) : List Bytes :=
  match findByte 47 input with
  | none => [input]
  | some slash =>
    match Ztl.stoi (input.drop (slash + 1)) with
    | none => []
    | some prefixLen =>
      if prefixLen < 0 ∨ prefixLen > 32 then []
      else match inetPton (beforeNul (input.take slash)) with
        | none => []
        | some baseIp =>
          let network := baseIp &&& cidrMask prefixLen.toNat
          (List.range (cidrCount prefixLen.toNat).toNat).map fun i => inetNtop (network + i.toUInt32)

variable {prefixLen : ℕ}

/-- The mask clears the digits behind the prefix. -/
theorem toNat_and_cidrMask (address : UInt32) (h : prefixLen ≤ 32) :
    (address &&& cidrMask prefixLen).toNat = blockStart (32 - prefixLen) address.toNat := by
  rw [UInt32.toNat_and, cidrMask]
  split_ifs with hzero
  · have hstart : address.toNat / 2 ^ 32 = 0 := Nat.div_eq_of_lt address.toNat_lt
    rw [hzero, blockStart, hstart, Nat.zero_mul]
    exact Nat.and_zero _
  · have hwidth : (32 - prefixLen).toUInt32.toNat = 32 - prefixLen := UInt32.toNat_ofNat_of_lt' (by
      change _ < 2 ^ 32
      omega)
    rw [UInt32.toNat_shiftLeft, hwidth, Nat.mod_eq_of_lt (show 32 - prefixLen < 32 by omega)]
    exact and_leadingDigits address.toNat_lt (32 - prefixLen)

/-- The number of hosts is the size of the block, up to the limit. -/
theorem toNat_cidrCount (h : prefixLen ≤ 32) : (cidrCount prefixLen).toNat = min (2 ^ (32 - prefixLen)) 65536 := by
  have hall : ∀ n < 33, (cidrCount n).toNat = min (2 ^ (32 - n)) 65536 := by decide
  exact hall prefixLen (Nat.lt_succ_of_le h)

/-- The addresses from the network on, as many as are expanded. -/
def expandedAddresses (address : UInt32) (prefixLen : ℕ) : List UInt32 :=
  (List.range (min (2 ^ (32 - prefixLen)) 65536)).map fun i => (address &&& cidrMask prefixLen) + i.toUInt32

/-- A block in its usual notation is expanded. -/
theorem expandCidr_eq (address : UInt32) (h : prefixLen ≤ 32) :
    expandCidr (inetNtop address ++ 47 :: decimal prefixLen) =
      (expandedAddresses address prefixLen).map inetNtop := by
  have hfind : findByte 47 (inetNtop address ++ 47 :: decimal prefixLen) = some (inetNtop address).length :=
    findByte_append_cons (not_mem_inetNtop address rfl (by decide)) _
  have hbehind : (inetNtop address ++ 47 :: decimal prefixLen).drop ((inetNtop address).length + 1) =
      decimal prefixLen := by
    rw [← List.drop_drop, List.drop_left]
    rfl
  have hbase : beforeNul (inetNtop address) = inetNtop address :=
    beforeNul_eq_self.mpr (not_mem_inetNtop address rfl (by decide))
  rw [expandCidr, hfind]
  dsimp only
  rw [hbehind, Ztl.stoi_decimal (by omega)]
  dsimp only
  rw [if_neg (by omega), List.take_left, hbase, inetPton_inetNtop]
  dsimp only
  rw [Int.toNat_natCast, toNat_cidrCount h, expandedAddresses, List.map_map]
  rfl

/-- The sums do not wrap around. -/
theorem toNat_expandedAddresses (address : UInt32) (h : prefixLen ≤ 32) :
    (expandedAddresses address prefixLen).map UInt32.toNat =
      List.range' (blockStart (32 - prefixLen) address.toNat) (min (2 ^ (32 - prefixLen)) 65536) := by
  rw [expandedAddresses, List.map_map, List.range'_eq_map_range]
  apply List.map_congr_left
  intro i hi
  have hend := blockStart_add_le address.toNat_lt (show 32 - prefixLen ≤ 32 by omega)
  have hnext : i < 2 ^ (32 - prefixLen) := (List.mem_range.mp hi).trans_le (min_le_left _ _)
  have hnat : i.toUInt32.toNat = i := UInt32.toNat_ofNat_of_lt' (by
    change i < 2 ^ 32
    omega)
  change ((address &&& cidrMask prefixLen) + i.toUInt32).toNat = _
  rw [UInt32.toNat_add, toNat_and_cidrMask address h, hnat]
  exact Nat.mod_eq_of_lt (by omega)

/-- The addresses of a block from its start on, one by one, and all of them if there are not too many. -/
structure EnumeratesBlock (address : UInt32) (prefixLen : ℕ) (addresses : List UInt32) : Prop where
  consecutive : addresses.map UInt32.toNat =
    List.range' (blockStart (32 - prefixLen) address.toNat) (min (2 ^ (32 - prefixLen)) 65536)
  increasing : addresses.Pairwise (· < ·)
  inside : ∀ host ∈ addresses, SameBlock (32 - prefixLen) address.toNat host.toNat
  complete : 16 ≤ prefixLen → ∀ host : UInt32, SameBlock (32 - prefixLen) address.toNat host.toNat → host ∈ addresses

/-- Consecutive addresses from the start of a block on enumerate it. -/
theorem enumeratesBlock {address : UInt32} {addresses : List UInt32}
    (h : addresses.map UInt32.toNat =
      List.range' (blockStart (32 - prefixLen) address.toNat) (min (2 ^ (32 - prefixLen)) 65536)) :
    EnumeratesBlock address prefixLen addresses := by
  have hmem : ∀ host : UInt32, host ∈ addresses ↔
      blockStart (32 - prefixLen) address.toNat ≤ host.toNat ∧
        host.toNat < blockStart (32 - prefixLen) address.toNat + min (2 ^ (32 - prefixLen)) 65536 := by
    intro host
    rw [← List.mem_range'_1, ← h, List.mem_map]
    constructor
    · exact fun hhost => ⟨host, hhost, rfl⟩
    · rintro ⟨host', hhost', heq⟩
      exact UInt32.toNat_inj.mp heq ▸ hhost'
  have hincreasing : (addresses.map UInt32.toNat).Pairwise (· < ·) := by
    rw [h]
    exact List.pairwise_lt_range'
  refine ⟨h, (List.pairwise_map.mp hincreasing).imp UInt32.lt_iff_toNat_lt.mpr, ?_, ?_⟩
  · intro host hhost
    obtain ⟨hstart, hend⟩ := (hmem host).mp hhost
    exact sameBlock_iff.mpr ⟨hstart, by omega⟩
  · intro hlong host hblock
    obtain ⟨hstart, hend⟩ := sameBlock_iff.mp hblock
    have hsize : 2 ^ (32 - prefixLen) ≤ 2 ^ 16 := Nat.pow_le_pow_right (by decide) (by omega)
    exact (hmem host).mpr ⟨hstart, by omega⟩

/-- A block in its usual notation is enumerated from its start on, up to the limit and without repetition,
and all its addresses stand for it. -/
theorem expandCidr_block (address : UInt32) (prefixLen : ℕ) (h : prefixLen ≤ 32) :
    (∃ addresses, EnumeratesBlock address prefixLen addresses ∧
      expandCidr (inetNtop address ++ 47 :: decimal prefixLen) = addresses.map inetNtop) ∧
    (expandCidr (inetNtop address ++ 47 :: decimal prefixLen)).Nodup ∧
    ∀ other : UInt32, SameBlock (32 - prefixLen) address.toNat other.toNat →
      expandCidr (inetNtop other ++ 47 :: decimal prefixLen) =
        expandCidr (inetNtop address ++ 47 :: decimal prefixLen) := by
  have hblock := enumeratesBlock (toNat_expandedAddresses address h)
  refine ⟨⟨_, hblock, expandCidr_eq address h⟩, ?_, ?_⟩
  · rw [expandCidr_eq address h]
    have hdistinct : (expandedAddresses address prefixLen).Nodup := hblock.increasing.imp UInt32.ne_of_lt
    exact hdistinct.map inetNtop_injective
  · intro other hother
    have hnetwork : other &&& cidrMask prefixLen = address &&& cidrMask prefixLen := by
      apply UInt32.toNat_inj.mp
      rw [toNat_and_cidrMask other h, toNat_and_cidrMask address h, hother.blockStart_eq]
    rw [expandCidr_eq other h, expandCidr_eq address h, expandedAddresses, hnetwork]
    rfl

/-- The last address of the whole range stands for all of it. -/
theorem expandCidr_block_all : 0 ≤ 32 ∧ ∃ addresses, EnumeratesBlock 0xFFFFFFFF 0 addresses ∧
    expandCidr (inetNtop 0xFFFFFFFF ++ 47 :: decimal 0) = addresses.map inetNtop :=
  ⟨by decide, (expandCidr_block 0xFFFFFFFF 0 (by decide)).1⟩

/-- CIDR notation: an address, and digits behind the slash for a number up to 32. -/
def CidrNotation (base suffix : Bytes) : Prop :=
  (inetPton base).isSome ∧ suffix ≠ [] ∧ (∀ c ∈ suffix, isDigit c = true) ∧ digitsValue suffix ≤ 32

instance (base suffix : Bytes) : Decidable (CidrNotation base suffix) := inferInstanceAs (Decidable (_ ∧ _))

/-- Text that begins like a prefix length, maybe after blanks or a sign, as the library reads it. -/
def BeginsWithLength (suffix : Bytes) : Prop := ∃ n, Ztl.stoi suffix = some n ∧ 0 ≤ n ∧ n ≤ 32

variable {base suffix : Bytes}

/-- Some host is found. -/
theorem expandCidr_ne_nil_iff (h : 47 ∉ base) :
    expandCidr (base ++ 47 :: suffix) ≠ [] ↔ BeginsWithLength suffix ∧ (inetPton (beforeNul base)).isSome := by
  have hbehind : (base ++ 47 :: suffix).drop (base.length + 1) = suffix := by
    rw [← List.drop_drop, List.drop_left]
    rfl
  rw [expandCidr, findByte_append_cons h]
  dsimp only
  rw [hbehind, List.take_left]
  cases hlength : Ztl.stoi suffix with
  | none => simp [BeginsWithLength, hlength]
  | some n =>
    have hbegins : BeginsWithLength suffix ↔ ¬(n < 0 ∨ n > 32) := by
      simp [BeginsWithLength, hlength]
    dsimp only
    rw [hbegins]
    split_ifs with hrange
    · simp [hrange]
    · cases inetPton (beforeNul base) with
      | none => simp
      | some address =>
        have hcount : (cidrCount n.toNat).toNat ≠ 0 := by
          rw [toNat_cidrCount (by omega)]
          have hpos : 0 < 2 ^ (32 - n.toNat) := by positivity
          omega
        simp [hrange, hcount]

/-- Digits alone begin with a length exactly if they are one. -/
theorem beginsWithLength_digits (h : ∀ c ∈ suffix, isDigit c = true) :
    BeginsWithLength suffix ↔ suffix ≠ [] ∧ digitsValue suffix ≤ 32 := by
  by_cases hempty : suffix = []
  · subst hempty
    simp [BeginsWithLength, Ztl.stoi]
  · rw [BeginsWithLength, Ztl.stoi_digits hempty h]
    constructor
    · rintro ⟨n, hn, hrange⟩
      split at hn
      · cases hn
        exact ⟨hempty, by omega⟩
      · cases hn
    · rintro ⟨-, hle⟩
      exact ⟨digitsValue suffix, if_pos (by omega), by omega, by omega⟩

/-- An address has no zero byte. -/
theorem nulFree_of_inetPton (h : (inetPton base).isSome) : NulFree base := by
  obtain ⟨address, haddress⟩ := Option.isSome_iff_exists.mp h
  intro hzero
  rcases mem_of_inetPton haddress hzero with hdigit | hdot
  · exact absurd hdigit (by decide)
  · exact absurd hdot (by decide)

/-- Text with a slash is taken as a block exactly if it is in the notation, unless an address in front of a zero
byte or a length in front of other text is taken for the whole. -/
theorem expandCidr_accepts_iff {base suffix : Bytes} (h : 47 ∉ base) :
    (expandCidr (base ++ 47 :: suffix) ≠ [] ↔ CidrNotation base suffix) ↔
      ((inetPton (beforeNul base)).isSome → BeginsWithLength suffix →
        NulFree base ∧ ∀ c ∈ suffix, isDigit c = true) := by
  rw [expandCidr_ne_nil_iff h]
  constructor
  · intro haccepts haddress hlength
    obtain ⟨hbase, -, hdigits, -⟩ := haccepts.mp ⟨hlength, haddress⟩
    exact ⟨nulFree_of_inetPton hbase, hdigits⟩
  · intro hstrict
    constructor
    · rintro ⟨hlength, haddress⟩
      obtain ⟨hnul, hdigits⟩ := hstrict haddress hlength
      obtain ⟨hne, hle⟩ := (beginsWithLength_digits hdigits).mp hlength
      rw [beforeNul_eq_self.mpr hnul] at haddress
      exact ⟨haddress, hne, hdigits, hle⟩
    · rintro ⟨haddress, hne, hdigits, hle⟩
      refine ⟨(beginsWithLength_digits hdigits).mpr ⟨hne, hle⟩, ?_⟩
      rw [beforeNul_eq_self.mpr (nulFree_of_inetPton haddress)]
      exact haddress

/-- A length with text behind it makes a block. -/
theorem expandCidr_accepts_trailing : ¬(expandCidr (str "10.0.0.0" ++ 47 :: str "32abc") ≠ [] ↔
    CidrNotation (str "10.0.0.0") (str "32abc")) := by
  decide +kernel

/-- A block in the notation. -/
theorem expandCidr_accepts_usual : 47 ∉ str "10.0.0.0" ∧
    (expandCidr (str "10.0.0.0" ++ 47 :: str "32") ≠ [] ↔ CidrNotation (str "10.0.0.0") (str "32")) := by
  refine ⟨by decide, (expandCidr_accepts_iff (by decide)).mpr fun _ _ => ?_⟩
  exact ⟨by decide +kernel, by decide +kernel⟩

end ZeroTrust
