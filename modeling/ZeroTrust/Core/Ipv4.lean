import ZeroTrust.Core.CString
import ZeroTrust.Lib.BigEndian
import ZeroTrust.Lib.Separated

/-!
# IPv4 addresses

Addresses as numbers and as dotted quads.
-/

namespace ZeroTrust

/-- `inet_ntop` of four bytes. -/
def dottedQuad (octets : Bytes) : Bytes := List.intercalate [46] (octets.map fun b => decimal b.toNat)

/-- `inet_ntop` of an address. -/
def inetNtop (address : UInt32) : Bytes :=
  dottedQuad [(address >>> 24).toUInt8, (address >>> 16).toUInt8, (address >>> 8).toUInt8, address.toUInt8]

/-- One number of a dotted quad: digits only, no leading zero, at most 255. -/
def octet (field : Bytes) : Option UInt32 :=
  if field ≠ [] ∧ field.all isDigit ∧ (field.head? = some 48 → field.length = 1) ∧ digitsValue field ≤ 255 then
    some (digitsValue field).toUInt32
  else none

/-- `inet_pton`: four numbers, the first one for the highest byte. -/
def inetPton (s : Bytes) : Option UInt32 :=
  match s.splitOn 46 with
  | [first, second, third, fourth] => do
    let a ← octet first
    let b ← octet second
    let c ← octet third
    let d ← octet fourth
    return a <<< 24 ||| b <<< 16 ||| c <<< 8 ||| d
  | _ => none

/-- A byte reads as itself. -/
theorem octet_decimal (b : Byte) : octet (decimal b.toNat) = some b.toUInt32 := by
  have hall : ∀ n < 256, octet (decimal n) = some n.toUInt32 := by decide +kernel
  exact (hall b.toNat b.toNat_lt).trans (congrArg some (UInt32.ofNat_uInt8ToNat b))

/-- A dotted quad has digits and dots. -/
theorem mem_dottedQuad {octets : Bytes} {c : Byte} (h : c ∈ dottedQuad octets) : isDigit c = true ∨ c = 46 := by
  rcases eq_or_exists_mem_of_mem_intercalate 46 h with hdot | ⟨field, hfield, hc⟩
  · exact .inr hdot
  · obtain ⟨b, -, rfl⟩ := List.mem_map.mp hfield
    exact .inl (isDigit_of_mem_decimal hc)

/-- What is no digit and no dot does not occur in a dotted quad. -/
theorem not_mem_inetNtop (address : UInt32) {c : Byte} (hdigit : isDigit c = false) (hdot : c ≠ 46) :
    c ∉ inetNtop address := by
  intro hc
  rcases mem_dottedQuad hc with h | h
  · rw [hdigit] at h
    exact Bool.noConfusion h
  · exact hdot h

/-- An address is read back. -/
theorem inetPton_inetNtop (address : UInt32) : inetPton (inetNtop address) = some address := by
  have hpieces : (inetNtop address).splitOn 46 =
      [(address >>> 24).toUInt8, (address >>> 16).toUInt8, (address >>> 8).toUInt8, address.toUInt8].map
        fun b => decimal b.toNat := by
    apply List.splitOn_intercalate
    · intro field hfield
      obtain ⟨b, -, rfl⟩ := List.mem_map.mp hfield
      exact not_mem_decimal rfl
    · exact List.cons_ne_nil _ _
  rw [inetPton, hpieces]
  change (do
    let a ← octet (decimal (address >>> 24).toUInt8.toNat)
    let b ← octet (decimal (address >>> 16).toUInt8.toNat)
    let c ← octet (decimal (address >>> 8).toUInt8.toNat)
    let d ← octet (decimal address.toUInt8.toNat)
    return a <<< 24 ||| b <<< 16 ||| c <<< 8 ||| d) = some address
  rw [octet_decimal, octet_decimal, octet_decimal, octet_decimal]
  exact congrArg some (uint32_of_bytes address)

/-- What is read as an address has digits and dots. -/
theorem mem_of_inetPton {s : Bytes} {address : UInt32} (h : inetPton s = some address) {c : Byte} (hc : c ∈ s) :
    isDigit c = true ∨ c = 46 := by
  have hoctet : ∀ {field : Bytes} {n : UInt32}, octet field = some n → ∀ d ∈ field, isDigit d = true := by
    intro field n hfield
    unfold octet at hfield
    split at hfield
    · next hshape => exact List.all_eq_true.mp hshape.2.1
    · cases hfield
  rcases eq_or_exists_mem_splitOn 46 hc with hdot | ⟨field, hfield, hmem⟩
  · exact .inr hdot
  · left
    unfold inetPton at h
    split at h
    · next first second third fourth hpieces =>
      obtain ⟨_, ha, h⟩ := Option.bind_eq_some_iff.mp h
      obtain ⟨_, hb, h⟩ := Option.bind_eq_some_iff.mp h
      obtain ⟨_, hthird, h⟩ := Option.bind_eq_some_iff.mp h
      obtain ⟨_, hd, -⟩ := Option.bind_eq_some_iff.mp h
      rw [hpieces] at hfield
      simp only [List.mem_cons, List.not_mem_nil, or_false] at hfield
      rcases hfield with rfl | rfl | rfl | rfl
      · exact hoctet ha c hmem
      · exact hoctet hb c hmem
      · exact hoctet hthird c hmem
      · exact hoctet hd c hmem
    · cases h

/-- Different addresses have different texts. -/
theorem inetNtop_injective : Function.Injective inetNtop := by
  intro a b h
  apply Option.some.inj
  rw [← inetPton_inetNtop a, h, inetPton_inetNtop]

end ZeroTrust
