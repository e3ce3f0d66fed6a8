import ZeroTrust.Lib.Loop
import ZeroTrust.Lib.OnesComplement

/-!
# The ICMP checksum

`calculate_checksum` of the ICMP transport: the 16-bit words of a buffer are added in a 32-bit
accumulator, the carries are folded back and the result is complemented. The words are read in the
byte order of the host.
-/

namespace ZeroTrust

/-- The order in which the host stores the bytes of a word. -/
inductive ByteOrder
  | little
  | big

/-- The word stored in two bytes. -/
def ByteOrder.word : ByteOrder → UInt8 → UInt8 → UInt16
  | .little, first, second => first.toUInt16 + second.toUInt16 * 256
  | .big, first, second => first.toUInt16 * 256 + second.toUInt16

/-- The bytes in which a word is stored. -/
def ByteOrder.bytes : ByteOrder → UInt16 → UInt8 × UInt8
  | .little, word => (word.toUInt8, (word / 256).toUInt8)
  | .big, word => ((word / 256).toUInt8, word.toUInt8)

/-- The first loop of `calculate_checksum`, with what follows it for an odd last byte. -/
def sumWords (order : ByteOrder) : List UInt8 → UInt32 → UInt32
  | first :: second :: rest, sum => sumWords order rest (sum + (order.word first second).toUInt32)
  | [last], sum => sum + last.toUInt32
  | [], sum => sum

/-- The body of the second loop. -/
def foldCarry (sum : UInt32) : UInt32 := (sum &&& (0xFFFF : UInt32)) + (sum >>> 16)

/-- The second loop as a step: `while (sum >> 16)`. -/
def foldStep (sum : UInt32) : UInt32 ⊕ UInt32 :=
  if sum >>> 16 ≠ 0 then .inl (foldCarry sum) else .inr sum

/-- Folding a carry is an addition with its carry brought around. -/
theorem foldCarry_toNat (sum : UInt32) : (foldCarry sum).toNat = endAround 16 sum.toNat := by
  have hlt := sum.toNat_lt
  have hmask : (sum &&& (0xFFFF : UInt32)).toNat = sum.toNat % 2 ^ 16 := by
    rw [UInt32.toNat_and]
    exact Nat.and_two_pow_sub_one_eq_mod _ 16
  have hshift : (sum >>> 16).toNat = sum.toNat / 2 ^ 16 := by
    rw [UInt32.toNat_shiftRight]
    simp [Nat.shiftRight_eq_div_pow]
  rw [foldCarry, UInt32.toNat_add, hmask, hshift, endAround]
  omega

/-- The loop goes on while there is a carry. -/
theorem carries_iff (sum : UInt32) : sum >>> 16 ≠ 0 ↔ 2 ^ 16 ≤ sum.toNat := by
  have hlt := sum.toNat_lt
  have hshift : (sum >>> 16).toNat = sum.toNat / 2 ^ 16 := by
    rw [UInt32.toNat_shiftRight]
    simp [Nat.shiftRight_eq_div_pow]
  rw [ne_eq, ← UInt32.toNat_inj, hshift, UInt32.toNat_zero]
  omega

/-- The second loop of `calculate_checksum`. Every iteration makes the sum smaller. -/
def foldLoop : Loop UInt32 UInt32 where
  step := foldStep
  variant := UInt32.toNat
  decreases := by
    intro sum sum' h
    rw [foldStep] at h
    split at h
    · next hcarry =>
      obtain rfl : foldCarry sum = sum' := Sum.inl.inj h
      rw [foldCarry_toNat]
      exact endAround_lt (by omega) ((carries_iff sum).mp hcarry)
    · cases h

/-- `calculate_checksum`. -/
def calculateChecksum (order : ByteOrder) (data : List UInt8) : UInt16 :=
  (~~~ foldLoop.run (sumWords order data 0)).toUInt16

/-- The values of the words of a buffer of even length. -/
def wordValues (order : ByteOrder) : List UInt8 → List ℕ
  | first :: second :: rest => (order.word first second).toNat :: wordValues order rest
  | _ => []

/-- The word at an offset. -/
def wordAt (order : ByteOrder) (data : List UInt8) (offset : ℕ) : Option UInt16 := do
  let first ← data[offset]?
  let second ← data[offset + 1]?
  return order.word first second

/-- The buffer after a word has been stored at an offset. -/
def storeWord (order : ByteOrder) (data : List UInt8) (offset : ℕ) (word : UInt16) : List UInt8 :=
  (data.set offset (order.bytes word).1).set (offset + 1) (order.bytes word).2

/-- A stored word is read back. -/
theorem ByteOrder.word_bytes (order : ByteOrder) (word : UInt16) :
    order.word (order.bytes word).1 (order.bytes word).2 = word := by
  have hlt := word.toNat_lt
  apply UInt16.toNat_inj.mp
  cases order <;>
    simp only [ByteOrder.word, ByteOrder.bytes, UInt16.toNat_add, UInt16.toNat_mul, UInt8.toNat_toUInt16,
      UInt16.toNat_toUInt8, UInt16.toNat_div, UInt16.reduceToNat] <;>
    omega

/-- The words have 16 bits. -/
theorem wordValues_lt (order : ByteOrder) (data : List UInt8) :
    ∀ value ∈ wordValues order data, value < 2 ^ 16 := by
  induction data using wordValues.induct with
  | case1 first second rest ih =>
    intro value hvalue
    rw [wordValues, List.mem_cons] at hvalue
    rcases hvalue with rfl | hrest
    · exact UInt16.toNat_lt _
    · exact ih value hrest
  | case2 data hshort =>
    intro value hvalue
    rw [wordValues] at hvalue
    · cases hvalue
    · exact hshort

/-- The words of a buffer are those of its parts, if the first part has even length. -/
theorem wordValues_append (order : ByteOrder) (front back : List UInt8) (heven : front.length % 2 = 0) :
    wordValues order (front ++ back) = wordValues order front ++ wordValues order back := by
  induction front using wordValues.induct with
  | case1 first second rest ih =>
    have hrest : rest.length % 2 = 0 := by
      simp only [List.length_cons] at heven
      omega
    simp [wordValues, ih hrest]
  | case2 front hshort =>
    cases front with
    | nil => rfl
    | cons first rest =>
      cases rest with
      | nil => simp at heven
      | cons second rest => exact absurd rfl (hshort first second rest)

/-- The words of a buffer shorter than `2 ^ 17` bytes do not fill the accumulator. -/
theorem sum_wordValues_lt (order : ByteOrder) {data : List UInt8} (hlength : data.length < 2 ^ 17) :
    (wordValues order data).sum < 2 ^ 32 := by
  have hsum : 2 * (wordValues order data).sum ≤ (2 ^ 16 - 1) * data.length := by
    clear hlength
    induction data using wordValues.induct with
    | case1 first second rest ih =>
      have hword := (order.word first second).toNat_lt
      simp only [wordValues, List.sum_cons, List.length_cons]
      omega
    | case2 data hshort =>
      rw [wordValues]
      · simp
      · exact hshort
  omega

/-- The first loop adds the words, as long as they fit. -/
theorem sumWords_toNat (order : ByteOrder) {data : List UInt8} (heven : data.length % 2 = 0) (sum : UInt32)
    (hfits : sum.toNat + (wordValues order data).sum < 2 ^ 32) :
    (sumWords order data sum).toNat = sum.toNat + (wordValues order data).sum := by
  induction data, sum using sumWords.induct order with
  | case1 first second rest sum ih =>
    have hrest : rest.length % 2 = 0 := by
      simp only [List.length_cons] at heven
      omega
    simp only [wordValues, List.sum_cons] at hfits ⊢
    have hstep : (sum + (order.word first second).toUInt32).toNat =
        sum.toNat + (order.word first second).toNat := by
      rw [UInt32.toNat_add, UInt16.toNat_toUInt32]
      omega
    rw [sumWords, ih hrest (by omega), hstep]
    omega
  | case2 last sum => simp at heven
  | case3 sum => simp [sumWords, wordValues]

/-- The first loop in a buffer of two parts. -/
theorem sumWords_append (order : ByteOrder) (front back : List UInt8) (heven : front.length % 2 = 0) (sum : UInt32) :
    sumWords order (front ++ back) sum = sumWords order back (sumWords order front sum) := by
  induction front, sum using sumWords.induct order with
  | case1 first second rest sum ih =>
    have hrest : rest.length % 2 = 0 := by
      simp only [List.length_cons] at heven
      omega
    simp [sumWords, ih hrest]
  | case2 last sum => simp at heven
  | case3 sum => simp [sumWords]

/-- The second loop keeps the represented sum and leaves a word. -/
theorem foldLoop_isOnesSum (sum : UInt32) : IsOnesSum 16 sum.toNat (foldLoop.run sum).toNat := by
  apply foldLoop.run_induction
    (fun current => ∀ r, IsOnesSum 16 current.toNat r → IsOnesSum 16 sum.toNat r)
    (fun result => IsOnesSum 16 sum.toNat result.toNat)
  · intro current next hcurrent hstep r hr
    apply hcurrent
    change foldStep current = _ at hstep
    rw [foldStep] at hstep
    split at hstep
    · obtain rfl := Sum.inl.inj hstep
      rw [foldCarry_toNat] at hr
      exact hr.of_endAround
    · cases hstep
  · intro current result hcurrent hstep
    change foldStep current = _ at hstep
    rw [foldStep] at hstep
    split at hstep
    · cases hstep
    · next hdone =>
      obtain rfl := Sum.inr.inj hstep
      rw [carries_iff, not_le] at hdone
      exact hcurrent _ (IsOnesSum.self hdone)
  · exact fun r hr => hr

/-- Without a carry the loop ends. -/
theorem foldStep_of_lt {sum : UInt32} (h : sum.toNat < 2 ^ 16) : foldStep sum = .inr sum := by
  rw [foldStep, if_neg]
  rw [carries_iff]
  omega

/-- With a carry it goes on. -/
theorem foldStep_of_le {sum : UInt32} (h : 2 ^ 16 ≤ sum.toNat) : foldStep sum = .inl (foldCarry sum) := by
  rw [foldStep, if_pos ((carries_iff sum).mpr h)]

/-- The body of the loop is executed at most twice. -/
theorem iterate_foldStep (sum : UInt32) : iterate foldStep 3 sum = some (foldLoop.run sum) := by
  have hdone : ∀ (n : ℕ) {current : UInt32}, current.toNat < 2 ^ 16 →
      iterate foldStep (n + 1) current = some (foldLoop.run current) := by
    intro n current hlt
    rw [iterate, foldStep_of_lt hlt, foldLoop.run_of_exit (foldStep_of_lt hlt)]
  have hcarry : ∀ (n : ℕ) {current : UInt32}, 2 ^ 16 ≤ current.toNat →
      iterate foldStep n (foldCarry current) = some (foldLoop.run (foldCarry current)) →
      iterate foldStep (n + 1) current = some (foldLoop.run current) := by
    intro n current hle hnext
    rw [iterate, foldStep_of_le hle, foldLoop.run_of_continue (foldStep_of_le hle)]
    exact hnext
  by_cases hfirst : sum.toNat < 2 ^ 16
  · exact hdone 2 hfirst
  · have hlt := sum.toNat_lt
    have hone : (foldCarry sum).toNat ≤ 131070 := by
      rw [foldCarry_toNat, endAround]
      omega
    apply hcarry 2 (by omega)
    by_cases hsecond : (foldCarry sum).toNat < 2 ^ 16
    · exact hdone 1 hsecond
    · apply hcarry 1 (by omega)
      apply hdone 0
      rw [foldCarry_toNat, endAround]
      omega

/-- `calculate_checksum` is the complement of the ones'-complement sum of the words. -/
theorem calculateChecksum_toNat (order : ByteOrder) {data : List UInt8} (heven : data.length % 2 = 0)
    (hlength : data.length < 2 ^ 17) :
    (calculateChecksum order data).toNat = 2 ^ 16 - 1 - onesSum 16 (wordValues order data) := by
  have hsum := sumWords_toNat order heven 0 (by simpa using sum_wordValues_lt order hlength)
  have hfold := foldLoop_isOnesSum (sumWords order data 0)
  rw [hsum, UInt32.toNat_zero, Nat.zero_add] at hfold
  rw [(isOnesSum_onesSum _ (wordValues_lt order data)).unique hfold]
  have hlt := hfold.lt
  rw [calculateChecksum, UInt32.toNat_toUInt16, UInt32.toNat_not]
  simp only [UInt32.size]
  omega

/-- A word in a buffer splits it. -/
theorem exists_of_wordAt {order : ByteOrder} {data : List UInt8} {offset : ℕ} {word : UInt16}
    (h : wordAt order data offset = some word) : ∃ front first second back,
      data = front ++ first :: second :: back ∧ front.length = offset ∧ order.word first second = word := by
  unfold wordAt at h
  obtain ⟨first, hfirst, h⟩ := Option.bind_eq_some_iff.mp h
  obtain ⟨second, hsecond, h⟩ := Option.bind_eq_some_iff.mp h
  obtain ⟨hlt, rfl⟩ := List.getElem?_eq_some_iff.mp hfirst
  obtain ⟨hlt', rfl⟩ := List.getElem?_eq_some_iff.mp hsecond
  refine ⟨data.take offset, _, _, data.drop (offset + 1 + 1), ?_, ?_, Option.some.inj h⟩
  · rw [← List.drop_eq_getElem_cons hlt', ← List.drop_eq_getElem_cons hlt, List.take_append_drop]
  · rw [List.length_take]
    omega

/-- The words of a buffer after one of them has been stored. -/
theorem wordValues_storeWord (order : ByteOrder) {data : List UInt8} {offset : ℕ} (hoffset : offset % 2 = 0)
    (hzero : wordAt order data offset = some 0) (word : UInt16) :
    (wordValues order (storeWord order data offset word)).sum = (wordValues order data).sum + word.toNat := by
  obtain ⟨front, first, second, back, hdata, hfront, hword⟩ := exists_of_wordAt hzero
  have heven : front.length % 2 = 0 := by rw [hfront, hoffset]
  have hstored : storeWord order data offset word =
      front ++ (order.bytes word).1 :: (order.bytes word).2 :: back := by
    rw [storeWord, hdata, ← hfront]
    simp
  rw [hstored, hdata, wordValues_append order _ _ heven, wordValues_append order _ _ heven]
  simp only [wordValues, order.word_bytes, hword, List.sum_append, List.sum_cons, UInt16.toNat_zero]
  omega

/-- Storing a word keeps the length. -/
theorem length_storeWord (order : ByteOrder) (data : List UInt8) (offset : ℕ) (word : UInt16) :
    (storeWord order data offset word).length = data.length := by
  simp [storeWord]

/-- The checksum verifies. -/
theorem calculateChecksum_storeWord (order : ByteOrder) (data : List UInt8) (heven : data.length % 2 = 0)
    (hlength : data.length < 2 ^ 17) (offset : ℕ) (hoffset : offset % 2 = 0)
    (hzero : wordAt order data offset = some 0) :
    calculateChecksum order (storeWord order data offset (calculateChecksum order data)) = 0 := by
  have hlength' := (length_storeWord order data offset (calculateChecksum order data)).symm ▸ hlength
  have heven' := (length_storeWord order data offset (calculateChecksum order data)).symm ▸ heven
  have hdata := isOnesSum_onesSum _ (wordValues_lt order data)
  have hstored := isOnesSum_onesSum _
    (wordValues_lt order (storeWord order data offset (calculateChecksum order data)))
  rw [wordValues_storeWord order hoffset hzero, calculateChecksum_toNat order heven hlength] at hstored
  apply UInt16.toNat_inj.mp
  rw [calculateChecksum_toNat order heven' hlength', hstored.unique hdata.add_complement]
  rfl

/-- The machine computes `calculate_checksum` on a buffer as on numbers: neither loop overflows, and
the second one ends. -/
structure ChecksumExact (order : ByteOrder) (data : List UInt8) : Prop where
  accumulates : ∀ front back, data = front ++ back → front.length % 2 = 0 →
    sumWords order data 0 = sumWords order back (sumWords order front 0) ∧
      (sumWords order front 0).toNat = (wordValues order front).sum
  carries : ∀ sum, (foldCarry sum).toNat = endAround 16 sum.toNat
  ends : iterate foldStep 3 (sumWords order data 0) = some (foldLoop.run (sumWords order data 0))

/-- The checksum is exact for every message below 128 KiB. -/
theorem checksumExact (order : ByteOrder) {data : List UInt8} (hlength : data.length < 2 ^ 17) :
    ChecksumExact order data where
  accumulates := by
    intro front back hdata heven
    have hfront : front.length < 2 ^ 17 := by
      rw [hdata, List.length_append] at hlength
      omega
    constructor
    · rw [hdata, sumWords_append order front back heven]
    · have hsum := sumWords_toNat order heven 0 (by simpa using sum_wordValues_lt order hfront)
      simpa using hsum
  carries := foldCarry_toNat
  ends := iterate_foldStep _

/-- The ICMP checksum is the Internet checksum. -/
theorem icmp_checksum (order : ByteOrder) (data : List UInt8) (heven : data.length % 2 = 0)
    (hlength : data.length < 2 ^ 17) (offset : ℕ) (hoffset : offset % 2 = 0)
    (hzero : wordAt order data offset = some 0) :
    calculateChecksum order (storeWord order data offset (calculateChecksum order data)) = 0 ∧
      ChecksumExact order data ∧
      ChecksumExact order (storeWord order data offset (calculateChecksum order data)) ∧
      (calculateChecksum order data).toNat = 2 ^ 16 - 1 - onesSum 16 (wordValues order data) ∧
      (calculateChecksum order data).toNat + (wordValues order data).sum ≡ 0 [MOD 65535] := by
  have hstored := length_storeWord order data offset (calculateChecksum order data)
  refine ⟨calculateChecksum_storeWord order data heven hlength offset hoffset hzero, checksumExact order hlength,
    checksumExact order (by rwa [hstored]), calculateChecksum_toNat order heven hlength, ?_⟩
  have hsum := isOnesSum_onesSum _ (wordValues_lt order data)
  have hall : (wordValues order data).sum + (2 ^ 16 - 1 - onesSum 16 (wordValues order data)) ≡
      2 ^ 16 - 1 [MOD 2 ^ 16 - 1] := hsum.add_complement.congr.symm
  rw [calculateChecksum_toNat order heven hlength, Nat.add_comm]
  exact hall.trans (Nat.modEq_zero_iff_dvd.mpr (dvd_refl _))

/-- The checksum of an echo request. -/
theorem icmp_checksum_echo :
    calculateChecksum .little (storeWord .little [8, 0, 0, 0, 0x34, 0x12, 1, 0] 2
      (calculateChecksum .little [8, 0, 0, 0, 0x34, 0x12, 1, 0])) = 0 :=
  (icmp_checksum .little [8, 0, 0, 0, 0x34, 0x12, 1, 0] rfl (by decide) 2 rfl rfl).1

/-- `IcmpHeader`. -/
structure IcmpHeader where
  type : UInt8
  code : UInt8
  checksum : UInt16
  identifier : UInt16
  sequence : UInt16

/-- The packed header in memory. -/
def IcmpHeader.bytes (order : ByteOrder) (header : IcmpHeader) : List UInt8 :=
  [header.type, header.code, (order.bytes header.checksum).1, (order.bytes header.checksum).2,
    (order.bytes header.identifier).1, (order.bytes header.identifier).2,
    (order.bytes header.sequence).1, (order.bytes header.sequence).2]

/-- The header that `Icmp::ping` sends, for the process that runs it. -/
def echoRequest (order : ByteOrder) (pid : ℕ) : IcmpHeader :=
  let header : IcmpHeader := { type := 8, code := 0, checksum := 0, identifier := pid.toUInt16, sequence := 1 }
  { header with checksum := calculateChecksum order (header.bytes order) }

/-- Whoever receives the request finds its checksum right. -/
theorem echoRequest_verifies (order : ByteOrder) (pid : ℕ) :
    calculateChecksum order ((echoRequest order pid).bytes order) = 0 := by
  let header : IcmpHeader := { type := 8, code := 0, checksum := 0, identifier := pid.toUInt16, sequence := 1 }
  have hzero : wordAt order (header.bytes order) 2 = some 0 := by
    have hword := order.word_bytes 0
    simp [wordAt, IcmpHeader.bytes, header, hword]
  have heven : (header.bytes order).length % 2 = 0 := by simp [IcmpHeader.bytes]
  exact calculateChecksum_storeWord order (header.bytes order) heven (by simp [IcmpHeader.bytes]) 2 rfl hzero

end ZeroTrust
