import ZeroTrust.Scan.Terrapin
import ZeroTrust.Core.ByteRange

/-!
# What the KEXINIT reader touches

Every byte and every range that `parse_kexinit` and `read_name_list` read of their input. The bound that
the lists are checked against is computed from the packet, in 32 bits, and need not lie in the input.
-/

namespace ZeroTrust

/-- Four bytes of a number, one by one. -/
def uint32Reads (pos : ℕ) : List ByteRange := [(pos, 1), (pos + 1, 1), (pos + 2, 1), (pos + 3, 1)]

/-- What `read_name_list` reads. -/
def nameListReads (raw : Bytes) (pos limit : ℕ) : List ByteRange :=
  if pos + 4 > limit then []
  else uint32Reads pos ++
    match readUint32 raw pos with
    | none => []
    | some listLen => if pos + 4 + listLen.toNat > limit then [] else [(pos + 4, listLen.toNat)]

/-- What successive calls of `read_name_list` read. -/
def nameListsReads (raw : Bytes) (limit : ℕ) : ℕ → ℕ → List ByteRange
  | 0, _ => []
  | n + 1, pos =>
    nameListReads raw pos limit ++
      match readNameList raw pos limit with
      | some (some (_, pos)) => nameListsReads raw limit n pos
      | _ => []

/-- What `parse_kexinit` reads. -/
def parseKexinitReads (raw : Bytes) : List ByteRange :=
  if raw.length < 6 then []
  else uint32Reads 0 ++ (4, 1) ::
    match readUint32 raw 0, byteAt raw 4 with
    | some packetLength, some padLen =>
      if raw.length < (4 + packetLength).toNat then []
      else
        let payloadEnd := (4 + packetLength - padLen.toUInt32).toNat
        if 5 ≥ payloadEnd then []
        else (5, 1) :: if byteAt raw 5 ≠ some 20 then [] else nameListsReads raw payloadEnd 6 (5 + 17)
    | _, _ => []

/-- Nothing outside of the input is read. -/
def ReadsInside (raw : Bytes) : Prop := ∀ range ∈ parseKexinitReads raw, range.Inside raw

/-- The lists that are announced lie in the input, as far as the limit lets them be read. -/
def ListsInside (raw : Bytes) (limit : ℕ) : ℕ → ℕ → Prop
  | 0, _ => True
  | n + 1, pos => pos + 4 ≤ limit → pos + 4 ≤ raw.length ∧
    ∀ listLen ∈ readUint32 raw pos, pos + 4 + listLen.toNat ≤ limit →
      pos + 4 + listLen.toNat ≤ raw.length ∧ ListsInside raw limit n (pos + 4 + listLen.toNat)

variable {raw : Bytes} {pos limit : ℕ}

/-- The four bytes of a number are inside when the last one is. -/
theorem uint32Reads_inside : (∀ range ∈ uint32Reads pos, range.Inside raw) ↔ pos + 4 ≤ raw.length := by
  simp only [uint32Reads, List.forall_mem_cons, ByteRange.Inside, Nat.lt_one_iff, forall_eq, List.not_mem_nil,
    IsEmpty.forall_iff, implies_true, and_true]
  omega

/-- Four bytes of the input make a number. -/
theorem exists_readUint32 (h : pos + 4 ≤ raw.length) : ∃ v, readUint32 raw pos = some v := by
  have hbyte : ∀ i < raw.length, ∃ b, byteAt raw i = some b := fun i hi => by
    unfold byteAt
    rw [if_neg (by omega)]
    exact ⟨raw[i], List.getElem?_eq_getElem hi⟩
  obtain ⟨a, ha⟩ := hbyte pos (by omega)
  obtain ⟨b, hb⟩ := hbyte (pos + 1) (by omega)
  obtain ⟨c, hc⟩ := hbyte (pos + 2) (by omega)
  obtain ⟨d, hd⟩ := hbyte (pos + 3) (by omega)
  exact ⟨_, by rw [readUint32, ha, hb, hc, hd]; rfl⟩

/-- A range of the input can be copied. -/
theorem exists_rangeAt {n : ℕ} (h : pos + n ≤ raw.length) : ∃ list, rangeAt raw pos n = some list :=
  ⟨_, if_pos (h.trans (Nat.le_succ _))⟩

/-- Past the limit nothing is read. -/
theorem nameListReads_of_limit_lt (h : limit < pos + 4) : nameListReads raw pos limit = [] := if_pos h

/-- A list that is announced to go past the limit ends the reading. -/
theorem readNameList_of_limit_lt {listLen : UInt32} (hlimit : pos + 4 ≤ limit)
    (hlen : readUint32 raw pos = some listLen) (hlong : limit < pos + 4 + listLen.toNat) :
    nameListReads raw pos limit = uint32Reads pos ∧ readNameList raw pos limit = some none := by
  constructor
  · rw [nameListReads, if_neg (Nat.not_lt.mpr hlimit), hlen]
    simp only [if_pos hlong, List.append_nil]
  · rw [readNameList, if_neg (Nat.not_lt.mpr hlimit), hlen]
    exact if_pos hlong

/-- A list within the limit is read as a whole. -/
theorem nameListReads_of_le {listLen : UInt32} (hlimit : pos + 4 ≤ limit)
    (hlen : readUint32 raw pos = some listLen) (hfits : pos + 4 + listLen.toNat ≤ limit) :
    nameListReads raw pos limit = uint32Reads pos ++ [(pos + 4, listLen.toNat)] := by
  rw [nameListReads, if_neg (Nat.not_lt.mpr hlimit), hlen]
  simp only [if_neg (Nat.not_lt.mpr hfits)]

/-- A list within the limit and the input is followed by the next one. -/
theorem readNameList_of_le {listLen : UInt32} (hlimit : pos + 4 ≤ limit)
    (hlen : readUint32 raw pos = some listLen) (hfits : pos + 4 + listLen.toNat ≤ limit)
    (hraw : pos + 4 + listLen.toNat ≤ raw.length) :
    ∃ names, readNameList raw pos limit = some (some (names, pos + 4 + listLen.toNat)) := by
  obtain ⟨list, hlist⟩ := exists_rangeAt hraw
  use splitNames list
  rw [readNameList, if_neg (Nat.not_lt.mpr hlimit), hlen]
  change (if pos + 4 + listLen.toNat > limit then _ else _) = _
  rw [if_neg (Nat.not_lt.mpr hfits), hlist]
  rfl

/-- The lists are read inside of the input when they lie there. -/
theorem nameListsReads_inside (raw : Bytes) (limit n pos : ℕ) :
    (∀ range ∈ nameListsReads raw limit n pos, range.Inside raw) ↔ ListsInside raw limit n pos := by
  induction n generalizing pos with
  | zero => exact iff_of_true nofun trivial
  | succ n ih =>
    rw [nameListsReads, ListsInside, List.forall_mem_append]
    by_cases hlimit : pos + 4 ≤ limit
    · rw [imp_iff_right hlimit]
      by_cases hraw : pos + 4 ≤ raw.length
      · obtain ⟨listLen, hlen⟩ := exists_readUint32 hraw
        simp only [hlen, Option.mem_some_iff, forall_eq', hraw, true_and]
        by_cases hfits : pos + 4 + listLen.toNat ≤ limit
        · rw [imp_iff_right hfits, nameListReads_of_le hlimit hlen hfits, List.forall_mem_append,
            uint32Reads_inside, List.forall_mem_singleton, ByteRange.inside_iff hraw, and_iff_right hraw]
          apply and_congr_right
          intro hend
          obtain ⟨names, hread⟩ := readNameList_of_le hlimit hlen hfits hend
          rw [hread]
          exact ih _
        · obtain ⟨hreads, hread⟩ := readNameList_of_limit_lt hlimit hlen (Nat.lt_of_not_le hfits)
          rw [hreads, hread, uint32Reads_inside]
          exact iff_of_true ⟨hraw, nofun⟩ fun h => absurd h hfits
      · -- The first four bytes already leave the input.
        apply iff_of_false
        · intro h
          apply hraw
          rw [← uint32Reads_inside, ← List.append_nil (uint32Reads pos)]
          intro range hrange
          apply h.1
          rw [nameListReads, if_neg (Nat.not_lt.mpr hlimit)]
          rw [List.append_nil] at hrange
          exact List.mem_append_left _ hrange
        · exact fun h => hraw h.1
    · have hread : readNameList raw pos limit = some none := if_pos (Nat.lt_of_not_le hlimit)
      rw [nameListReads_of_limit_lt (Nat.lt_of_not_le hlimit), hread]
      exact iff_of_true ⟨nofun, nofun⟩ fun h => absurd h hlimit

/-- A limit that lies in the input keeps the lists there. -/
theorem listsInside_of_le (h : limit ≤ raw.length) (n pos : ℕ) : ListsInside raw limit n pos := by
  induction n generalizing pos with
  | zero => trivial
  | succ n ih => exact fun hlimit => ⟨hlimit.trans h, fun listLen _ hfits => ⟨hfits.trans h, ih _⟩⟩

/-- A padding within the packet ends the payload before the packet does. -/
theorem payloadEnd_le {packet padding : UInt32} (h : padding.toNat ≤ packet.toNat) :
    (packet - padding).toNat ≤ packet.toNat := by
  rw [UInt32.toNat_sub_of_le _ _ (UInt32.le_iff_toNat_le.mpr h)]
  exact Nat.sub_le _ _

/-- A padding that is longer than the packet puts the end of the payload close to `2 ^ 32`. -/
theorem five_lt_payloadEnd {packet : UInt32} {padLen : Byte} (h : packet.toNat < padLen.toNat) :
    5 < (packet - padLen.toUInt32).toNat := by
  have hpad := padLen.toNat_lt
  have hpacket := packet.toNat_lt
  rw [UInt32.toNat_sub, UInt8.toNat_toUInt32]
  omega

/-- A packet of six bytes has the bytes of its head. -/
theorem exists_head (h : 6 ≤ raw.length) :
    ∃ packetLength padLen, readUint32 raw 0 = some packetLength ∧ byteAt raw 4 = some padLen := by
  obtain ⟨packetLength, hpacket⟩ := @exists_readUint32 raw 0 (by omega)
  refine ⟨packetLength, raw[4], hpacket, ?_⟩
  rw [byteAt, if_neg (by omega), List.getElem?_eq_getElem]

/-- The head itself is read inside. -/
theorem head_inside (h : 6 ≤ raw.length) (ranges : List ByteRange) :
    (∀ range ∈ uint32Reads 0 ++ (4, 1) :: ranges, range.Inside raw) ↔ ∀ range ∈ ranges, range.Inside raw := by
  rw [List.forall_mem_append, uint32Reads_inside, List.forall_mem_cons, ByteRange.inside_iff (by omega)]
  constructor
  · exact fun hinside => hinside.2.2
  · exact fun hinside => ⟨by omega, by omega, hinside⟩

/-- `parse_kexinit` stays inside of its input exactly if the padding is not longer than the packet it
belongs to, or the packet is of another type, or the six lists happen to lie in the input. -/
theorem parse_kexinit_inside_iff (raw : Bytes) :
    ReadsInside raw ↔
      ∀ packetLength ∈ readUint32 raw 0, ∀ padLen ∈ byteAt raw 4,
        6 ≤ raw.length → (4 + packetLength).toNat ≤ raw.length → (4 + packetLength).toNat < padLen.toNat →
        byteAt raw 5 = some 20 → ListsInside raw (4 + packetLength - padLen.toUInt32).toNat 6 22 := by
  unfold ReadsInside parseKexinitReads
  by_cases hshort : raw.length < 6
  · rw [if_pos hshort]
    exact iff_of_true nofun fun _ _ _ _ h => absurd hshort (Nat.not_lt.mpr h)
  obtain ⟨packetLength, padLen, hpacket, hpad⟩ := exists_head (Nat.not_lt.mp hshort)
  have hlong : 6 ≤ raw.length := Nat.not_lt.mp hshort
  rw [if_neg hshort, hpacket, hpad, head_inside hlong]
  simp only [Option.mem_some_iff, forall_eq', hlong, true_imp_iff]
  by_cases hrejected : raw.length < (4 + packetLength).toNat
  · rw [if_pos hrejected]
    exact iff_of_true nofun fun h => absurd hrejected (Nat.not_lt.mpr h)
  rw [if_neg hrejected, imp_iff_right (Nat.not_lt.mp hrejected)]
  by_cases hwraps : (4 + packetLength).toNat < padLen.toNat
  · -- The subtraction wraps.
    rw [if_neg (Nat.not_le.mpr (five_lt_payloadEnd hwraps)), imp_iff_right hwraps, List.forall_mem_cons,
      ByteRange.inside_iff (by omega), and_iff_right (by omega)]
    by_cases htype : byteAt raw 5 = some 20
    · rw [if_neg (not_not.mpr htype), imp_iff_right htype, nameListsReads_inside]
    · rw [if_pos htype]
      exact iff_of_true nofun fun h => absurd h htype
  · -- The payload ends in the input.
    refine iff_of_true ?_ fun h => absurd h hwraps
    have hend : (4 + packetLength - padLen.toUInt32).toNat ≤ (4 + packetLength).toNat :=
      payloadEnd_le (by rw [UInt8.toNat_toUInt32]; omega)
    split_ifs with hempty htype
    · exact nofun
    · exact List.forall_mem_singleton.mpr ((ByteRange.inside_iff (by omega)).mpr (by omega))
    · exact List.forall_mem_cons.mpr ⟨(ByteRange.inside_iff (by omega)).mpr (by omega),
        (nameListsReads_inside raw _ 6 22).mpr (listsInside_of_le (by omega) 6 22)⟩

/-- A packet of six bytes whose padding is longer than it: the first list is read behind its end. -/
theorem parse_kexinit_leaves_input : ¬ReadsInside [0, 0, 0, 0, 10, 20] := by
  intro h
  have hfirst := h (22, 1) (by decide +kernel)
  exact absurd (hfirst 0 Nat.one_pos) (by decide)

/-- Lists that are read inside of the input have a result. -/
theorem exists_readNameLists {n : ℕ} (h : ListsInside raw limit n pos) :
    ∃ lists, readNameLists raw limit n pos = some lists := by
  induction n generalizing pos with
  | zero => exact ⟨_, rfl⟩
  | succ n ih =>
    rw [readNameLists]
    by_cases hlimit : pos + 4 ≤ limit
    · obtain ⟨hraw, hlists⟩ := h hlimit
      obtain ⟨listLen, hlen⟩ := exists_readUint32 hraw
      by_cases hfits : pos + 4 + listLen.toNat ≤ limit
      · obtain ⟨hend, hrest⟩ := hlists listLen hlen hfits
        obtain ⟨names, hread⟩ := readNameList_of_le hlimit hlen hfits hend
        obtain ⟨lists, hrest⟩ := ih hrest
        rw [hread]
        change ∃ lists, (readNameLists raw limit n (pos + 4 + listLen.toNat) >>= _) = some lists
        rw [hrest]
        exact ⟨_, rfl⟩
      · rw [(readNameList_of_limit_lt hlimit hlen (Nat.lt_of_not_le hfits)).2]
        exact ⟨_, rfl⟩
    · rw [show readNameList raw pos limit = some none from if_pos (Nat.lt_of_not_le hlimit)]
      exact ⟨_, rfl⟩

/-- A reader that stays inside of its input has a result. -/
theorem exists_parseKexinit (h : ReadsInside raw) : ∃ ki, parseKexinit raw = some ki := by
  unfold ReadsInside parseKexinitReads at h
  unfold parseKexinit
  by_cases hshort : raw.length < 6
  · exact ⟨none, if_pos hshort⟩
  obtain ⟨packetLength, padLen, hpacket, hpad⟩ := exists_head (Nat.not_lt.mp hshort)
  rw [if_neg hshort, hpacket, hpad, head_inside (Nat.not_lt.mp hshort)] at h
  rw [if_neg hshort, hpacket, hpad]
  dsimp only [Option.bind_eq_bind, Option.bind_some] at h ⊢
  split_ifs at h ⊢ with hrejected hempty htype
  · exact ⟨none, rfl⟩
  · exact ⟨none, rfl⟩
  · -- The type is read in any case.
    obtain ⟨type, htype⟩ : ∃ type, byteAt raw 5 = some type :=
      ⟨raw[5], by rw [byteAt, if_neg (by omega), List.getElem?_eq_getElem]⟩
    rw [htype, Option.bind_some]
    split_ifs with hother
    · exact ⟨none, rfl⟩
    · exact absurd (htype.trans (congrArg some (not_not.mp hother))) ‹byteAt raw 5 ≠ some 20›
  · obtain ⟨lists, hlists⟩ := exists_readNameLists
      ((nameListsReads_inside raw _ 6 22).mp (List.forall_mem_cons.mp h).2)
    rw [not_not.mp htype, Option.bind_some, if_neg (not_not.mpr rfl), hlists, Option.bind_some]
    split
    · exact ⟨_, rfl⟩
    · exact ⟨_, rfl⟩

end ZeroTrust
