import ZeroTrust.Lib.BigEndian
import ZeroTrust.Scan.TerrapinBounds

/-!
# SSH packets

What `frame_ssh_packet` writes is laid out like a packet of the binary packet protocol, except that the
padding aligns the wrong bytes. What `parse_kexinit` reads of a framed KEXINIT message, behind lines that come
before it, are the lists that were written.
-/

namespace ZeroTrust

/-- A byte behind a known part of the input. -/
theorem byteAt_append {xs ys : Bytes} {i : ℕ} {c : Byte} (h : ys[i]? = some c) :
    byteAt (xs ++ ys) (xs.length + i) = some c := by
  have hi : i < ys.length := (List.getElem?_eq_some_iff.mp h).1
  rw [byteAt, if_neg, List.getElem?_append_right (Nat.le_add_right _ _), Nat.add_sub_cancel_left, h]
  rw [List.length_append]
  omega

/-- A number behind a known part of the input. -/
theorem readUint32_append (xs : Bytes) (v : UInt32) (ys : Bytes) :
    readUint32 (xs ++ (encodeUint32 v ++ ys)) xs.length = some v := by
  have h₀ : byteAt (xs ++ (encodeUint32 v ++ ys)) xs.length = some (v >>> 24).toUInt8 := @byteAt_append _ _ 0 _ rfl
  have h₁ : byteAt (xs ++ (encodeUint32 v ++ ys)) (xs.length + 1) = some (v >>> 16).toUInt8 := byteAt_append rfl
  have h₂ : byteAt (xs ++ (encodeUint32 v ++ ys)) (xs.length + 2) = some (v >>> 8).toUInt8 := byteAt_append rfl
  have h₃ : byteAt (xs ++ (encodeUint32 v ++ ys)) (xs.length + 3) = some v.toUInt8 := byteAt_append rfl
  rw [readUint32, h₀, h₁, h₂, h₃]
  exact congrArg some (uint32_of_bytes v)

/-- Four bytes. -/
theorem length_encodeUint32 (v : UInt32) : (encodeUint32 v).length = 4 := rfl

/-- The padding has at least the minimal length, and the padded payload with its padding length is aligned. -/
theorem padLength_spec (payloadLength : ℕ) :
    4 ≤ padLength payloadLength ∧ padLength payloadLength ≤ 11 ∧
      (1 + payloadLength + padLength payloadLength) % 8 = 0 := by
  unfold padLength
  dsimp only
  split <;> omega

/-- The packet length that `frame_ssh_packet` computes, before it is cut to 32 bits. -/
def packetLength (payload : Bytes) : ℕ := 1 + payload.length + padLength payload.length

/-- A packet has its length field and the bytes that it counts. -/
theorem length_frameSshPacket (payload : Bytes) : (frameSshPacket payload).length = 4 + packetLength payload := by
  simp [frameSshPacket, packetLength, encodeUint32]
  omega

/-- A frame starts with its length. -/
theorem frameSshPacket_eq (payload : Bytes) :
    frameSshPacket payload = encodeUint32 (packetLength payload).toUInt32 ++
      ((padLength payload.length).toUInt8 :: (payload ++ List.replicate (padLength payload.length) 0)) := by
  rw [frameSshPacket, packetLength, List.append_assoc, List.cons_append]

/-- The layout of a packet around a payload. -/
structure FramesPayload (payload packet : Bytes) : Prop where
  layout : ∃ (length : UInt32) (padding : Bytes),
    packet = encodeUint32 length ++ padding.length.toUInt8 :: (payload ++ padding) ∧
      length.toNat = packet.length - 4 ∧ 4 ≤ padding.length ∧ padding.length ≤ 255

/-- A packet of the binary packet protocol: with its length, it fills blocks of eight bytes. -/
structure LegalPacket (payload packet : Bytes) : Prop extends FramesPayload payload packet where
  aligned : packet.length % 8 = 0

/-- A payload that fits is framed. -/
theorem framesPayload_frameSshPacket {payload : Bytes} (h : 1 + payload.length + 19 < 2 ^ 32) :
    FramesPayload payload (frameSshPacket payload) := by
  obtain ⟨hmin, hmax, -⟩ := padLength_spec payload.length
  refine ⟨(packetLength payload).toUInt32, List.replicate (padLength payload.length) 0, ?_, ?_, ?_, ?_⟩
  · rw [List.length_replicate]
    exact frameSshPacket_eq payload
  · rw [length_frameSshPacket, Nat.add_sub_cancel_left]
    apply UInt32.toNat_ofNat_of_lt'
    change packetLength payload < 2 ^ 32
    unfold packetLength
    omega
  · rw [List.length_replicate]
    exact hmin
  · rw [List.length_replicate]
    omega

/-- The four bytes of the length itself are left out of the alignment. -/
theorem length_frameSshPacket_mod (payload : Bytes) : (frameSshPacket payload).length % 8 = 4 := by
  obtain ⟨-, -, hmod⟩ := padLength_spec payload.length
  rw [length_frameSshPacket, packetLength]
  omega

/-- A framed payload is laid out as it should be, but the packet never fills its blocks: it has four bytes too
many. -/
theorem frameSshPacket_misaligned (payload : Bytes) (h : 1 + payload.length + 19 < 2 ^ 32) :
    FramesPayload payload (frameSshPacket payload) ∧ (frameSshPacket payload).length % 8 = 4 ∧
      ¬LegalPacket payload (frameSshPacket payload) := by
  have hmod := length_frameSshPacket_mod payload
  refine ⟨framesPayload_frameSshPacket h, hmod, fun hlegal => ?_⟩
  rw [hlegal.aligned] at hmod
  exact absurd hmod (by decide)

/-- The packet of the scanner. -/
theorem frameSshPacket_misaligned_kexinit :
    1 + buildKexinitPayload.length + 19 < 2 ^ 32 ∧
      ¬LegalPacket buildKexinitPayload (frameSshPacket buildKexinitPayload) :=
  ⟨by decide +kernel, (frameSshPacket_misaligned buildKexinitPayload (by decide +kernel)).2.2⟩

/-- The KEXINIT packet that the check sends is no legal packet. -/
theorem kexinit_packet_illegal :
    ¬∀ payload : Bytes, 1 + payload.length + 19 < 2 ^ 32 → LegalPacket payload (frameSshPacket payload) := by
  intro h
  have haligned := (h buildKexinitPayload (by decide +kernel)).aligned
  exact absurd haligned (by decide +kernel)

/-- The names of a list: none is empty, and none contains a comma. -/
structure NameList where
  names : List Bytes
  nonempty : ∀ name ∈ names, name ≠ []
  no_comma : ∀ name ∈ names, 44 ∉ name

/-- The names, joined by commas. -/
def NameList.text (list : NameList) : Bytes := [44].intercalate list.names

/-- What a KEXINIT message says. -/
structure KexinitMessage where
  cookie : Bytes
  cookie_length : cookie.length = 16
  lists : Fin 10 → NameList
  firstPacketFollows : Byte
  reserved : UInt32

/-- The payload of a message, written as the scanner writes its own. -/
def KexinitMessage.payload (message : KexinitMessage) : Bytes :=
  (List.ofFn fun i => (message.lists i).text).foldl appendNameList (20 :: message.cookie) ++
    message.firstPacketFollows :: encodeUint32 message.reserved

/-- A list with its length before it. -/
def encodeNameList (list : Bytes) : Bytes := encodeUint32 list.length.toUInt32 ++ list

/-- Lists are written one after the other. -/
theorem foldl_appendNameList (lists : List Bytes) (out : Bytes) :
    lists.foldl appendNameList out = out ++ lists.flatMap encodeNameList := by
  induction lists generalizing out with
  | nil => simp
  | cons list lists ih =>
    rw [List.foldl_cons, ih, appendNameList, List.flatMap_cons, encodeNameList, List.append_assoc, List.append_assoc,
      List.append_assoc]

/-- Joined names are split again. -/
theorem splitNames_text (list : NameList) : splitNames list.text = list.names := by
  obtain ⟨names, hnonempty, hcomma⟩ := list
  unfold splitNames NameList.text
  have hlines : getlines 44 ([44].intercalate names) = names := by
    induction names with
    | nil => rfl
    | cons name rest ih =>
      obtain ⟨hne, hnonempty⟩ := List.forall_mem_cons.mp hnonempty
      obtain ⟨hname, hcomma⟩ := List.forall_mem_cons.mp hcomma
      cases rest with
      | nil => rw [List.intercalate_singleton, getlines_of_not_mem hname hne]
      | cons next rest =>
        rw [List.intercalate_cons_cons, List.append_assoc, List.singleton_append, getlines_append_cons hname,
          ih hnonempty hcomma]
  dsimp only
  rw [hlines, List.filter_eq_self]
  intro name hname
  exact decide_eq_true (hnonempty name hname)

/-- A list that was written is read, and the position is behind it. -/
theorem readNameList_append (xs list ys : Bytes) {limit : ℕ} (hlist : list.length < 2 ^ 32)
    (hlimit : xs.length + (encodeNameList list).length ≤ limit) :
    readNameList (xs ++ (encodeNameList list ++ ys)) xs.length limit =
      some (some (splitNames list, (xs ++ encodeNameList list).length)) := by
  have hlength : (encodeNameList list).length = 4 + list.length := by
    rw [encodeNameList, List.length_append, length_encodeUint32]
  have hread : readUint32 (xs ++ (encodeNameList list ++ ys)) xs.length = some list.length.toUInt32 := by
    rw [encodeNameList, List.append_assoc]
    exact readUint32_append xs _ (list ++ ys)
  have hnat : list.length.toUInt32.toNat = list.length := UInt32.toNat_ofNat_of_lt' hlist
  have hrange : rangeAt (xs ++ (encodeNameList list ++ ys)) (xs.length + 4) list.length = some list := by
    have hsplit : xs ++ (encodeNameList list ++ ys) ++ [0] =
        (xs ++ encodeUint32 list.length.toUInt32) ++ (list ++ (ys ++ [0])) := by
      simp only [encodeNameList, List.append_assoc]
    rw [rangeAt, if_pos (by simp only [List.length_append, hlength]; omega), hsplit,
      List.drop_left' (by rw [List.length_append, length_encodeUint32]), List.take_left]
  rw [readNameList, if_neg (by omega), hread]
  change (if xs.length + 4 + list.length.toUInt32.toNat > limit then _ else _) = _
  rw [hnat, if_neg (by omega), hrange, List.length_append, hlength, ← Nat.add_assoc]
  rfl

/-- So are successive lists. -/
theorem readNameLists_append (lists : List Bytes) (n : ℕ) (xs ys : Bytes) {limit : ℕ}
    (hlists : ∀ list ∈ lists, list.length < 2 ^ 32) (hn : n ≤ lists.length)
    (hlimit : xs.length + (lists.flatMap encodeNameList).length ≤ limit) :
    readNameLists (xs ++ (lists.flatMap encodeNameList ++ ys)) limit n xs.length =
      some (some ((lists.take n).map splitNames)) := by
  induction n generalizing lists xs with
  | zero => rfl
  | succ n ih =>
    cases lists with
    | nil => cases hn
    | cons list lists =>
      obtain ⟨hlist, hlists⟩ := List.forall_mem_cons.mp hlists
      rw [List.flatMap_cons, List.length_append] at hlimit
      rw [List.flatMap_cons, List.append_assoc, readNameLists,
        readNameList_append xs list _ hlist (by omega), ← List.append_assoc xs]
      change (readNameLists _ limit n _ >>= _) = _
      rw [ih lists (xs ++ encodeNameList list) hlists (Nat.le_of_succ_le_succ hn)
        (by rw [List.length_append]; omega)]
      rfl

/-- The parts of a payload. -/
theorem KexinitMessage.payload_eq (message : KexinitMessage) :
    message.payload = 20 :: message.cookie ++ ((List.ofFn fun i => (message.lists i).text).flatMap encodeNameList ++
      message.firstPacketFollows :: encodeUint32 message.reserved) := by
  rw [KexinitMessage.payload, foldl_appendNameList, List.append_assoc]

/-- The lists of a framed message are read. -/
theorem parseKexinit_frameSshPacket (message : KexinitMessage) (trailing : Bytes)
    (h : packetLength message.payload < 65536) :
    parseKexinit (frameSshPacket message.payload ++ trailing) =
      some (some ⟨(message.lists 0).names, (message.lists 3).names, (message.lists 5).names⟩) := by
  obtain ⟨hmin, hmax, -⟩ := padLength_spec message.payload.length
  obtain ⟨raw, hraw⟩ : ∃ raw, raw = frameSshPacket message.payload ++ trailing := ⟨_, rfl⟩
  have hlength : raw.length = 4 + packetLength message.payload + trailing.length := by
    rw [hraw, List.length_append, length_frameSshPacket]
  have hpayload := message.payload_eq
  have hsize := congrArg List.length hpayload
  simp only [List.length_append, List.length_cons, length_encodeUint32, message.cookie_length] at hsize
  have hpacket : packetLength message.payload = 1 + message.payload.length + padLength message.payload.length := rfl
  -- The header is followed by the lists.
  have hparts : raw = (encodeUint32 (packetLength message.payload).toUInt32 ++
      (padLength message.payload.length).toUInt8 :: 20 :: message.cookie) ++
        ((List.ofFn fun i => (message.lists i).text).flatMap encodeNameList ++
          (message.firstPacketFollows :: encodeUint32 message.reserved ++
            (List.replicate (padLength message.payload.length) 0 ++ trailing))) := by
    rw [hraw, frameSshPacket_eq, List.append_assoc, List.cons_append, List.append_assoc, hpayload]
    simp only [List.append_assoc, List.cons_append]
  have hhead : (encodeUint32 (packetLength message.payload).toUInt32 ++
      (padLength message.payload.length).toUInt8 :: 20 :: message.cookie).length = 22 := by
    simp only [List.length_append, List.length_cons, length_encodeUint32, message.cookie_length]
  have hshort : ∀ list ∈ List.ofFn fun i => (message.lists i).text, list.length < 2 ^ 32 := by
    intro list hlist
    have hsub : (encodeNameList list).Sublist ((List.ofFn fun i => (message.lists i).text).flatMap encodeNameList) :=
      List.sublist_flatten_of_mem (List.mem_map_of_mem hlist)
    have hle := hsub.length_le
    rw [encodeNameList, List.length_append] at hle
    omega
  have hlists := @readNameLists_append (List.ofFn fun i => (message.lists i).text) 6 _
    (message.firstPacketFollows :: encodeUint32 message.reserved ++
      (List.replicate (padLength message.payload.length) 0 ++ trailing)) (5 + message.payload.length)
    hshort (by simp) (by rw [hhead]; omega)
  rw [hhead, ← hparts] at hlists
  -- The header is read.
  have hread : readUint32 raw 0 = some (packetLength message.payload).toUInt32 := by
    rw [hparts, List.append_assoc]
    exact readUint32_append [] _ _
  have hpad : byteAt raw 4 = some (padLength message.payload.length).toUInt8 := by
    rw [hparts, List.append_assoc]
    exact @byteAt_append (encodeUint32 _) _ 0 _ rfl
  have htype : byteAt raw 5 = some 20 := by
    rw [hparts, List.append_assoc]
    exact @byteAt_append (encodeUint32 _) _ 1 _ rfl
  have hnat : (packetLength message.payload).toUInt32.toNat = packetLength message.payload :=
    UInt32.toNat_ofNat_of_lt' (h.trans (by decide))
  have hpadNat : (padLength message.payload.length).toUInt8.toUInt32.toNat = padLength message.payload.length := by
    rw [UInt8.toNat_toUInt32]
    exact UInt8.toNat_ofNat_of_lt' (Nat.lt_of_le_of_lt hmax (by decide))
  have htotal : (4 + (packetLength message.payload).toUInt32).toNat = 4 + packetLength message.payload := by
    rw [UInt32.toNat_add, hnat]
    apply Nat.mod_eq_of_lt
    change 4 + packetLength message.payload < 2 ^ 32
    omega
  have hend : (4 + (packetLength message.payload).toUInt32 -
      (padLength message.payload.length).toUInt8.toUInt32).toNat = 5 + message.payload.length := by
    rw [UInt32.toNat_sub_of_le _ _ (by rw [UInt32.le_iff_toNat_le, htotal, hpadNat]; omega), htotal, hpadNat]
    omega
  rw [← hraw, parseKexinit, if_neg (by omega), hread, hpad]
  simp only [Option.bind_eq_bind, Option.bind_some]
  rw [htotal, hend, if_neg (by omega), if_neg (by omega), htype, Option.bind_some, if_neg (not_not.mpr rfl), hlists]
  simp only [Option.bind_some, List.ofFn_succ, List.take_succ_cons, List.take_zero, List.map_cons, List.map_nil,
    splitNames_text]
  rfl

/-- A line that comes before the packet: it does not start with a zero byte. -/
structure PreLine where
  text : Bytes
  no_newline : 10 ∉ text
  nonzero : text.head? ≠ some 0

/-- The line with its end. -/
def PreLine.bytes (line : PreLine) : Bytes := line.text ++ [10]

/-- What a round of `strip_pre_kexinit_lines` does. -/
theorem exists_stripLoop (raw : Bytes) : ∃ loop : Loop ℕ Bytes, stripPreKexinitLines raw = loop.run 0 ∧
    ∀ pos, loop.step pos =
      if pos ≥ raw.length then .inr raw
      else if kexinitStarts raw pos then .inr (raw.drop pos)
      else match findByte 10 (raw.drop pos) with
        | none => .inr raw
        | some newline => .inl (pos + newline + 1) := ⟨_, rfl, fun _ => rfl⟩

/-- A number whose first byte is not zero is large. -/
theorem le_readUint32 {raw : Bytes} {pos : ℕ} {c : Byte} {v : UInt32} (hc : byteAt raw pos = some c) (hne : c ≠ 0)
    (hv : readUint32 raw pos = some v) : 2 ^ 24 ≤ v.toNat := by
  rw [readUint32, hc] at hv
  change (byteAt raw (pos + 1) >>= _) = some v at hv
  obtain ⟨b₁, -, hv⟩ := Option.bind_eq_some_iff.mp hv
  obtain ⟨b₂, -, hv⟩ := Option.bind_eq_some_iff.mp hv
  obtain ⟨b₃, -, hv⟩ := Option.bind_eq_some_iff.mp hv
  rw [← Option.some.inj hv]
  simp only [UInt32.toNat_or]
  apply le_trans _ Nat.left_le_or
  apply le_trans _ Nat.left_le_or
  apply le_trans _ Nat.left_le_or
  have hpos : c.toNat ≠ 0 := fun h => hne (UInt8.toNat_inj.mp h)
  have hlt := c.toNat_lt
  simp only [UInt32.toNat_shiftLeft, UInt8.toNat_toUInt32, Nat.shiftLeft_eq, UInt32.toNat_ofNat, Nat.reduceMod,
    Nat.reducePow]
  omega

/-- No packet starts where a line does. -/
theorem kexinitStarts_of_ne_zero {raw : Bytes} {pos : ℕ} {c : Byte} (hc : byteAt raw pos = some c) (hne : c ≠ 0) :
    kexinitStarts raw pos = false := by
  unfold kexinitStarts
  cases hv : readUint32 raw pos with
  | none => rfl
  | some v =>
    have hle := le_readUint32 hc hne hv
    have hnot : decide (v.toNat < 65536) = false := decide_eq_false (by omega)
    simp [hnot]

/-- A framed message is recognised. -/
theorem kexinitStarts_frameSshPacket (xs : Bytes) (message : KexinitMessage) (trailing : Bytes)
    (h : packetLength message.payload < 65536) :
    kexinitStarts (xs ++ (frameSshPacket message.payload ++ trailing)) xs.length = true := by
  have hnat : (packetLength message.payload).toUInt32.toNat = packetLength message.payload :=
    UInt32.toNat_ofNat_of_lt' (h.trans (by decide))
  have hpos : 0 < packetLength message.payload := by
    unfold packetLength
    omega
  have hread : readUint32 (xs ++ (frameSshPacket message.payload ++ trailing)) xs.length =
      some (packetLength message.payload).toUInt32 := by
    rw [frameSshPacket_eq, List.append_assoc]
    exact readUint32_append xs _ _
  have htype : (xs ++ (frameSshPacket message.payload ++ trailing))[xs.length + 5]? = some 20 := by
    rw [List.getElem?_append_right (Nat.le_add_right _ _), Nat.add_sub_cancel_left, frameSshPacket_eq,
      message.payload_eq]
    rfl
  have hlength : (frameSshPacket message.payload).length = 4 + packetLength message.payload :=
    length_frameSshPacket message.payload
  have hend := (List.getElem?_eq_some_iff.mp htype).1
  unfold kexinitStarts
  rw [hread]
  simp only [hnat, htype, Bool.and_eq_true, decide_eq_true_eq, List.length_append, hlength]
  rw [List.length_append, List.length_append, hlength] at hend
  refine ⟨⟨⟨⟨⟨by omega, hpos⟩, h⟩, by omega⟩, hend⟩, by decide⟩

/-- Lines before a framed message are taken off, and its lists are read. -/
theorem kexinit_round_trip (message : KexinitMessage) (lines : List PreLine) (trailing : Bytes)
    (h : packetLength message.payload < 65536) :
    stripPreKexinitLines (lines.flatMap PreLine.bytes ++ (frameSshPacket message.payload ++ trailing)) =
        frameSshPacket message.payload ++ trailing ∧
      parseKexinit (frameSshPacket message.payload ++ trailing) =
        some (some ⟨(message.lists 0).names, (message.lists 3).names, (message.lists 5).names⟩) := by
  refine ⟨?_, parseKexinit_frameSshPacket message trailing h⟩
  obtain ⟨loop, hrun, hstep⟩ :=
    exists_stripLoop (lines.flatMap PreLine.bytes ++ (frameSshPacket message.payload ++ trailing))
  -- The scanner has passed some lines and looks at the next one.
  have hscan : ∀ (rest : List PreLine) (done : Bytes),
      done ++ (rest.flatMap PreLine.bytes ++ (frameSshPacket message.payload ++ trailing)) =
        lines.flatMap PreLine.bytes ++ (frameSshPacket message.payload ++ trailing) →
      loop.run done.length = frameSshPacket message.payload ++ trailing := by
    intro rest
    induction rest with
    | nil =>
      intro done hdone
      have hstarts := kexinitStarts_frameSshPacket done message trailing h
      apply loop.run_of_exit
      rw [hstep, ← hdone, List.flatMap_nil, List.nil_append, if_neg, if_pos hstarts, List.drop_left]
      rw [List.length_append, List.length_append, length_frameSshPacket]
      omega
    | cons line rest ih =>
      intro done hdone
      have hbyte : ∃ c : Byte, c ≠ 0 ∧ line.bytes[0]? = some c := by
        cases htext : line.text with
        | nil => exact ⟨10, by decide, by rw [PreLine.bytes, htext]; rfl⟩
        | cons c text =>
          refine ⟨c, fun hc => line.nonzero ?_, by rw [PreLine.bytes, htext]; rfl⟩
          rw [htext, hc]
          rfl
      obtain ⟨c, hne, hc⟩ := hbyte
      rw [List.flatMap_cons, List.append_assoc] at hdone
      have hnext := ih (done ++ line.bytes) (by rw [List.append_assoc, hdone])
      have hcbyte : byteAt (lines.flatMap PreLine.bytes ++ (frameSshPacket message.payload ++ trailing)) done.length =
          some c := by
        rw [← hdone]
        apply @byteAt_append _ _ 0
        rw [List.getElem?_append_left (List.getElem?_eq_some_iff.mp hc).1, hc]
      have hline : findByte 10 ((lines.flatMap PreLine.bytes ++ (frameSshPacket message.payload ++ trailing)).drop
          done.length) = some line.text.length := by
        rw [← hdone, List.drop_left, PreLine.bytes, List.append_assoc, List.singleton_append]
        exact findByte_append_cons line.no_newline _
      have hmore : done.length <
          (lines.flatMap PreLine.bytes ++ (frameSshPacket message.payload ++ trailing)).length := by
        rw [← hdone, List.length_append, List.length_append]
        have := (List.getElem?_eq_some_iff.mp hc).1
        omega
      rw [← hnext, List.length_append, PreLine.bytes, List.length_append, List.length_singleton]
      apply loop.run_of_continue
      have hstart := kexinitStarts_of_ne_zero hcbyte hne
      rw [hstep, if_neg (Nat.not_le.mpr hmore), if_neg (by rw [hstart]; exact Bool.false_ne_true), hline,
        ← Nat.add_assoc]
  rw [hrun]
  exact hscan lines [] rfl

/-- A message with one algorithm in each list. -/
def plainKexinit : KexinitMessage where
  cookie := List.replicate 16 0
  cookie_length := rfl
  lists _ := ⟨[str "none"], by decide, by decide⟩
  firstPacketFollows := 0
  reserved := 0

/-- The message behind a line, and before another one. -/
theorem kexinit_round_trip_plain :
    packetLength plainKexinit.payload < 65536 ∧
      stripPreKexinitLines ([(⟨str "Welcome", by decide, by decide⟩ : PreLine)].flatMap PreLine.bytes ++
        (frameSshPacket plainKexinit.payload ++ str "more")) = frameSshPacket plainKexinit.payload ++ str "more" ∧
      parseKexinit (frameSshPacket plainKexinit.payload ++ str "more") =
        some (some ⟨[str "none"], [str "none"], [str "none"]⟩) :=
  ⟨by decide +kernel, kexinit_round_trip plainKexinit _ _ (by decide +kernel)⟩

end ZeroTrust
