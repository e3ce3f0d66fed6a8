import ZeroTrust.Scan.SshPacket

/-!
# How the answer of an SSH server is cut

The bytes of a server arrive in chunks. What came with the identification line is lost to the Terrapin check,
and what came first behind it is searched for the packet before all of it is there. Where nothing is lost and
nothing is found too early, the verdict is that of the packet, however the rest is cut.
-/

namespace ZeroTrust

section Prefix

variable {raw more : Bytes} {pos : ℕ}

/-- A byte is read from what has arrived. -/
theorem byteAt_before (h : pos < raw.length) : byteAt (raw ++ more) pos = byteAt raw pos := by
  rw [byteAt, byteAt, if_neg (Nat.ne_of_lt h), List.getElem?_append_left h, if_neg]
  rw [List.length_append]
  omega

/-- So is a number. -/
theorem readUint32_before (h : pos + 4 ≤ raw.length) : readUint32 (raw ++ more) pos = readUint32 raw pos := by
  rw [readUint32, readUint32, byteAt_before (by omega), byteAt_before (by omega), byteAt_before (by omega),
    byteAt_before (by omega)]

/-- So is a range. -/
theorem rangeAt_before {n : ℕ} (h : pos + n ≤ raw.length) : rangeAt (raw ++ more) pos n = rangeAt raw pos n := by
  have hinside : ∀ behind : Bytes, ((raw ++ behind).drop pos).take n = (raw.drop pos).take n := by
    intro behind
    rw [List.drop_append_of_le_length (by omega), List.take_append_of_le_length]
    rw [List.length_drop]
    omega
  rw [rangeAt, rangeAt, if_pos (by rw [List.length_append]; omega), if_pos (by omega), List.append_assoc, hinside,
    hinside]

/-- A name-list is read from the bytes before its limit. -/
theorem readNameList_before {limit : ℕ} (h : limit ≤ raw.length) :
    readNameList (raw ++ more) pos limit = readNameList raw pos limit := by
  rw [readNameList, readNameList]
  by_cases hend : pos + 4 > limit
  · rw [if_pos hend, if_pos hend]
  · rw [if_neg hend, if_neg hend, readUint32_before (by omega)]
    apply congrArg
    funext listLen
    dsimp only
    by_cases hlist : pos + 4 + listLen.toNat > limit
    · rw [if_pos hlist, if_pos hlist]
    · rw [if_neg hlist, if_neg hlist, rangeAt_before (by omega)]

/-- So are name lists in front of the limit. -/
theorem readNameLists_before {limit : ℕ} (h : limit ≤ raw.length) (n : ℕ) :
    readNameLists (raw ++ more) limit n pos = readNameLists raw limit n pos := by
  induction n generalizing pos with
  | zero => rfl
  | succ n ih =>
    rw [readNameLists, readNameLists, readNameList_before h]
    apply congrArg
    funext list
    cases list with
    | none => rfl
    | some list => exact congrArg (· >>= _) ih

end Prefix

/-- A complete packet of message type 20. -/
structure KexinitPacket where
  packetLength : UInt32
  padLen : Byte
  fields : Bytes
  padding : Bytes
  padded : padding.length = padLen.toNat
  complete : 2 + fields.length + padding.length = packetLength.toNat
  short : 4 + packetLength.toNat < 2 ^ 32

def KexinitPacket.bytes (packet : KexinitPacket) : Bytes :=
  encodeUint32 packet.packetLength ++ packet.padLen :: 20 :: (packet.fields ++ packet.padding)

section Packet

variable (packet : KexinitPacket)

/-- A packet has its length field and the bytes that it counts. -/
theorem KexinitPacket.length_bytes : packet.bytes.length = 4 + packet.packetLength.toNat := by
  rw [bytes, ← packet.complete]
  simp only [List.length_append, List.length_cons, length_encodeUint32]
  omega

/-- The length field is read back. -/
theorem KexinitPacket.readUint32_bytes : readUint32 packet.bytes 0 = some packet.packetLength :=
  readUint32_append [] packet.packetLength _

/-- The total does not wrap around. -/
theorem KexinitPacket.toNat_total : (4 + packet.packetLength).toNat = packet.bytes.length := by
  rw [UInt32.toNat_add, packet.length_bytes]
  exact Nat.mod_eq_of_lt packet.short

/-- A packet is parsed whatever follows it. -/
theorem parseKexinit_before (more : Bytes) : parseKexinit (packet.bytes ++ more) = parseKexinit packet.bytes := by
  have hlength := packet.length_bytes
  have hcomplete := packet.complete
  have htotal := packet.toNat_total
  have hpad : byteAt packet.bytes 4 = some packet.padLen := rfl
  have hpayload : (4 + packet.packetLength - packet.padLen.toUInt32).toNat ≤ packet.bytes.length := by
    have hpadNat : packet.padLen.toUInt32.toNat = packet.padding.length := by
      rw [packet.padded]
      exact UInt8.toNat_toUInt32 _
    rw [UInt32.toNat_sub_of_le, htotal]
    · exact Nat.sub_le _ _
    · rw [UInt32.le_iff_toNat_le, htotal, hpadNat]
      omega
  have hlonger : packet.bytes.length ≤ (packet.bytes ++ more).length := by
    rw [List.length_append]
    exact Nat.le_add_right _ _
  have hhead : ¬packet.bytes.length < 6 := by omega
  have hhead' : ¬(packet.bytes ++ more).length < 6 := by omega
  have hall : ¬packet.bytes.length < (4 + packet.packetLength).toNat := by omega
  have hall' : ¬(packet.bytes ++ more).length < (4 + packet.packetLength).toNat := by omega
  rw [parseKexinit, parseKexinit, if_neg hhead, if_neg hhead', readUint32_before (by omega), packet.readUint32_bytes,
    byteAt_before (by omega), hpad]
  dsimp only [Option.bind_eq_bind, Option.bind_some]
  rw [if_neg hall, if_neg hall', byteAt_before (by omega), readNameLists_before hpayload]

end Packet

/-- A line that identifies an SSH server. -/
structure IdentificationLine (line : Bytes) : Prop where
  protocol : (str "SSH-").isPrefixOf line = true
  ended : ∃ text, line = text ++ [10] ∧ 10 ∉ text

/-- The stream is received in these chunks, of which the first contains the line. -/
structure CutInto (line stream first : Bytes) (rest : List Bytes) : Prop where
  joined : first ++ rest.flatten = stream
  line : line.isPrefixOf first = true
  first_short : first.length ≤ 4096
  chunks : ∀ chunk ∈ rest, chunk ≠ [] ∧ chunk.length ≤ 4096

/-- A server that takes what is sent and answers in these chunks. -/
def cutServer (first : Bytes) (rest : List Bytes) : SshServer where
  state := .opened
  banner := first
  identified := some true
  offered := some true
  chunks i := rest.getD i []

/-- The chunks that are taken until there are enough bytes, in the order in which they come. -/
def gather (needed : ℕ) : List Bytes → Bytes → List Bytes × Bytes
  | [], buffer => ([], buffer)
  | chunk :: chunks, buffer =>
    if buffer.length ≥ needed then (chunk :: chunks, buffer) else gather needed chunks (buffer ++ chunk)

/-- Nothing is lost, and the buffer is long enough or all there is. -/
theorem gather_spec (needed : ℕ) (chunks : List Bytes) (buffer : Bytes) :
    (gather needed chunks buffer).2 ++ (gather needed chunks buffer).1.flatten = buffer ++ chunks.flatten ∧
      (needed ≤ (gather needed chunks buffer).2.length ∨ (gather needed chunks buffer).1 = []) := by
  induction chunks generalizing buffer with
  | nil => exact ⟨rfl, .inr rfl⟩
  | cons chunk chunks ih =>
    rw [gather]
    by_cases hlong : buffer.length ≥ needed
    · rw [if_pos hlong]
      exact ⟨rfl, .inl hlong⟩
    · rw [if_neg hlong, List.flatten_cons, ← List.append_assoc]
      exact ih (buffer ++ chunk)

/-- What a round of `receive_at_least` does. -/
theorem exists_receiveLoop (chunks : ℕ → Bytes) (needed : ℕ) : ∃ loop : Loop (ℕ × Bytes) (ℕ × Bytes),
    (∀ next buffer, receiveUntil chunks needed next buffer = loop.run (next, buffer)) ∧
    ∀ next buffer, loop.step (next, buffer) =
      if buffer.length ≥ needed then .inr (next, buffer)
      else if (chunks next).take 4096 = [] then .inr (next + 1, buffer)
      else .inl (next + 1, buffer ++ (chunks next).take 4096) := ⟨_, fun _ _ => rfl, fun _ _ => rfl⟩

/-- Receiving gathers the chunks of a cut. -/
theorem receiveUntil_eq_gather {chunks : List Bytes} (h : ∀ chunk ∈ chunks, chunk ≠ [] ∧ chunk.length ≤ 4096)
    (needed next : ℕ) (buffer : Bytes) :
    (receiveUntil (fun i => chunks.getD i []) needed next buffer).2 = (gather needed (chunks.drop next) buffer).2 ∧
      chunks.drop (receiveUntil (fun i => chunks.getD i []) needed next buffer).1 =
        (gather needed (chunks.drop next) buffer).1 := by
  obtain ⟨loop, hrun, hstep⟩ := exists_receiveLoop (fun i => chunks.getD i []) needed
  rw [hrun]
  generalize hrest : chunks.drop next = rest
  induction rest generalizing next buffer with
  | nil =>
    have hnext : chunks.length ≤ next := List.drop_eq_nil_iff.mp hrest
    have hempty : (chunks.getD next []).take 4096 = [] := by
      rw [List.getD_eq_default _ _ hnext]
      rfl
    by_cases hlong : buffer.length ≥ needed
    · have hstop : loop.step (next, buffer) = .inr (next, buffer) := by rw [hstep, if_pos hlong]
      rw [loop.run_of_exit hstop]
      exact ⟨rfl, hrest⟩
    · have hstop : loop.step (next, buffer) = .inr (next + 1, buffer) := by rw [hstep, if_neg hlong, if_pos hempty]
      rw [loop.run_of_exit hstop]
      exact ⟨rfl, List.drop_eq_nil_iff.mpr (Nat.le_succ_of_le hnext)⟩
  | cons chunk rest ih =>
    have hget : chunks[next]? = some chunk := by
      rw [← List.head?_drop, hrest]
      rfl
    obtain ⟨hne, hshort⟩ := h chunk (List.mem_of_getElem? hget)
    have hchunk : (chunks.getD next []).take 4096 = chunk := by
      rw [List.getD_eq_getElem?_getD, hget]
      exact List.take_of_length_le hshort
    rw [gather]
    by_cases hlong : buffer.length ≥ needed
    · have hstop : loop.step (next, buffer) = .inr (next, buffer) := by rw [hstep, if_pos hlong]
      rw [loop.run_of_exit hstop, if_pos hlong]
      exact ⟨rfl, hrest⟩
    · have hnext : loop.step (next, buffer) = .inl (next + 1, buffer ++ chunk) := by
        rw [hstep, if_neg hlong, hchunk, if_neg hne]
      rw [loop.run_of_continue hnext, if_neg hlong]
      apply ih
      rw [← List.drop_drop, hrest]
      rfl

/-- Nothing comes with the line, and where the first five bytes behind it have come either all of the packet has,
or no line but the first one starts like a packet. -/
structure KeepsPacket (line first : Bytes) (rest : List Bytes) : Prop where
  alone : first = line
  kept : kexinitStarts (gather 5 rest []).2 0 = true ∨ ∀ front back,
    (gather 5 rest []).2 = front ++ 10 :: back → kexinitStarts (gather 5 rest []).2 (front.length + 1) = false

/-- Where no later line starts like a packet nothing is stripped. -/
theorem stripPreKexinitLines_eq_self {raw : Bytes} (h : kexinitStarts raw 0 = true ∨
    ∀ front back, raw = front ++ 10 :: back → kexinitStarts raw (front.length + 1) = false) :
    stripPreKexinitLines raw = raw := by
  obtain ⟨loop, hrun, hstep⟩ := exists_stripLoop raw
  rw [hrun]
  by_cases hstart : kexinitStarts raw 0 = true
  · by_cases hempty : 0 ≥ raw.length
    · exact loop.run_of_exit (by rw [hstep, if_pos hempty])
    · exact loop.run_of_exit (by rw [hstep, if_neg hempty, if_pos hstart]; rfl)
  · have hlater := h.resolve_left hstart
    -- The scanner is at the start or behind a newline.
    apply loop.run_induction (fun pos => pos = 0 ∨ ∃ front back, raw = front ++ 10 :: back ∧ pos = front.length + 1)
      (fun result => result = raw)
    · intro pos pos' _ hnext
      rw [hstep] at hnext
      split_ifs at hnext with hend
      cases hfind : findByte 10 (raw.drop pos) with
      | none =>
        rw [hfind] at hnext
        cases hnext
      | some newline =>
        rw [hfind] at hnext
        cases hnext
        have hmem : (10 : Byte) ∈ raw.drop pos := by
          by_contra hnot
          rw [findByte_eq_none.mpr hnot] at hfind
          cases hfind
        obtain ⟨text, behind, hsplit, htext⟩ := exists_of_mem_first hmem
        rw [hsplit, findByte_append_cons htext] at hfind
        cases hfind
        refine .inr ⟨raw.take pos ++ text, behind, ?_, ?_⟩
        · rw [List.append_assoc, ← hsplit, List.take_append_drop]
        · rw [List.length_append, List.length_take_of_le (by omega)]
    · intro pos result hpos hexit
      rw [hstep] at hexit
      split_ifs at hexit with hend hfound
      · exact (Sum.inr.inj hexit).symm
      · rcases hpos with rfl | ⟨front, back, hsplit, rfl⟩
        · exact absurd hfound hstart
        · rw [hlater front back hsplit] at hfound
          cases hfound
      · cases hfind : findByte 10 (raw.drop pos) with
        | none =>
          rw [hfind] at hexit
          exact (Sum.inr.inj hexit).symm
        | some newline =>
          rw [hfind] at hexit
          cases hexit
    · exact .inl rfl

/-- What has been gathered of a packet is a part of it, or all of it and some more. -/
theorem gather_packet {packet tail : Bytes} {needed : ℕ} {chunks : List Bytes} {buffer : Bytes}
    (h : buffer ++ chunks.flatten = packet ++ tail) (hneeded : needed ≤ packet.length) :
    needed ≤ (gather needed chunks buffer).2.length := by
  obtain ⟨hall, hlong | hempty⟩ := gather_spec needed chunks buffer
  · exact hlong
  · rw [hempty, List.flatten_nil, List.append_nil, h] at hall
    rw [hall, List.length_append]
    omega

/-- The verdict on a packet. -/
def packetVerdict (port : Port) (now : ℤ) (packet : Bytes) : Option (Option Finding) :=
  if port.service ≠ str "ssh" then some none
  else (parseKexinit packet).map fun ki => ki.bind (terrapinVerdict port now)

/-- Cuts that keep the packet have its verdict. -/
theorem checkTerrapin_of_keeps {line tail first : Bytes} {rest : List Bytes} {packet : KexinitPacket}
    (hline : IdentificationLine line) (hcut : CutInto line (line ++ (packet.bytes ++ tail)) first rest)
    (hkeeps : KeepsPacket line first rest) (port : Port) (now : ℤ) :
    checkTerrapin port (cutServer first rest) now = packetVerdict port now packet.bytes := by
  rw [checkTerrapin, packetVerdict]
  by_cases hport : port.service ≠ str "ssh"
  · rw [if_pos hport, if_pos hport]
  rw [if_neg hport, if_neg hport]
  have hrest : rest.flatten = packet.bytes ++ tail := by
    have hjoined := hcut.joined
    rw [hkeeps.alone] at hjoined
    exact List.append_cancel_left hjoined
  have hlength := packet.length_bytes
  have hcomplete := packet.complete
  have htotal := packet.toNat_total
  have hbanner : ((cutServer first rest).banner.take 4096).take 4 = str "SSH-" := by
    obtain ⟨version, hversion⟩ := List.isPrefixOf_iff_prefix.mp hline.protocol
    change (first.take 4096).take 4 = _
    rw [List.take_of_length_le hcut.first_short, hkeeps.alone, ← hversion]
    rfl
  -- The first bytes behind the line.
  obtain ⟨hfirst, hnext⟩ := receiveUntil_eq_gather hcut.chunks 5 0 []
  rw [List.drop_zero] at hfirst hnext
  have hall : (gather 5 rest []).2 ++ (gather 5 rest []).1.flatten = packet.bytes ++ tail :=
    (gather_spec 5 rest []).1.trans hrest
  have hsix : 6 ≤ packet.bytes.length := by omega
  have hfive : 5 ≤ (gather 5 rest []).2.length := @gather_packet packet.bytes tail 5 rest [] hrest (by omega)
  have hread : readUint32 (gather 5 rest []).2 0 = some packet.packetLength := by
    rw [← packet.readUint32_bytes, ← @readUint32_before packet.bytes tail 0 (by omega), ← hall,
      readUint32_before (by omega)]
  have hstrip := stripPreKexinitLines_eq_self hkeeps.kept
  -- All bytes of the packet, and some more.
  obtain ⟨hlater, -⟩ := receiveUntil_eq_gather hcut.chunks packet.bytes.length
    (receiveUntil (fun i => rest.getD i []) 5 0 []).1 (gather 5 rest []).2
  rw [hnext] at hlater
  have hlong : packet.bytes.length ≤ (gather packet.bytes.length (gather 5 rest []).1 (gather 5 rest []).2).2.length :=
    gather_packet hall le_rfl
  have hwhole := (gather_spec packet.bytes.length (gather 5 rest []).1 (gather 5 rest []).2).1
  rw [hall] at hwhole
  obtain ⟨more, hmore⟩ : packet.bytes <+: (gather packet.bytes.length (gather 5 rest []).1 (gather 5 rest []).2).2 :=
    List.prefix_of_prefix_length_le (List.prefix_append packet.bytes tail) (hwhole ▸ List.prefix_append _ _) hlong
  have hresponse : terrapinResponse port now (fun i => rest.getD i []) =
      (parseKexinit packet.bytes).map fun ki => ki.bind (terrapinVerdict port now) := by
    rw [terrapinResponse]
    dsimp only
    rw [hfirst, if_neg (by omega), hstrip, if_neg (by omega), hread]
    dsimp only [Option.bind_eq_bind, Option.bind_some]
    rw [htotal, hlater, ← hmore, parseKexinit_before]
    exact (Option.map_eq_bind ..).symm
  rw [if_neg (fun h => h rfl), if_neg (not_not.mpr hbanner)]
  exact hresponse

/-- The verdict does not depend on how the stream is cut, as long as the cuts keep the packet: it is that of the
packet. -/
theorem terrapin_cut_independent {line tail first first' : Bytes} {rest rest' : List Bytes} {packet : KexinitPacket}
    (hline : IdentificationLine line) (hcut : CutInto line (line ++ (packet.bytes ++ tail)) first rest)
    (hcut' : CutInto line (line ++ (packet.bytes ++ tail)) first' rest') (hkeeps : KeepsPacket line first rest)
    (hkeeps' : KeepsPacket line first' rest') (port : Port) (now : ℤ) :
    checkTerrapin port (cutServer first rest) now = checkTerrapin port (cutServer first' rest') now ∧
      checkTerrapin port (cutServer first rest) now = packetVerdict port now packet.bytes := by
  have hverdict := checkTerrapin_of_keeps hline hcut hkeeps port now
  exact ⟨hverdict.trans (checkTerrapin_of_keeps hline hcut' hkeeps' port now).symm, hverdict⟩

/-- The fields of a message whose encryption is ChaCha20. -/
def chachaFields : Bytes :=
  List.replicate 16 0 ++ [str "curve25519-sha256", str "ssh-ed25519", str "chacha20-poly1305@openssh.com",
    str "chacha20-poly1305@openssh.com", str "hmac-sha2-256", str "hmac-sha2-256", str "none", str "none", [],
    []].flatMap encodeNameList ++ List.replicate 5 0

/-- A packet of a server that is open to the attack. -/
def chachaPacket : KexinitPacket where
  packetLength := (6 + chachaFields.length).toUInt32
  padLen := 4
  fields := chachaFields
  padding := List.replicate 4 0
  padded := rfl
  complete := by decide +kernel
  short := by decide +kernel

/-- An identification. -/
def opensshLine : Bytes := str "SSH-2.0-OpenSSH_9.5" ++ [13, 10]

/-- The packet in one chunk and in two. -/
theorem terrapin_cut_independent_chacha :
    checkTerrapin { service := str "ssh" } (cutServer opensshLine [chachaPacket.bytes]) 0 =
        checkTerrapin { service := str "ssh" }
          (cutServer opensshLine [chachaPacket.bytes.take 100, chachaPacket.bytes.drop 100]) 0 ∧
      checkTerrapin { service := str "ssh" } (cutServer opensshLine [chachaPacket.bytes]) 0 =
        packetVerdict { service := str "ssh" } 0 chachaPacket.bytes := by
  have hline : IdentificationLine opensshLine := ⟨by decide, str "SSH-2.0-OpenSSH_9.5" ++ [13], rfl, by decide⟩
  have hcut : CutInto opensshLine (opensshLine ++ (chachaPacket.bytes ++ [])) opensshLine [chachaPacket.bytes] :=
    ⟨by decide +kernel, by decide, by decide, by decide +kernel⟩
  have hcut' : CutInto opensshLine (opensshLine ++ (chachaPacket.bytes ++ [])) opensshLine
      [chachaPacket.bytes.take 100, chachaPacket.bytes.drop 100] :=
    ⟨by decide +kernel, by decide, by decide, by decide +kernel⟩
  have hnewline : 10 ∉ (gather 5 [chachaPacket.bytes.take 100, chachaPacket.bytes.drop 100] []).2 := by decide +kernel
  refine terrapin_cut_independent hline hcut hcut' ⟨rfl, .inl (by decide +kernel)⟩ ⟨rfl, .inr ?_⟩ _ 0
  intro front back hsplit
  rw [hsplit] at hnewline
  exact absurd (List.mem_append_right front List.mem_cons_self) hnewline

/-- The packet behind the line, and in one chunk with it. -/
theorem terrapin_depends_on_cut : ¬∀ (line tail first first' : Bytes) (rest rest' : List Bytes)
    (packet : KexinitPacket) (port : Port) (now : ℤ), IdentificationLine line →
    CutInto line (line ++ (packet.bytes ++ tail)) first rest →
    CutInto line (line ++ (packet.bytes ++ tail)) first' rest' →
    checkTerrapin port (cutServer first rest) now = checkTerrapin port (cutServer first' rest') now := by
  intro h
  have hline : IdentificationLine opensshLine := ⟨by decide, str "SSH-2.0-OpenSSH_9.5" ++ [13], rfl, by decide⟩
  have hsame := h opensshLine [] opensshLine (opensshLine ++ chachaPacket.bytes) [chachaPacket.bytes] [] chachaPacket
    { service := str "ssh" } 0 hline ⟨by decide +kernel, by decide, by decide, by decide +kernel⟩
    ⟨by decide +kernel, by decide +kernel, by decide +kernel, nofun⟩
  have hfound := congrArg (fun result => result.map Option.isSome) hsame
  exact absurd hfound (by decide +kernel)

end ZeroTrust
