import ZeroTrust.Core.Finding
import ZeroTrust.Lib.Loop

/-!
# The Terrapin check

`protocols/ssh/terrapin.cpp`: what is sent to an SSH server, how its KEXINIT packet is read and what
is reported. Lengths are computed in the widths of the source, so a hostile packet can make the
reader leave its input; such a read has no result. What the check writes to the knowledge base of the
scan is left out, since nothing reads it.
-/

namespace ZeroTrust

/-- `encode_uint32`. -/
def encodeUint32 (v : UInt32) : Bytes := [(v >>> 24).toUInt8, (v >>> 16).toUInt8, (v >>> 8).toUInt8, v.toUInt8]

/-- `append_name_list`. -/
def appendNameList (out list : Bytes) : Bytes := out ++ encodeUint32 list.length.toUInt32 ++ list

/-- The name-lists that the scanner offers. -/
def offeredNameLists : List Bytes :=
  [str "curve25519-sha256,curve25519-sha256@libssh.org,ecdh-sha2-nistp256",
   str "ssh-ed25519,rsa-sha2-256,rsa-sha2-512,ecdsa-sha2-nistp256",
   str "aes128-ctr,aes192-ctr,aes256-ctr", str "aes128-ctr,aes192-ctr,aes256-ctr",
   str "hmac-sha2-256,hmac-sha2-512", str "hmac-sha2-256,hmac-sha2-512", str "none", str "none", [], []]

/-- `build_kexinit_payload`. -/
def buildKexinitPayload : Bytes :=
  offeredNameLists.foldl appendNameList (20 :: List.replicate 16 0) ++ 0 :: encodeUint32 0

/-- The padding length of `frame_ssh_packet`. -/
def padLength (payloadLength : ℕ) : ℕ :=
  let padLen := 8 - (1 + payloadLength) % 8
  if padLen < 4 then padLen + 8 else padLen

/-- `frame_ssh_packet`. -/
def frameSshPacket (payload : Bytes) : Bytes :=
  let padLen := padLength payload.length
  encodeUint32 (1 + payload.length + padLen).toUInt32 ++ padLen.toUInt8 :: payload ++ List.replicate padLen 0

/-- `raw[i]` of a constant string: the byte behind the last one is zero, and any further one is not
there. -/
def byteAt (raw : Bytes) (i : ℕ) : Option Byte := if i = raw.length then some 0 else raw[i]?

/-- Four bytes in network order. -/
def readUint32 (raw : Bytes) (pos : ℕ) : Option UInt32 := do
  let a ← byteAt raw pos
  let b ← byteAt raw (pos + 1)
  let c ← byteAt raw (pos + 2)
  let d ← byteAt raw (pos + 3)
  return a.toUInt32 <<< 24 ||| b.toUInt32 <<< 16 ||| c.toUInt32 <<< 8 ||| d.toUInt32

/-- `std::string(raw.data() + pos, n)`: the range may include the terminator. -/
def rangeAt (raw : Bytes) (pos n : ℕ) : Option Bytes :=
  if pos + n ≤ raw.length + 1 then some (((raw ++ [0]).drop pos).take n) else none

/-- The names of a list, without empty ones. -/
def splitNames (list : Bytes) : List Bytes := (getlines 44 list).filter (· ≠ [])

/-- `read_name_list`: the names and the position behind them, or nothing when the packet is too
short. -/
def readNameList (raw : Bytes) (pos limit : ℕ) : Option (Option (List Bytes × ℕ)) :=
  if pos + 4 > limit then some none
  else do
    let listLen ← readUint32 raw pos
    let pos := pos + 4
    if pos + listLen.toNat > limit then return none
    let list ← rangeAt raw pos listLen.toNat
    return some (splitNames list, pos + listLen.toNat)

/-- `KexInit`. -/
structure KexInit where
  kexAlgorithms : List Bytes := []
  encryptionAlgorithmsSToC : List Bytes := []
  macAlgorithmsSToC : List Bytes := []
deriving DecidableEq, Repr

/-- Successive name-lists; reading stops at the first one that is not there. -/
def readNameLists (raw : Bytes) (limit : ℕ) : ℕ → ℕ → Option (Option (List (List Bytes)))
  | 0, _ => some (some [])
  | n + 1, pos => do
    match ← readNameList raw pos limit with
    | none => return none
    | some (names, pos) => return (← readNameLists raw limit n pos).map (names :: ·)

/-- `parse_kexinit`: nothing for a packet that is not one, no result for a read outside of the
input. -/
def parseKexinit (raw : Bytes) : Option (Option KexInit) :=
  if raw.length < 6 then some none
  else do
    let packetLength ← readUint32 raw 0
    let padLen ← byteAt raw 4
    if raw.length < (4 + packetLength).toNat then return none
    let payloadStart := 5
    let payloadEnd := (4 + packetLength - padLen.toUInt32).toNat
    if payloadStart ≥ payloadEnd then return none
    if (← byteAt raw payloadStart) ≠ 20 then return none
    match ← readNameLists raw payloadEnd 6 (payloadStart + 17) with
    | some [kex, _, _, encryption, _, mac] => return some ⟨kex, encryption, mac⟩
    | _ => return none

/-- `any_cbc`. -/
def anyCbc (ciphers : List Bytes) : Bool := ciphers.any (contains · (str "-cbc"))

/-- `any_etm`. -/
def anyEtm (macs : List Bytes) : Bool := macs.any (contains · (str "-etm@"))

/-- A packet of message type 20 that starts here. -/
def kexinitStarts (raw : Bytes) (pos : ℕ) : Bool :=
  match readUint32 raw pos with
  | none => false
  | some plen => pos + 4 ≤ raw.length && 0 < plen.toNat && plen.toNat < 65536 &&
      pos + 4 + plen.toNat ≤ raw.length && pos + 5 < raw.length && raw[pos + 5]? == some 20

/-- `strip_pre_kexinit_lines`: every iteration but the last moves behind a newline. -/
def stripPreKexinitLines (raw : Bytes) : Bytes :=
  Loop.run
    { step := fun pos =>
        if pos ≥ raw.length then .inr raw
        else if kexinitStarts raw pos then .inr (raw.drop pos)
        else match findByte 10 (raw.drop pos) with
          | none => .inr raw
          | some newline => .inl (pos + newline + 1)
      variant := fun pos => raw.length - pos
      decreases := by
        intro pos pos' h
        split_ifs at h with hend
        split at h
        · cases h
        · cases h
          omega } 0

/-- What the server answers to the check, as far as it is asked; a send without an answer raises
`SIGPIPE`. -/
structure SshServer where
  state : PortState
  banner : Bytes
  identified : Option Bool
  offered : Option Bool
  chunks : ℕ → Bytes

/-- Receive into a buffer until it is long enough or nothing comes; the state counts the chunks. -/
def receiveUntil (chunks : ℕ → Bytes) (needed : ℕ) (next : ℕ) (buffer : Bytes) : ℕ × Bytes :=
  Loop.run
    { step := fun (next, buffer) =>
        if buffer.length ≥ needed then .inr (next, buffer)
        else
          let chunk := (chunks next).take 4096
          if chunk = [] then .inr (next + 1, buffer) else .inl (next + 1, buffer ++ chunk)
      variant := fun (_, buffer) => needed - buffer.length
      decreases := by
        rintro ⟨next, buffer⟩ s' h
        dsimp only at h
        split_ifs at h with hlong hchunk
        cases h
        have hpos := List.length_pos_iff.mpr hchunk
        dsimp only
        rw [List.length_append]
        omega } (next, buffer)

/-- The evidence of `check_terrapin`. -/
def terrapinEvidence (hasChacha cbcEtmVuln : Bool) : Bytes :=
  (if hasChacha then str "chacha20-poly1305@openssh.com supported; " else []) ++
  (if cbcEtmVuln then str "CBC ciphers combined with Encrypt-then-MAC supported; " else []) ++
  str "kex-strict-s-v00@openssh.com NOT offered by server"

/-- The finding of `check_terrapin`. -/
def terrapinFinding (port : Port) (now : ℤ) (evidence : Bytes) : Finding where
  pluginName := str "ssh-terrapin"
  title := str "SSH Terrapin Prefix Truncation Weakness"
  severity := .medium
  confidence := .verified
  confidenceScore := 99 / 100
  verification := str "ACTIVE_CHECK"
  timestamp := now
  cveId := str "CVE-2023-48795"
  portNumber := port.number
  service := port.service
  product := port.product
  version := port.version
  description :=
    str "The SSH server supports algorithms vulnerable to the Terrapin prefix-truncation " ++
    str "attack (chacha20-poly1305 or CBC-with-Encrypt-then-MAC) and does not advertise the " ++
    str "strict key exchange countermeasure. Evidence: " ++ evidence ++
    str ". Update the SSH server or restrict the offered algorithms."
  evidence := evidence
  evidenceData := ⟨str "protocol", str "ssh-kex", evidence, str "SSH algorithm negotiation"⟩

/-- The verdict on the algorithms of a server. -/
def terrapinVerdict (port : Port) (now : ℤ) (ki : KexInit) : Option Finding :=
  let hasStrictKex := ki.kexAlgorithms.contains (str "kex-strict-s-v00@openssh.com")
  let hasChacha := ki.encryptionAlgorithmsSToC.contains (str "chacha20-poly1305@openssh.com")
  let cbcEtmVuln := anyCbc ki.encryptionAlgorithmsSToC && anyEtm ki.macAlgorithmsSToC
  if hasStrictKex || (!hasChacha && !cbcEtmVuln) then none
  else some (terrapinFinding port now (terrapinEvidence hasChacha cbcEtmVuln))

/-- What `check_terrapin` makes of the server's answers to its KEXINIT packet. -/
def terrapinResponse (port : Port) (now : ℤ) (chunks : ℕ → Bytes) : Option (Option Finding) := do
  let (next, response) := receiveUntil chunks 5 0 []
  if response.length < 5 then return none
  let trimmed := stripPreKexinitLines response
  if trimmed.length < 5 then return none
  let packetLength ← readUint32 trimmed 0
  let (_, trimmed) := receiveUntil chunks (4 + packetLength).toNat next trimmed
  return (← parseKexinit trimmed).bind (terrapinVerdict port now)

/-- `check_terrapin`: no result when the process dies. -/
def checkTerrapin (port : Port) (server : SshServer) (now : ℤ) : Option (Option Finding) :=
  if port.service ≠ str "ssh" then some none
  else if server.state ≠ .opened then some none
  else if (server.banner.take 4096).take 4 ≠ str "SSH-" then some none
  else do
    if !(← server.identified) then return none
    if !(← server.offered) then return none
    terrapinResponse port now server.chunks

/-- What `check_terrapin` reports is its one finding, with some evidence. -/
theorem checkTerrapin_eq_some {port : Port} {server : SshServer} {now : ℤ} {f : Finding}
    (h : checkTerrapin port server now = some (some f)) : ∃ evidence, f = terrapinFinding port now evidence := by
  unfold checkTerrapin at h
  split at h
  · cases h
  split at h
  · cases h
  split at h
  · cases h
  obtain ⟨identified, -, h⟩ := Option.bind_eq_some_iff.mp h
  split at h
  · cases h
  obtain ⟨offered, -, h⟩ := Option.bind_eq_some_iff.mp h
  split at h
  · cases h
  unfold terrapinResponse at h
  dsimp only at h
  split at h
  · cases h
  split at h
  · cases h
  obtain ⟨packetLength, -, h⟩ := Option.bind_eq_some_iff.mp h
  obtain ⟨ki, -, h⟩ := Option.bind_eq_some_iff.mp h
  obtain ⟨ki, -, h⟩ := Option.bind_eq_some_iff.mp (Option.some.inj h)
  unfold terrapinVerdict at h
  dsimp only at h
  split at h
  · cases h
  · exact ⟨_, (Option.some.inj h).symm⟩

end ZeroTrust
