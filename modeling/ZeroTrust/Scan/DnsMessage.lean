import ZeroTrust.Core.Ipv4
import ZeroTrust.Scan.DnsNames

/-!
# DNS replies

Replies as they should be: a question and answer records, with names that may be compressed. The resolver walks
their records without losing its way. It believes any datagram that carries an address, whoever sent it.
-/

namespace ZeroTrust

/-- A label of a name. -/
structure DnsLabel where
  text : Bytes
  pos : 1 ≤ text.length
  short : text.length ≤ 63

/-- How a name ends: at the root, or at a name elsewhere in the message. -/
inductive DnsEnd
  | root
  | pointer (hi lo : Byte) (tagged : hi &&& 0xC0 = 0xC0)

/-- A name. -/
structure DnsName where
  labels : List DnsLabel
  ending : DnsEnd

/-- An answer record. -/
structure DnsRecord where
  name : DnsName
  type : UInt16
  cls : UInt16
  ttl : UInt32
  rdata : Bytes
  rdata_length : rdata.length < 65536

/-- A reply with one question and some answers. -/
structure DnsReply where
  id : UInt16
  flags : UInt16
  nscount : UInt16
  arcount : UInt16
  question : DnsName
  qtype : UInt16
  qclass : UInt16
  answers : List DnsRecord
  answered : answers ≠ []
  count : answers.length < 65536

/-- `htons`. -/
def encodeUint16 (v : UInt16) : Bytes := [(v >>> 8).toUInt8, v.toUInt8]

def DnsLabel.bytes (label : DnsLabel) : Bytes := label.text.length.toUInt8 :: label.text

def DnsEnd.bytes : DnsEnd → Bytes
  | root => [0]
  | pointer hi lo _ => [hi, lo]

def DnsName.bytes (name : DnsName) : Bytes := name.labels.flatMap DnsLabel.bytes ++ name.ending.bytes

def DnsRecord.bytes (record : DnsRecord) : Bytes :=
  record.name.bytes ++ (encodeUint16 record.type ++ (encodeUint16 record.cls ++
    (encodeUint16 (record.ttl >>> 16).toUInt16 ++ (encodeUint16 record.ttl.toUInt16 ++
      (encodeUint16 record.rdata.length.toUInt16 ++ record.rdata)))))

/-- The header of a reply. -/
def DnsReply.header (reply : DnsReply) : Bytes :=
  encodeUint16 reply.id ++ encodeUint16 reply.flags ++ encodeUint16 1 ++
    (encodeUint16 reply.answers.length.toUInt16 ++ (encodeUint16 reply.nscount ++ encodeUint16 reply.arcount))

def DnsReply.bytes (reply : DnsReply) : Bytes :=
  reply.header ++ (reply.question.bytes ++ (encodeUint16 reply.qtype ++ encodeUint16 reply.qclass ++
    reply.answers.flatMap DnsRecord.bytes))

/-- The first IPv4 address among records. -/
def firstAddress (records : List DnsRecord) : Option Bytes :=
  (records.find? fun record => record.type = 1 ∧ record.rdata.length = 4).map fun record => dottedQuad record.rdata

/-- `Udp::receive` gives no more than fits into its buffer. -/
def udpReceive (datagram : Bytes) : Bytes := datagram.take 4096

/-- A name of a message reads as one. -/
theorem DnsName.nameBytes (name : DnsName) : NameBytes name.bytes := by
  obtain ⟨labels, ending⟩ := name
  induction labels with
  | nil =>
    cases ending with
    | root => exact .root
    | pointer hi lo tagged => exact .pointer ((pointerTag_iff hi).mp tagged)
  | cons label labels ih =>
    have hshort := label.short
    have hnat : label.text.length.toUInt8.toNat = label.text.length := UInt8.toNat_ofNat_of_lt' (by
      change _ < 256
      omega)
    have hlabel := @NameBytes.label label.text.length.toUInt8 label.text _ (by rw [hnat]; exact label.pos)
      (by rw [hnat]; omega) hnat.symm ih
    simpa only [DnsName.bytes, DnsLabel.bytes, List.flatMap_cons, List.append_assoc, List.cons_append] using hlabel

/-- The walk passes a name of a message. -/
theorem DnsName.skip (xs : Bytes) (name : DnsName) (ys : Bytes) :
    (skipName (xs ++ (name.bytes ++ ys)) xs.length).result = (xs ++ name.bytes).length := name.nameBytes.skipName xs ys

/-- Two bytes. -/
theorem length_encodeUint16 (v : UInt16) : (encodeUint16 v).length = 2 := rfl

/-- A number behind a known part of the datagram. -/
theorem readUint16_append (xs : Bytes) (v : UInt16) (ys : Bytes) :
    readUint16 (xs ++ (encodeUint16 v ++ ys)) xs.length = some v := by
  have hfirst : (xs ++ (encodeUint16 v ++ ys))[xs.length]? = some (v >>> 8).toUInt8 := by
    rw [List.getElem?_append_right le_rfl, Nat.sub_self]
    rfl
  have hsecond : (xs ++ (encodeUint16 v ++ ys))[xs.length + 1]? = some v.toUInt8 := by
    rw [List.getElem?_append_right (Nat.le_add_right _ _), Nat.add_sub_cancel_left]
    rfl
  rw [readUint16, hfirst, hsecond]
  exact congrArg some (uint16_of_bytes v)

/-- One step of the walk over a record of a message. -/
theorem walkAnswers_record (xs : Bytes) (record : DnsRecord) (ys : Bytes) (n : ℕ) :
    (walkAnswers (xs ++ (record.bytes ++ ys)) (n + 1) xs.length).result =
      if record.type = 1 ∧ record.rdata.length = 4 then some (some (dottedQuad record.rdata))
      else (walkAnswers (xs ++ (record.bytes ++ ys)) n (xs ++ record.bytes).length).result := by
  obtain ⟨data, hdata⟩ : ∃ data, data = xs ++ (record.bytes ++ ys) := ⟨_, rfl⟩
  have hname : (skipName data xs.length).result = (xs ++ record.name.bytes).length := by
    rw [hdata, DnsRecord.bytes, List.append_assoc]
    exact record.name.skip xs _
  have hlength : data.length = (xs ++ record.name.bytes).length + (10 + record.rdata.length) + ys.length := by
    rw [hdata]
    simp only [DnsRecord.bytes, List.length_append, length_encodeUint16]
    omega
  have hend : (xs ++ record.bytes).length = (xs ++ record.name.bytes).length + 10 + record.rdata.length := by
    simp only [DnsRecord.bytes, List.length_append, length_encodeUint16]
    omega
  -- The datagram, cut behind the name, before the length of the data, and before the data.
  have hfixed : data = xs ++ record.name.bytes ++ (encodeUint16 record.type ++ (encodeUint16 record.cls ++
      (encodeUint16 (record.ttl >>> 16).toUInt16 ++ (encodeUint16 record.ttl.toUInt16 ++
        (encodeUint16 record.rdata.length.toUInt16 ++ (record.rdata ++ ys)))))) := by
    rw [hdata, DnsRecord.bytes]
    simp only [List.append_assoc]
  have hbefore : data = xs ++ record.name.bytes ++ (encodeUint16 record.type ++ (encodeUint16 record.cls ++
      (encodeUint16 (record.ttl >>> 16).toUInt16 ++ encodeUint16 record.ttl.toUInt16))) ++
        (encodeUint16 record.rdata.length.toUInt16 ++ (record.rdata ++ ys)) := by
    rw [hfixed]
    simp only [List.append_assoc]
  have htype : readUint16 data (xs ++ record.name.bytes).length = some record.type := by
    rw [hfixed]
    exact readUint16_append _ _ _
  have hrdlength : readUint16 data ((xs ++ record.name.bytes).length + 8) = some record.rdata.length.toUInt16 := by
    have hread := readUint16_append (xs ++ record.name.bytes ++ (encodeUint16 record.type ++ (encodeUint16 record.cls ++
      (encodeUint16 (record.ttl >>> 16).toUInt16 ++ encodeUint16 record.ttl.toUInt16))))
      record.rdata.length.toUInt16 (record.rdata ++ ys)
    rwa [← hbefore, List.length_append] at hread
  have hrdata : data.drop ((xs ++ record.name.bytes).length + 10) = record.rdata ++ ys := by
    rw [hbefore, ← List.append_assoc]
    apply List.drop_left'
    rw [List.length_append, List.length_append]
    rfl
  have hnat : record.rdata.length.toUInt16.toNat = record.rdata.length := UInt16.toNat_ofNat_of_lt' record.rdata_length
  have hfour : record.rdata.length.toUInt16 = 4 ↔ record.rdata.length = 4 := by
    rw [← UInt16.toNat_inj, hnat]
    rfl
  rw [← hdata, walkAnswers]
  dsimp only
  rw [hname, if_neg (by omega), htype, hrdlength]
  dsimp only
  by_cases haddress : record.type = 1 ∧ record.rdata.length = 4
  · rw [if_pos haddress, if_pos ⟨haddress.1, hfour.mpr haddress.2⟩]
    dsimp only
    rw [readAddress, if_pos (by omega), hrdata, ← haddress.2, List.take_left]
    rfl
  · rw [if_neg haddress, if_neg (fun h => haddress ⟨h.1, hfour.mp h.2⟩)]
    dsimp only
    rw [hnat, hend]

/-- The walk over the records of a message finds the first address among them. -/
theorem walkAnswers_records (records : List DnsRecord) (xs ys : Bytes) :
    (walkAnswers (xs ++ (records.flatMap DnsRecord.bytes ++ ys)) records.length xs.length).result =
      some (firstAddress records) := by
  induction records generalizing xs with
  | nil => rfl
  | cons record records ih =>
    rw [List.flatMap_cons, List.append_assoc, List.length_cons, walkAnswers_record, firstAddress, List.find?_cons]
    by_cases haddress : record.type = 1 ∧ record.rdata.length = 4
    · rw [if_pos haddress, decide_eq_true haddress]
      rfl
    · rw [if_neg haddress, decide_eq_false haddress, ← List.append_assoc, ih (xs ++ record.bytes)]
      rfl

/-- The resolver returns the first address of a reply that fits into its buffer, or nothing if it has none. -/
theorem resolve_first_address (reply : DnsReply) (hostname : Bytes) (queryId : UInt16)
    (h : reply.bytes.length ≤ 4096) :
    resolve (fun _ => some (udpReceive reply.bytes)) hostname queryId = some (firstAddress reply.answers) := by
  have hreceived : udpReceive reply.bytes = reply.bytes := List.take_of_length_le h
  have hheader : reply.header.length = 12 := rfl
  have hlength : 12 ≤ reply.bytes.length := by
    rw [DnsReply.bytes, List.length_append, hheader]
    exact Nat.le_add_right _ _
  have hcount : readUint16 reply.bytes 6 = some reply.answers.length.toUInt16 := by
    rw [DnsReply.bytes, DnsReply.header, List.append_assoc, List.append_assoc]
    exact readUint16_append (encodeUint16 reply.id ++ encodeUint16 reply.flags ++ encodeUint16 1) _ _
  have hnat : reply.answers.length.toUInt16.toNat = reply.answers.length := UInt16.toNat_ofNat_of_lt' reply.count
  have hpos := List.length_pos_iff.mpr reply.answered
  have hne : reply.answers.length.toUInt16 ≠ 0 := by
    intro hzero
    rw [hzero] at hnat
    exact absurd hnat (Nat.ne_of_lt hpos)
  have hskip : (skipName reply.bytes 12).result = (reply.header ++ reply.question.bytes).length :=
    reply.question.skip reply.header _
  -- The records start behind the type and the class of the question.
  have hanswers : reply.bytes = reply.header ++ reply.question.bytes ++ (encodeUint16 reply.qtype ++
      encodeUint16 reply.qclass) ++ (reply.answers.flatMap DnsRecord.bytes ++ []) := by
    rw [DnsReply.bytes]
    simp only [List.append_assoc, List.append_nil]
  have hwalk := walkAnswers_records reply.answers
    (reply.header ++ reply.question.bytes ++ (encodeUint16 reply.qtype ++ encodeUint16 reply.qclass)) []
  rw [← hanswers, List.length_append] at hwalk
  rw [resolve, hreceived]
  dsimp only
  rw [if_neg (List.length_pos_iff.mp (by omega)), resolveResponse, if_neg (by omega), hcount]
  dsimp only
  rw [if_neg hne, hskip, hnat]
  exact hwalk

/-- A reply with an alias before the address. -/
def aliasReply : DnsReply where
  id := 1
  flags := 0x8180
  nscount := 0
  arcount := 0
  question := ⟨[⟨str "www", by decide, by decide⟩], .root⟩
  qtype := 1
  qclass := 1
  answers :=
    [⟨⟨[], .pointer 0xC0 12 (by decide)⟩, 5, 1, 60, [1, 97, 0], by decide⟩,
     ⟨⟨[⟨str "a", by decide, by decide⟩], .root⟩, 1, 1, 60, [192, 0, 2, 7], by decide⟩]
  answered := List.cons_ne_nil _ _
  count := by decide

/-- The address behind the alias. -/
theorem resolve_first_address_alias : aliasReply.bytes.length ≤ 4096 ∧
    resolve (fun _ => some (udpReceive aliasReply.bytes)) (str "www") 1 = some (some (str "192.0.2.7")) :=
  ⟨by decide +kernel, (resolve_first_address aliasReply (str "www") 1 (by decide +kernel)).trans (by decide +kernel)⟩

/-- The datagram answers the query with this id: it has the id, and the bit that marks a response. -/
def AnswersQuery (datagram : Bytes) (queryId : UInt16) : Prop :=
  readUint16 datagram 0 = some queryId ∧ ∃ flags ∈ datagram[2]?, flags &&& 0x80 = 0x80

/-- The walk over the answers of the datagram reaches an IPv4 address. -/
def CarriesAddress (datagram : Bytes) : Prop :=
  12 ≤ datagram.length ∧ ∃ ancount ∈ readUint16 datagram 6, ∃ i < ancount.toNat, ∃ offset,
    Reached datagram ((skipName datagram 12).result + 4) i offset ∧
      ∃ type rdlength, RecordAt datagram offset type rdlength ∧ IsAddress type rdlength

/-- The walk ends without an address exactly if it reaches none. -/
theorem walkAnswers_eq_none_iff (response : Bytes) (n start : ℕ) :
    (walkAnswers response n start).result = some none ↔
      ∀ i < n, ∀ offset, Reached response start i offset →
        ∀ type rdlength, RecordAt response offset type rdlength → ¬IsAddress type rdlength := by
  induction n generalizing start with
  | zero => exact iff_of_true rfl nofun
  | succ n ih =>
    rw [walkAnswers]
    dsimp only
    by_cases hend : (skipName response start).result + 10 ≤ response.length
    · obtain ⟨type, rdlength, hrecord⟩ := exists_recordAt hend
      rw [if_neg (Nat.not_lt.mpr hend), hrecord.2.1, hrecord.2.2]
      dsimp only
      by_cases haddress : IsAddress type rdlength
      · rw [if_pos haddress]
        apply iff_of_false
        · intro hnone
          obtain ⟨address, -, h⟩ := Option.map_eq_some_iff.mp hnone
          cases h
        · intro hall
          exact hall 0 n.succ_pos _ .first type rdlength hrecord haddress
      · rw [if_neg haddress, ih]
        constructor
        · intro hrest i hi pos hreached type' rdlength' hrecord'
          cases i with
          | zero =>
            cases hreached
            obtain ⟨rfl, rfl⟩ := hrecord.unique hrecord'
            exact haddress
          | succ i =>
            exact hrest i (Nat.lt_of_succ_lt_succ hi) pos (hreached.of_succ hrecord) type' rdlength' hrecord'
        · intro hall i hi pos hreached
          exact hall (i + 1) (Nat.succ_lt_succ hi) pos (hreached.cons hrecord haddress)
    · rw [if_pos (Nat.lt_of_not_le hend)]
      apply iff_of_true rfl
      intro i _ pos hreached type rdlength hrecord
      obtain ⟨-, rfl⟩ := hreached.eq_first fun _ _ h' => absurd h'.1 hend
      exact absurd hrecord.1 hend

/-- No address comes from a datagram exactly if it carries none, whatever else is in it. -/
theorem resolveResponse_eq_none_iff (response : Bytes) :
    (resolveResponse response).result = some none ↔ ¬CarriesAddress response := by
  rw [resolveResponse]
  by_cases hshort : response.length < 12
  · rw [if_pos hshort]
    exact iff_of_true rfl fun hcarries => absurd hcarries.1 (Nat.not_le.mpr hshort)
  · obtain ⟨ancount, hcount⟩ := @exists_readUint16 response 6 (by omega)
    rw [if_neg hshort, hcount]
    dsimp only
    by_cases hzero : ancount = 0
    · rw [if_pos hzero]
      apply iff_of_true rfl
      rintro ⟨-, ancount', hcount', i, hi, -⟩
      cases Option.some.inj (hcount.symm.trans hcount')
      rw [hzero] at hi
      exact absurd hi (Nat.not_lt_zero i)
    · rw [if_neg hzero, walkAnswers_eq_none_iff]
      constructor
      · rintro hnone ⟨-, ancount', hcount', i, hi, offset, hreached, type, rdlength, hrecord, haddress⟩
        cases Option.some.inj (hcount.symm.trans hcount')
        exact hnone i hi offset hreached type rdlength hrecord haddress
      · intro hcarries i hi offset hreached type rdlength hrecord haddress
        exact hcarries ⟨Nat.not_lt.mp hshort, ancount, hcount, i, hi, offset, hreached, type, rdlength, hrecord,
          haddress⟩

/-- Only the answer to the query is believed, exactly if no other datagram arrives that carries an
address: the walk alone decides. A result other than "no address" counts as believed. -/
theorem resolve_believes_iff (hostname : Bytes) (queryId : UInt16) (datagram : Bytes) :
    (resolve (fun _ => some datagram) hostname queryId ≠ some none → AnswersQuery datagram queryId) ↔
      (CarriesAddress datagram → AnswersQuery datagram queryId) := by
  have hbelieved : resolve (fun _ => some datagram) hostname queryId ≠ some none ↔ CarriesAddress datagram := by
    rw [resolve]
    dsimp only
    by_cases hempty : datagram = []
    · rw [if_pos hempty]
      apply iff_of_false
      · exact fun h => h rfl
      · rintro ⟨hlength, -⟩
        rw [hempty] at hlength
        exact absurd hlength (by decide)
    · rw [if_neg hempty]
      exact not_iff_comm.mp (resolveResponse_eq_none_iff datagram).symm
  rw [hbelieved]

/-- The reply to another query is believed. -/
theorem other_reply_believed : ¬∀ (hostname : Bytes) (queryId : UInt16) (datagram address : Bytes),
    resolve (fun _ => some datagram) hostname queryId = some (some address) → AnswersQuery datagram queryId := by
  intro h
  have hanswers := h (str "www") 2 aliasReply.bytes (str "192.0.2.7") (by decide +kernel)
  exact absurd hanswers.1 (by decide +kernel)

end ZeroTrust
