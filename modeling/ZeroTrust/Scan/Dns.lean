import ZeroTrust.Core.ByteRange
import ZeroTrust.Lib.Loop

/-!
# The resolver

`protocols/dns/resolver.cpp`: the query that is sent and the walk over the records of the reply. The
walk is modelled with the ranges of the datagram that it reads.
-/

namespace ZeroTrust

/-- `encode_hostname`: the length of a label is stored in one byte. -/
def encodeHostname (hostname : Bytes) : Bytes :=
  (getlines 46 hostname).flatMap (fun label => label.length.toUInt8 :: label) ++ [0]

/-- `build_query`. -/
def buildQuery (hostname : Bytes) (queryId : UInt16) : Bytes :=
  [(queryId >>> 8).toUInt8, queryId.toUInt8, 1, 0, 0, 1, 0, 0, 0, 0, 0, 0] ++ encodeHostname hostname ++
    [0, 1, 0, 1]

/-- `skip_name`: the position behind a name, which may lie outside of the datagram. -/
def skipName (data : Bytes) (offset : ℕ) : Walk ℕ :=
  Loop.run
    { step := fun (walk : Walk ℕ) =>
        match data[walk.result]? with
        | none => .inr walk
        | some len =>
          let reads := walk.reads ++ [(walk.result, 1)]
          if len &&& 0xC0 = 0xC0 then .inr ⟨reads, walk.result + 2⟩
          else if len = 0 then .inr ⟨reads, walk.result + 1⟩
          else .inl ⟨reads, walk.result + (1 + len.toNat)⟩
      variant := fun walk => data.length - walk.result
      decreases := by
        intro walk walk' h
        split at h
        · cases h
        · next len hlen =>
          obtain ⟨hend, -⟩ := List.getElem?_eq_some_iff.mp hlen
          dsimp only at h
          split_ifs at h
          cases h
          dsimp only
          omega } ⟨[], offset⟩

/-- Two bytes in network order, or nothing when they are not there. -/
def readUint16 (data : Bytes) (pos : ℕ) : Option UInt16 := do
  let a ← data[pos]?
  let b ← data[pos + 1]?
  return a.toUInt16 <<< 8 ||| b.toUInt16

/-- `inet_ntop` of an IPv4 address, or nothing when the bytes are not there. -/
def readAddress (data : Bytes) (pos : ℕ) : Option Bytes :=
  if pos + 4 ≤ data.length then some (List.intercalate [46] (((data.drop pos).take 4).map fun b => decimal b.toNat))
  else none

/-- The loop over the answer records; no result for a read outside of the datagram. -/
def walkAnswers (response : Bytes) : ℕ → ℕ → Walk (Option (Option Bytes))
  | 0, _ => ⟨[], some none⟩
  | n + 1, offset =>
    let name := skipName response offset
    let offset := name.result
    if offset + 10 > response.length then ⟨name.reads, some none⟩
    else
      let reads := name.reads ++ [(offset, 2), (offset + 8, 2)]
      match readUint16 response offset, readUint16 response (offset + 8) with
      | some type, some rdlength =>
        let offset := offset + 10
        if type = 1 ∧ rdlength = 4 then ⟨reads ++ [(offset, 4)], (readAddress response offset).map some⟩
        else
          let rest := walkAnswers response n (offset + rdlength.toNat)
          ⟨reads ++ rest.reads, rest.result⟩
      | _, _ => ⟨reads, none⟩

/-- `resolve`, from the datagram on. -/
def resolveResponse (response : Bytes) : Walk (Option (Option Bytes)) :=
  if response.length < 12 then ⟨[], some none⟩
  else match readUint16 response 6 with
    | none => ⟨[(0, 12)], none⟩
    | some ancount =>
      if ancount = 0 then ⟨[(0, 12)], some none⟩
      else
        let question := skipName response 12
        let answers := walkAnswers response ancount.toNat (question.result + 4)
        ⟨(0, 12) :: question.reads ++ answers.reads, answers.result⟩

/-- `resolve`: the reply to the query, if it could be sent at all. -/
def resolve (reply : Bytes → Option Bytes) (hostname : Bytes) (queryId : UInt16) : Option (Option Bytes) :=
  match reply (buildQuery hostname queryId) with
  | none => some none
  | some rawResponse => if rawResponse = [] then some none else (resolveResponse rawResponse).result

/-- One more byte of the datagram is read. -/
theorem Walk.Inside.byte {data : Bytes} {walk : Walk ℕ} (h : walk.Inside data) {len : Byte}
    (hlen : data[walk.result]? = some len) :
    ∀ range ∈ walk.reads ++ [(walk.result, 1)], range.Inside data := by
  obtain ⟨hend, -⟩ := List.getElem?_eq_some_iff.mp hlen
  rw [List.forall_mem_append, List.forall_mem_singleton, ByteRange.inside_iff hend.le]
  exact ⟨h, hend⟩

/-- A name is read inside of the datagram. -/
theorem skipName_inside (data : Bytes) (offset : ℕ) : (skipName data offset).Inside data := by
  unfold skipName
  apply Loop.run_induction _ (Walk.Inside data) (Walk.Inside data)
  · intro walk walk' hinside h
    dsimp only at h
    split at h
    · cases h
    · next len hlen =>
      split_ifs at h
      cases h
      exact hinside.byte hlen
  · intro walk result hinside h
    dsimp only at h
    split at h
    · cases h
      exact hinside
    · next len hlen =>
      split_ifs at h
      all_goals
        cases h
        exact hinside.byte hlen
  · exact nofun

variable {response : Bytes} {offset : ℕ}

/-- Two bytes of the datagram make a number. -/
theorem exists_readUint16 (h : offset + 2 ≤ response.length) : ∃ v, readUint16 response offset = some v := by
  rw [readUint16, List.getElem?_eq_getElem (by omega), List.getElem?_eq_getElem (by omega)]
  exact ⟨_, rfl⟩

/-- The fixed part of a record starts here, and it is complete. -/
def RecordAt (response : Bytes) (offset : ℕ) (type rdlength : UInt16) : Prop :=
  offset + 10 ≤ response.length ∧ readUint16 response offset = some type ∧
    readUint16 response (offset + 8) = some rdlength

/-- The record is an IPv4 address. -/
abbrev IsAddress (type rdlength : UInt16) : Prop := type = 1 ∧ rdlength = 4

/-- The fixed part of the answer record with this index is looked for here: all records before it are
complete but for their data, and none is an address. -/
inductive Reached (response : Bytes) (start : ℕ) : ℕ → ℕ → Prop
  | first : Reached response start 0 (skipName response start).result
  | next {i offset : ℕ} {type rdlength : UInt16} (hbefore : Reached response start i offset)
      (hrecord : RecordAt response offset type rdlength) (hother : ¬IsAddress type rdlength) :
      Reached response start (i + 1) (skipName response (offset + 10 + rdlength.toNat)).result

/-- The first address that is reached has its four bytes in the datagram. -/
def AddressInside (response : Bytes) (ancount start : ℕ) : Prop :=
  ∀ i < ancount, ∀ offset, Reached response start i offset →
    ∀ type rdlength, RecordAt response offset type rdlength → IsAddress type rdlength →
      offset + 14 ≤ response.length

/-- Where a walk from the second record on arrives, the whole walk arrives one record later. -/
theorem Reached.cons {start i pos : ℕ} {type rdlength : UInt16}
    (hrecord : RecordAt response (skipName response start).result type rdlength)
    (hother : ¬IsAddress type rdlength)
    (h : Reached response ((skipName response start).result + 10 + rdlength.toNat) i pos) :
    Reached response start (i + 1) pos := by
  induction h with
  | first => exact .next .first hrecord hother
  | next hbefore hnext hnot ih => exact .next ih hnext hnot

/-- Where the whole walk arrives after its first record, a walk from the second one arrives. -/
theorem Reached.of_succ {start i pos : ℕ} {type rdlength : UInt16}
    (hrecord : RecordAt response (skipName response start).result type rdlength)
    (h : Reached response start (i + 1) pos) :
    Reached response ((skipName response start).result + 10 + rdlength.toNat) i pos := by
  induction i generalizing pos with
  | zero =>
    cases h with
    | next hbefore hfirst hnot =>
      cases hbefore
      cases Option.some.inj (hrecord.2.2.symm.trans hfirst.2.2)
      exact .first
  | succ i ih =>
    cases h with
    | next hbefore hnext hnot => exact .next (ih hbefore) hnext hnot

/-- Behind a first record that is incomplete or an address none is reached. -/
theorem Reached.eq_first {start i pos : ℕ} (h : Reached response start i pos)
    (hlast : ∀ type rdlength, RecordAt response (skipName response start).result type rdlength →
      IsAddress type rdlength) :
    i = 0 ∧ pos = (skipName response start).result := by
  induction h with
  | first => exact ⟨rfl, rfl⟩
  | next hbefore hrecord hnot ih => exact absurd (hlast _ _ (ih.2 ▸ hrecord)) hnot

/-- A record whose fixed part fits has one. -/
theorem exists_recordAt (h : offset + 10 ≤ response.length) :
    ∃ type rdlength, RecordAt response offset type rdlength := by
  obtain ⟨type, htype⟩ := @exists_readUint16 response offset (by omega)
  obtain ⟨rdlength, hlength⟩ := @exists_readUint16 response (offset + 8) (by omega)
  exact ⟨type, rdlength, h, htype, hlength⟩

/-- A position has one fixed part at most. -/
theorem RecordAt.unique {type rdlength type' rdlength' : UInt16} (h : RecordAt response offset type rdlength)
    (h' : RecordAt response offset type' rdlength') : type = type' ∧ rdlength = rdlength' :=
  ⟨Option.some.inj (h.2.1.symm.trans h'.2.1), Option.some.inj (h.2.2.symm.trans h'.2.2)⟩

/-- The fixed part is read inside of the datagram, if its end is there. -/
theorem fixedPart_inside {start : ℕ} (h : (skipName response start).result + 10 ≤ response.length)
    (ranges : List ByteRange) :
    (∀ range ∈ (skipName response start).reads ++
        [((skipName response start).result, 2), ((skipName response start).result + 8, 2)] ++ ranges,
      range.Inside response) ↔ ∀ range ∈ ranges, range.Inside response := by
  rw [List.append_assoc, List.forall_mem_append, List.forall_mem_append, List.forall_mem_cons,
    List.forall_mem_singleton, ByteRange.inside_iff (by omega), ByteRange.inside_iff (by omega)]
  constructor
  · exact fun hall => hall.2.2
  · exact fun hranges => ⟨skipName_inside response start, ⟨by omega, by omega⟩, hranges⟩

/-- The walk stays inside of the datagram exactly if the address that it finds does. -/
theorem walkAnswers_inside_iff (response : Bytes) (n start : ℕ) :
    (walkAnswers response n start).Inside response ↔ AddressInside response n start := by
  induction n generalizing start with
  | zero => exact iff_of_true nofun nofun
  | succ n ih =>
    unfold walkAnswers
    by_cases hend : (skipName response start).result + 10 ≤ response.length
    · obtain ⟨type, rdlength, hrecord⟩ := exists_recordAt hend
      dsimp only
      rw [if_neg (Nat.not_lt.mpr hend), hrecord.2.1, hrecord.2.2]
      dsimp only
      by_cases haddress : IsAddress type rdlength
      · rw [if_pos haddress]
        refine (fixedPart_inside hend _).trans ?_
        rw [List.forall_mem_singleton, ByteRange.inside_iff hend]
        constructor
        · intro hinside i _ pos hreached _ _ _ _
          obtain ⟨-, rfl⟩ := hreached.eq_first fun type' rdlength' h' => by
            obtain ⟨rfl, rfl⟩ := hrecord.unique h'
            exact haddress
          exact hinside
        · intro hinside
          exact hinside 0 n.succ_pos _ .first type rdlength hrecord haddress
      · rw [if_neg haddress]
        refine (fixedPart_inside hend _).trans ((ih _).trans ?_)
        constructor
        · intro hrest i hi pos hreached type' rdlength' hrecord' haddress'
          cases i with
          | zero =>
            cases hreached
            obtain ⟨rfl, rfl⟩ := hrecord.unique hrecord'
            exact absurd haddress' haddress
          | succ i =>
            exact hrest i (Nat.lt_of_succ_lt_succ hi) pos (hreached.of_succ hrecord) type' rdlength' hrecord' haddress'
        · intro hall i hi pos hreached
          exact hall (i + 1) (Nat.succ_lt_succ hi) pos (hreached.cons hrecord haddress)
    · dsimp only
      rw [if_pos (Nat.lt_of_not_le hend)]
      refine iff_of_true (skipName_inside response start) ?_
      intro i _ pos hreached type rdlength hrecord
      obtain ⟨-, rfl⟩ := hreached.eq_first fun _ _ h' => absurd h'.1 hend
      exact absurd hrecord.1 hend

/-- A walk that stays inside of the datagram has a result. -/
theorem exists_walkAnswers {n start : ℕ} (h : (walkAnswers response n start).Inside response) :
    ∃ address, (walkAnswers response n start).result = some address := by
  induction n generalizing start with
  | zero => exact ⟨none, rfl⟩
  | succ n ih =>
    unfold walkAnswers at h ⊢
    by_cases hend : (skipName response start).result + 10 ≤ response.length
    · obtain ⟨type, rdlength, hrecord⟩ := exists_recordAt hend
      dsimp only at h ⊢
      rw [if_neg (Nat.not_lt.mpr hend), hrecord.2.1, hrecord.2.2] at h ⊢
      dsimp only at h ⊢
      by_cases haddress : IsAddress type rdlength
      · rw [if_pos haddress] at h ⊢
        have hbytes := (fixedPart_inside hend _).mp h
        rw [List.forall_mem_singleton, ByteRange.inside_iff hend] at hbytes
        rw [readAddress, if_pos hbytes]
        exact ⟨_, rfl⟩
      · rw [if_neg haddress] at h ⊢
        exact ih ((fixedPart_inside hend _).mp h)
    · dsimp only
      rw [if_pos (Nat.lt_of_not_le hend)]
      exact ⟨none, rfl⟩

/-- `resolve` reads the bytes of the datagram only, exactly if the first address record among the
answers, when the records before it and its own fixed part are complete, has its four bytes in it. -/
theorem resolve_inside_iff (response : Bytes) :
    (resolveResponse response).Inside response ↔
      (12 ≤ response.length → ∀ ancount ∈ readUint16 response 6,
        AddressInside response ancount.toNat ((skipName response 12).result + 4)) := by
  unfold resolveResponse
  split_ifs with hshort
  · exact iff_of_true nofun fun h => absurd hshort (Nat.not_lt.mpr h)
  · obtain ⟨ancount, hcount⟩ := @exists_readUint16 response 6 (by omega)
    rw [hcount, imp_iff_right (Nat.not_lt.mp hshort)]
    simp only [Option.mem_some_iff, forall_eq']
    split_ifs with hzero
    · refine iff_of_true ?_ ?_
      · exact List.forall_mem_singleton.mpr ((ByteRange.inside_iff (Nat.zero_le _)).mpr (by omega))
      · subst hzero
        exact nofun
    · rw [← walkAnswers_inside_iff]
      unfold Walk.Inside
      rw [List.cons_append, List.forall_mem_cons, List.forall_mem_append, ByteRange.inside_iff (Nat.zero_le _)]
      constructor
      · exact fun hinside => hinside.2.2
      · exact fun hinside => ⟨by omega, skipName_inside response 12, hinside⟩

/-- A reply whose one address has no bytes: the name of the question and of the answer are the root. -/
theorem resolve_leaves_datagram :
    ¬(resolveResponse ([0, 0, 0x81, 0x80, 0, 1, 0, 1, 0, 0, 0, 0] ++ [0, 0, 1, 0, 1] ++
        [0, 0, 1, 0, 1, 0, 0, 0, 0, 0, 4])).Inside
      ([0, 0, 0x81, 0x80, 0, 1, 0, 1, 0, 0, 0, 0] ++ [0, 0, 1, 0, 1] ++ [0, 0, 1, 0, 1, 0, 0, 0, 0, 0, 4]) := by
  intro h
  have haddress := h (28, 4) (by decide +kernel)
  exact absurd (haddress 0 (by decide)) (by decide)

/-- A walk inside of the datagram gives an address or nothing. -/
theorem exists_resolveResponse (h : (resolveResponse response).Inside response) :
    ∃ address, (resolveResponse response).result = some address := by
  unfold resolveResponse at h ⊢
  split_ifs at h ⊢ with hshort
  · exact ⟨none, rfl⟩
  · obtain ⟨ancount, hcount⟩ := @exists_readUint16 response 6 (by omega)
    rw [hcount] at h ⊢
    dsimp only at h ⊢
    split_ifs at h ⊢ with hzero
    · exact ⟨none, rfl⟩
    · unfold Walk.Inside at h
      rw [List.cons_append, List.forall_mem_cons, List.forall_mem_append] at h
      exact exists_walkAnswers h.2.2

end ZeroTrust
