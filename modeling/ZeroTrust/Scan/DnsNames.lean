import ZeroTrust.Scan.Dns

/-!
# Names in DNS messages

Which bytes `skip_name` passes as one name, and for which hostnames `encode_hostname` writes such bytes: the
encoder cuts the length of a label to one byte, and the skipper takes long lengths for pointers.
-/

namespace ZeroTrust

/-- What a round of `skip_name` does. -/
theorem exists_skipLoop (data : Bytes) : ∃ loop : Loop (Walk ℕ) (Walk ℕ),
    (∀ offset, skipName data offset = loop.run ⟨[], offset⟩) ∧
    ∀ walk, loop.step walk =
      match data[walk.result]? with
      | none => .inr walk
      | some len =>
        if len &&& 0xC0 = 0xC0 then .inr ⟨walk.reads ++ [(walk.result, 1)], walk.result + 2⟩
        else if len = 0 then .inr ⟨walk.reads ++ [(walk.result, 1)], walk.result + 1⟩
        else .inl ⟨walk.reads ++ [(walk.result, 1)], walk.result + (1 + len.toNat)⟩ :=
  ⟨_, fun _ => rfl, fun _ => rfl⟩

/-- The end of a name, label by label. -/
theorem skipName_result (data : Bytes) (offset : ℕ) : (skipName data offset).result =
    match data[offset]? with
    | none => offset
    | some len =>
      if len &&& 0xC0 = 0xC0 then offset + 2
      else if len = 0 then offset + 1
      else (skipName data (offset + (1 + len.toNat))).result := by
  obtain ⟨loop, hrun, hstep⟩ := exists_skipLoop data
  -- Where the loop ends does not depend on what it has read so far.
  have hreads : ∀ (n : ℕ) (walk : Walk ℕ), data.length - walk.result ≤ n →
      (loop.run walk).result = (loop.run ⟨[], walk.result⟩).result := by
    intro n
    induction n with
    | zero =>
      intro walk hn
      have hnone : data[walk.result]? = none := List.getElem?_eq_none (by omega)
      rw [loop.run_eq walk, loop.run_eq ⟨[], walk.result⟩, hstep, hstep]
      simp only [hnone]
    | succ n ih =>
      intro walk hn
      rw [loop.run_eq walk, loop.run_eq ⟨[], walk.result⟩, hstep, hstep]
      dsimp only
      cases hlen : data[walk.result]? with
      | none => rfl
      | some len =>
        dsimp only
        by_cases hpointer : len &&& 0xC0 = 0xC0
        · rw [if_pos hpointer, if_pos hpointer]
        · rw [if_neg hpointer, if_neg hpointer]
          by_cases hzero : len = 0
          · rw [if_pos hzero, if_pos hzero]
          · rw [if_neg hzero, if_neg hzero]
            dsimp only
            rw [ih _ (by dsimp only; omega), ih ⟨[] ++ _, _⟩ (by dsimp only; omega)]
  rw [hrun, loop.run_eq, hstep]
  dsimp only
  cases hlen : data[offset]? with
  | none => rfl
  | some len =>
    dsimp only
    split_ifs
    · rfl
    · rfl
    · rw [hrun]
      exact hreads _ _ le_rfl

/-- The two high bits of a byte are set from 192 on. -/
theorem pointerTag_iff (len : Byte) : len &&& 0xC0 = 0xC0 ↔ 192 ≤ len.toNat := by
  have hall : ∀ n < 256, (n &&& 192 = 192 ↔ 192 ≤ n) := by decide +kernel
  rw [← hall len.toNat len.toNat_lt, ← UInt8.toNat_inj]
  rfl

/-- Bytes that read as one name: labels of up to 191 bytes, closed by a zero byte or a pointer. -/
inductive NameBytes : Bytes → Prop
  | root : NameBytes [0]
  | pointer {hi lo : Byte} (htag : 192 ≤ hi.toNat) : NameBytes [hi, lo]
  | label {len : Byte} {text rest : Bytes} (hpos : 0 < len.toNat) (hlen : len.toNat < 192)
      (htext : text.length = len.toNat) (hrest : NameBytes rest) : NameBytes (len :: (text ++ rest))

variable {xs ys name : Bytes}

/-- The byte behind a part. -/
theorem getElem?_behind (xs : Bytes) (c : Byte) (ys : Bytes) : (xs ++ c :: ys)[xs.length]? = some c := by simp

/-- A name is passed, whatever follows. -/
theorem NameBytes.skipName (h : NameBytes name) (xs ys : Bytes) :
    (ZeroTrust.skipName (xs ++ (name ++ ys)) xs.length).result = (xs ++ name).length := by
  induction h generalizing xs with
  | root =>
    rw [skipName_result, List.cons_append, getElem?_behind]
    simp only [List.length_append, List.length_singleton]
    rw [if_neg (by decide), if_pos trivial]
  | @pointer hi lo htag =>
    rw [skipName_result, List.cons_append, getElem?_behind]
    simp only [if_pos ((pointerTag_iff hi).mpr htag), List.length_append, List.length_cons, List.length_nil]
  | @label len text rest hpos hlen htext hrest ih =>
    have hnot : ¬(len &&& 0xC0 = 0xC0) := fun h => absurd ((pointerTag_iff len).mp h) (by omega)
    have hne : len ≠ 0 := by
      rintro rfl
      exact absurd hpos (by decide)
    have hnext := ih (xs ++ len :: text)
    have hposition : xs.length + (1 + len.toNat) = (xs ++ len :: text).length := by
      rw [List.length_append, List.length_cons, htext]
      omega
    have hsame : xs ++ (len :: (text ++ rest) ++ ys) = xs ++ len :: text ++ (rest ++ ys) := by simp
    rw [skipName_result, List.cons_append, getElem?_behind]
    simp only [if_neg hnot, if_neg hne]
    rw [← List.cons_append, hsame, hposition, hnext]
    simp only [List.append_assoc, List.cons_append]

/-- The end of a name is not before its start. -/
theorem le_skipName_result (data : Bytes) (offset : ℕ) : offset ≤ (skipName data offset).result := by
  induction hn : data.length - offset using Nat.strongRecOn generalizing offset with
  | ind n ih =>
    rw [skipName_result]
    cases hlen : data[offset]? with
    | none => exact le_rfl
    | some len =>
      have hlt := (List.getElem?_eq_some_iff.mp hlen).1
      dsimp only
      split_ifs
      · exact Nat.le_add_right _ _
      · exact Nat.le_add_right _ _
      · exact (Nat.le_add_right _ _).trans (ih _ (by omega) _ rfl)

/-- Something is passed, if there is anything to read. -/
theorem lt_skipName_result {data : Bytes} {offset : ℕ} (h : offset < data.length) :
    offset < (skipName data offset).result := by
  rw [skipName_result, List.getElem?_eq_getElem h]
  dsimp only
  split_ifs
  · exact Nat.lt_add_of_pos_right (by decide)
  · exact Nat.lt_add_of_pos_right (by decide)
  · exact Nat.lt_of_lt_of_le (Nat.lt_add_of_pos_right (Nat.add_pos_left Nat.one_pos _)) (le_skipName_result _ _)

/-- What is passed exactly, with something behind it, is a name. -/
theorem nameBytes_of_skipName (name xs ys : Bytes) (hys : ys ≠ [])
    (h : (skipName (xs ++ (name ++ ys)) xs.length).result = xs.length + name.length) : NameBytes name := by
  induction hn : name.length using Nat.strongRecOn generalizing name xs with
  | ind n ih =>
    cases name with
    | nil =>
      have hpos := List.length_pos_iff.mpr hys
      have hlt := @lt_skipName_result (xs ++ ([] ++ ys)) xs.length (by simpa using hpos)
      rw [h] at hlt
      exact absurd hlt (lt_irrefl _)
    | cons len tail =>
      rw [skipName_result, List.cons_append, getElem?_behind, List.length_cons] at h
      dsimp only at h
      split_ifs at h with hpointer hzero
      · obtain ⟨lo, rfl⟩ := List.length_eq_one_iff.mp (Nat.succ.inj (Nat.add_left_cancel h)).symm
        exact .pointer ((pointerTag_iff len).mp hpointer)
      · obtain rfl := List.eq_nil_of_length_eq_zero (Nat.succ.inj (Nat.add_left_cancel h)).symm
        subst hzero
        exact .root
      · have hlen : len.toNat < 192 := Nat.lt_of_not_le fun hle => hpointer ((pointerTag_iff len).mpr hle)
        have hpos : 0 < len.toNat := Nat.pos_of_ne_zero fun h0 => hzero (UInt8.toNat_inj.mp h0)
        -- The label ends inside of the name, since the walk does not go back.
        have hle : len.toNat ≤ tail.length := by
          have hforward := le_skipName_result (xs ++ len :: (tail ++ ys)) (xs.length + (1 + len.toNat))
          rw [h] at hforward
          omega
        have htext : (tail.take len.toNat).length = len.toNat := List.length_take_of_le hle
        have hposition : xs.length + (1 + len.toNat) = (xs ++ len :: tail.take len.toNat).length := by
          rw [List.length_append, List.length_cons, htext]
          omega
        have hdata : xs ++ len :: (tail ++ ys) = xs ++ len :: tail.take len.toNat ++ (tail.drop len.toNat ++ ys) := by
          rw [List.append_assoc, List.cons_append, ← List.append_assoc (tail.take _), List.take_append_drop]
        rw [hposition, hdata] at h
        have hrest := ih (tail.drop len.toNat).length (by rw [List.length_drop, ← hn, List.length_cons]; omega)
          (tail.drop len.toNat) (xs ++ len :: tail.take len.toNat)
          (by rw [h, ← hposition, List.length_drop]; omega) rfl
        have hlabel := NameBytes.label hpos hlen htext hrest
        rwa [List.take_append_drop] at hlabel

/-- The labels of a hostname with the terminator. -/
def encodeLabels (labels : List Bytes) : Bytes := labels.flatMap (fun label => label.length.toUInt8 :: label) ++ [0]

/-- Every label has a length that one byte can say: from 1 to 191 modulo 256. Behind a label of 256 bytes or
more, what the name goes on with has to read as one by chance. -/
def LabelsFit : List Bytes → Prop
  | [] => True
  | label :: labels => 1 ≤ label.length % 256 ∧ label.length % 256 ≤ 191 ∧
      if label.length < 256 then LabelsFit labels
      else NameBytes (label.drop (label.length % 256) ++ encodeLabels labels)

/-- There is a root label at least. -/
theorem encodeLabels_ne_nil (labels : List Bytes) : encodeLabels labels ≠ [] :=
  List.append_ne_nil_of_right_ne_nil _ (List.cons_ne_nil 0 [])

/-- A name is encoded label by label. -/
theorem encodeHostname_eq (hostname : Bytes) : encodeHostname hostname = encodeLabels (getlines 46 hostname) := rfl

/-- A label of a hostname reads as one exactly if its length does, and the rest reads as a name. -/
theorem nameBytes_label_iff {label rest : Bytes} (hrest : rest ≠ []) :
    NameBytes (label.length.toUInt8 :: (label ++ rest)) ↔
      1 ≤ label.length % 256 ∧ label.length % 256 ≤ 191 ∧ NameBytes (label.drop (label.length % 256) ++ rest) := by
  have hnat : label.length.toUInt8.toNat = label.length % 256 := UInt8.toNat_ofNat'
  have hmod : label.length % 256 ≤ label.length := Nat.mod_le _ _
  constructor
  · intro h
    generalize hname : label.length.toUInt8 :: (label ++ rest) = name at h
    cases h with
    | root =>
      have htail := (List.cons.inj hname).2
      exact absurd (List.append_eq_nil_iff.mp htail).2 hrest
    | pointer htag =>
      obtain ⟨rfl, htail⟩ := List.cons.inj hname
      have hlength := congrArg List.length htail
      rw [List.length_append, List.length_singleton] at hlength
      rw [hnat] at htag
      omega
    | @label len text tail hpos hlen htext htail =>
      obtain ⟨rfl, heq⟩ := List.cons.inj hname
      rw [hnat] at hpos hlen htext
      have hdrop := congrArg (List.drop (label.length % 256)) heq
      rw [List.drop_append_of_le_length hmod, ← htext, List.drop_left] at hdrop
      rw [htext] at hdrop
      exact ⟨hpos, Nat.le_of_lt_succ hlen, hdrop ▸ htail⟩
  · rintro ⟨hpos, hlen, htail⟩
    have hlabel := NameBytes.label (hnat ▸ hpos) (hnat ▸ Nat.lt_succ_of_le hlen)
      (show (label.take (label.length % 256)).length = label.length.toUInt8.toNat by
        rw [hnat, List.length_take_of_le hmod]) htail
    rwa [← List.append_assoc, List.take_append_drop] at hlabel

/-- The encoding of a hostname is a name exactly if its labels fit. -/
theorem nameBytes_encodeLabels_iff (labels : List Bytes) : NameBytes (encodeLabels labels) ↔ LabelsFit labels := by
  induction labels with
  | nil => exact iff_of_true .root trivial
  | cons label labels ih =>
    have hsplit : encodeLabels (label :: labels) = label.length.toUInt8 :: (label ++ encodeLabels labels) := by
      rw [encodeLabels, List.flatMap_cons, List.append_assoc, List.cons_append]
      rfl
    rw [hsplit, nameBytes_label_iff (encodeLabels_ne_nil labels), LabelsFit]
    apply and_congr_right
    intro _
    apply and_congr_right
    intro _
    split
    · next hshort => rw [Nat.mod_eq_of_lt hshort, List.drop_length, List.nil_append, ih]
    · rfl

/-- The encoding of a hostname is passed as one name, whatever follows, exactly if the labels of the hostname
fit; so it is in the query that is sent. -/
theorem encoded_hostname_passed_iff (hostname : Bytes) (queryId : UInt16) :
    ((∀ r, (skipName ((buildQuery hostname queryId).take 12 ++ (encodeHostname hostname ++ r)) 12).result =
      12 + (encodeHostname hostname).length) ↔ LabelsFit (getlines 46 hostname)) ∧
    ((skipName (buildQuery hostname queryId) 12).result = 12 + (encodeHostname hostname).length ↔
      LabelsFit (getlines 46 hostname)) := by
  have hheader : ((buildQuery hostname queryId).take 12).length = 12 := rfl
  have hquery : buildQuery hostname queryId =
      (buildQuery hostname queryId).take 12 ++ (encodeHostname hostname ++ [0, 1, 0, 1]) := rfl
  have hpassed : LabelsFit (getlines 46 hostname) → ∀ r,
      (skipName ((buildQuery hostname queryId).take 12 ++ (encodeHostname hostname ++ r)) 12).result =
        12 + (encodeHostname hostname).length := by
    intro hfit r
    rw [← nameBytes_encodeLabels_iff, ← encodeHostname_eq] at hfit
    have hskip := hfit.skipName ((buildQuery hostname queryId).take 12) r
    rwa [List.length_append, hheader] at hskip
  have hfit : (skipName (buildQuery hostname queryId) 12).result = 12 + (encodeHostname hostname).length →
      LabelsFit (getlines 46 hostname) := by
    intro hskip
    rw [← nameBytes_encodeLabels_iff, ← encodeHostname_eq]
    apply nameBytes_of_skipName _ ((buildQuery hostname queryId).take 12) [0, 1, 0, 1] (List.cons_ne_nil _ _)
    rw [← hquery, hheader]
    exact hskip
  constructor
  · exact ⟨fun hall => hfit (hquery ▸ hall [0, 1, 0, 1]), hpassed⟩
  · exact ⟨hfit, fun h => hquery ▸ hpassed h [0, 1, 0, 1]⟩

/-- An empty label is taken for the end of the name. -/
theorem empty_label_ends_name :
    ¬∀ (hostname : Bytes) (queryId : UInt16) (r : Bytes),
      (skipName ((buildQuery hostname queryId).take 12 ++ (encodeHostname hostname ++ r)) 12).result =
        12 + (encodeHostname hostname).length := by
  intro h
  exact absurd (h (str "www..example.com") 1 [0, 1, 0, 1]) (by decide +kernel)

end ZeroTrust
