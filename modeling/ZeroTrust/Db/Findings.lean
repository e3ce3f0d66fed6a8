import ZeroTrust.Db.Transactions
import ZeroTrust.Scan.Cve
import Mathlib.Data.Int.Interval

/-!
# Findings after a restart

What `load_findings` gives back of what `save_findings` stored.
-/

namespace ZeroTrust

/-- A finding after it was stored and read back. -/
def Finding.reloaded (f : Finding) : Finding :=
  { f with
    pluginName := beforeNul f.pluginName
    title := beforeNul f.title
    verification := beforeNul f.verification
    host := beforeNul f.host
    scope := beforeNul f.scope
    service := beforeNul f.service
    product := beforeNul f.product
    version := beforeNul f.version
    description := beforeNul f.description
    evidence := beforeNul f.evidence
    evidenceData :=
      ⟨beforeNul f.evidenceData.type, beforeNul f.evidenceData.source, beforeNul f.evidence,
        beforeNul f.evidenceData.details⟩
    references := splitReferences (beforeNul (joinReferences f.references))
    remediation := beforeNul f.remediation
    cvssVector := beforeNul f.cvssVector
    cveId := beforeNul f.cveId }

/-- A severity is read back from its stored name. -/
theorem parseSeverity_text (s : Severity) : parseSeverity (beforeNul s.text) = s := by
  cases s <;> decide

/-- A confidence is read back from its stored name. -/
theorem parseConf_text (c : Confidence) : parseConf (beforeNul c.text) = c := by
  cases c <;> decide

/-- A protocol is read back from its stored name. -/
theorem parseProtocol_text (p : Protocol) : parseProtocol (beforeNul p.text) = p := by
  cases p <;> decide

/-- A port number is read back from the integer of its column. -/
theorem toUInt16_toNat_mod (n : UInt16) : ((n.toNat : ℤ) % 65536).toNat.toUInt16 = n := by
  have h : ((n.toNat : ℤ) % 65536).toNat = n.toNat := by
    have := n.toNat_lt
    omega
  rw [h]
  exact UInt16.ofNat_toNat

/-- A finding comes back from its row without what the row does not hold. -/
theorem findingOfRow_findingRow (scanId : Bytes) (f : Finding) (i : ℕ) :
    findingOfRow (findingRow scanId f i) = f.reloaded := by
  have htext : ∀ k s, resultColumn (findingRow scanId f i) k = bindText s →
      columnText (findingRow scanId f i) k = beforeNul s := by
    intro k s h
    rw [columnText, h]
    exact beforeNul_beforeNul s
  have hport : columnInt (findingRow scanId f i) 8 = f.portNumber.toNat := rfl
  have htime : columnInt (findingRow scanId f i) 22 = f.timestamp := rfl
  have hscore : columnDouble (findingRow scanId f i) 5 = f.confidenceScore := rfl
  have hcvss : columnDouble (findingRow scanId f i) 20 = f.cvss := rfl
  unfold findingOfRow
  rw [htext 0 f.pluginName rfl, htext 1 f.title rfl, htext 2 f.description rfl, htext 3 f.severity.text rfl,
    htext 4 f.confidence.text rfl, hscore, htext 6 f.verification rfl, htext 7 f.host rfl, hport,
    htext 9 f.protocol.text rfl, htext 10 f.scope rfl, htext 11 f.service rfl, htext 12 f.product rfl,
    htext 13 f.version rfl, htext 14 f.evidence rfl, htext 15 f.evidenceData.type rfl,
    htext 16 f.evidenceData.source rfl, htext 17 f.evidenceData.details rfl,
    htext 18 (joinReferences f.references) rfl, htext 19 f.remediation rfl, hcvss, htext 21 f.cvssVector rfl,
    htime, htext 23 f.cveId rfl, parseSeverity_text, parseConf_text, parseProtocol_text, toUInt16_toNat_mod]
  rfl

/-- Joining with a separator, from a text that is not empty on. -/
theorem foldl_join {out : Bytes} (hout : out ≠ []) (references : List Bytes) :
    references.foldl (fun out reference => (if out ≠ [] then out ++ [124] else out) ++ reference) out =
      out ++ references.flatMap (124 :: ·) := by
  induction references generalizing out with
  | nil => simp
  | cons reference references ih =>
    rw [List.foldl_cons, if_pos hout, ih (by simp), List.flatMap_cons]
    simp

/-- A reference that comes back: it is not empty and contains no separator and no zero byte. -/
structure PlainReference (reference : Bytes) : Prop where
  ne_nil : reference ≠ []
  separatorFree : (124 : Byte) ∉ reference
  nulFree : NulFree reference

/-- Plain references are what comes of splitting them again. -/
theorem getlines_join {reference : Bytes} {references : List Bytes} (h : PlainReference reference)
    (hrest : ∀ r ∈ references, PlainReference r) :
    getlines 124 (reference ++ references.flatMap (124 :: ·)) = reference :: references := by
  induction references generalizing reference with
  | nil =>
    rw [List.flatMap_nil, List.append_nil]
    exact getlines_of_not_mem h.separatorFree h.ne_nil
  | cons r references ih =>
    obtain ⟨hr, hrest⟩ := List.forall_mem_cons.mp hrest
    rw [List.flatMap_cons, List.cons_append, getlines_append_cons h.separatorFree, ih hr hrest]

/-- Behind the first reference every other one has its separator. -/
theorem joinReferences_cons {reference : Bytes} (h : reference ≠ []) (references : List Bytes) :
    joinReferences (reference :: references) = reference ++ references.flatMap (124 :: ·) := by
  rw [joinReferences, List.foldl_cons]
  exact foldl_join h references

/-- Plain references survive. -/
theorem splitReferences_join {references : List Bytes} (h : ∀ r ∈ references, PlainReference r) :
    splitReferences (beforeNul (joinReferences references)) = references := by
  cases references with
  | nil => rfl
  | cons reference references =>
    obtain ⟨hfirst, hrest⟩ := List.forall_mem_cons.mp h
    have hfree : NulFree (joinReferences (reference :: references)) := by
      rw [joinReferences_cons hfirst.ne_nil]
      intro hzero
      rcases List.mem_append.mp hzero with hzero | hzero
      · exact hfirst.nulFree hzero
      · obtain ⟨r, hr, hzero⟩ := List.mem_flatMap.mp hzero
        exact (hrest r hr).nulFree (List.mem_of_ne_of_mem (by decide) hzero)
    rw [beforeNul_eq_self.mpr hfree, joinReferences_cons hfirst.ne_nil, splitReferences,
      getlines_join hfirst hrest, List.filter_eq_self]
    intro r hr
    exact decide_eq_true (h r hr).ne_nil

/-- References that are read back are plain. -/
theorem plain_of_mem_split {value r : Bytes} (h : r ∈ splitReferences (beforeNul value)) : PlainReference r := by
  obtain ⟨hline, hne⟩ := List.mem_filter.mp h
  exact ⟨of_decide_eq_true hne, not_mem_of_mem_getlines hline,
    (nulFree_beforeNul value).of_sublist (sublist_of_mem_getlines hline)⟩

/-- The text fields of a finding, the two that are not stored as such apart. -/
def Finding.texts (f : Finding) : List Bytes :=
  [f.pluginName, f.title, f.verification, f.host, f.scope, f.service, f.product, f.version, f.description,
    f.evidence, f.evidenceData.type, f.evidenceData.source, f.evidenceData.details, f.remediation,
    f.cvssVector, f.cveId]

/-- A finding that survives a restart. -/
structure Finding.Persistable (f : Finding) : Prop where
  texts : ∀ s ∈ f.texts, NulFree s
  value : f.evidenceData.value = f.evidence
  references : ∀ r ∈ f.references, PlainReference r

/-- What was read back can be stored again. -/
theorem Finding.reloaded_persistable (f : Finding) : f.reloaded.Persistable where
  texts := by
    intro s hs
    change s ∈ [f.pluginName, f.title, f.verification, f.host, f.scope, f.service, f.product, f.version,
      f.description, f.evidence, f.evidenceData.type, f.evidenceData.source, f.evidenceData.details,
      f.remediation, f.cvssVector, f.cveId].map beforeNul at hs
    obtain ⟨t, -, rfl⟩ := List.mem_map.mp hs
    exact nulFree_beforeNul t
  value := rfl
  references := fun _ => plain_of_mem_split

/-- Reading back changes nothing exactly for persistable findings. -/
theorem Finding.reloaded_eq_self {f : Finding} : f.reloaded = f ↔ f.Persistable := by
  constructor
  · intro h
    rw [← h]
    exact f.reloaded_persistable
  · intro h
    have htext : ∀ s ∈ f.texts, beforeNul s = s := fun s hs => beforeNul_eq_self.mpr (h.texts s hs)
    simp only [Finding.texts, List.forall_mem_cons] at htext
    obtain ⟨hplugin, htitle, hverification, hhost, hscope, hservice, hproduct, hversion, hdescription, hevidence,
      htype, hsource, hdetails, hremediation, hvector, hcve, -⟩ := htext
    have hdata : (⟨f.evidenceData.type, f.evidenceData.source, f.evidence, f.evidenceData.details⟩ : Evidence) =
        f.evidenceData := by rw [← h.value]
    unfold Finding.reloaded
    rw [hplugin, htitle, hverification, hhost, hscope, hservice, hproduct, hversion, hdescription, hevidence,
      htype, hsource, hdetails, hremediation, hvector, hcve, splitReferences_join h.references, hdata]

/-- The findings in the order in which their rows are read: those whose position wrapped come first. -/
def wrapped (fs : List Finding) : List Finding := fs.drop (2 ^ 31) ++ fs.take (2 ^ 31)

/-- A size below `2 ^ 32` is itself or `2 ^ 32` less. -/
theorem intOfSize_cases (n : ℕ) :
    n % 2 ^ 32 < 2 ^ 31 ∧ intOfSize n = (n % 2 ^ 32 : ℕ) ∨
      2 ^ 31 ≤ n % 2 ^ 32 ∧ intOfSize n = (n % 2 ^ 32 : ℕ) - 2 ^ 32 := by
  unfold intOfSize Int.bmod
  dsimp only
  split
  · left
    omega
  · right
    omega

/-- The rows of a vector of findings. -/
def findingRows (scanId : Bytes) (fs : List Finding) : List SqlRow :=
  fs.zipIdx.map fun entry => findingRow scanId entry.1 entry.2

variable {scanId : Bytes} {fs : List Finding}

/-- A row has the place of its finding in the list. -/
theorem idx_findingRow (f : Finding) (i : ℕ) : (findingRow scanId f i).idx = intOfSize i := rfl

/-- The key of a row is the place of its finding. -/
theorem key_findingRow (f : Finding) (i : ℕ) :
    (findingRow scanId f i).key = ((.scanFindings, bindText scanId), [.integer (intOfSize i)]) := rfl

/-- Each finding has a row. -/
@[simp] theorem length_findingRows : (findingRows scanId fs).length = fs.length := by
  simp [findingRows]

/-- The rows are in the order of the findings. -/
theorem getElem_findingRows {i : ℕ} (h : i < (findingRows scanId fs).length) :
    (findingRows scanId fs)[i] = findingRow scanId (fs.get ⟨i, by simpa using h⟩) i := by
  simp [findingRows]

/-- A row of the vector is that of a finding at its position. -/
theorem exists_of_mem_findingRows {row : SqlRow} (h : row ∈ findingRows scanId fs) :
    ∃ f i, row = findingRow scanId f i := by
  obtain ⟨⟨f, i⟩, -, rfl⟩ := List.mem_map.mp h
  exact ⟨f, i, rfl⟩

/-- The rows read back one by one. -/
theorem map_findingOfRow : (findingRows scanId fs).map findingOfRow = fs.map Finding.reloaded := by
  rw [findingRows, List.map_map]
  apply List.ext_getElem
  · simp
  · intro i _ _
    simp [findingOfRow_findingRow]

/-- Positions below `2 ^ 32` give different keys. -/
theorem nodup_findingRows (h : fs.length ≤ 2 ^ 32) : ((findingRows scanId fs).map SqlRow.key).Nodup := by
  rw [List.nodup_iff_injective_getElem]
  intro ⟨i, hi⟩ ⟨j, hj⟩ hij
  rw [List.length_map, length_findingRows] at hi hj
  simp only [List.getElem_map, getElem_findingRows, key_findingRow] at hij
  have hint : intOfSize i = intOfSize j := by simpa using hij
  have hi' := intOfSize_cases i
  have hj' := intOfSize_cases j
  apply Fin.ext
  change i = j
  omega

/-- The rows in the order of their keys. -/
theorem pairwise_wrapped (h : fs.length ≤ 2 ^ 32) :
    ((findingRows scanId fs).drop (2 ^ 31) ++ (findingRows scanId fs).take (2 ^ 31)).Pairwise
      fun a b => a.idx < b.idx := by
  rw [List.pairwise_append]
  refine ⟨?_, ?_, ?_⟩
  · rw [List.pairwise_iff_getElem]
    intro i j hi hj hij
    rw [List.length_drop, length_findingRows] at hi hj
    rw [List.getElem_drop, List.getElem_drop, getElem_findingRows, getElem_findingRows, idx_findingRow,
      idx_findingRow]
    have hi' := intOfSize_cases (2 ^ 31 + i)
    have hj' := intOfSize_cases (2 ^ 31 + j)
    omega
  · rw [List.pairwise_iff_getElem]
    intro i j hi hj hij
    rw [List.length_take, length_findingRows] at hi hj
    rw [List.getElem_take, List.getElem_take, getElem_findingRows, getElem_findingRows, idx_findingRow,
      idx_findingRow]
    have hi' := intOfSize_cases i
    have hj' := intOfSize_cases j
    omega
  · intro a ha b hb
    obtain ⟨i, hi, rfl⟩ := List.mem_drop_iff_getElem.mp ha
    obtain ⟨j, hj, rfl⟩ := List.mem_take_iff_getElem.mp hb
    rw [length_findingRows] at hi hj
    rw [getElem_findingRows, getElem_findingRows, idx_findingRow, idx_findingRow]
    have hi' := intOfSize_cases (2 ^ 31 + i)
    have hj' := intOfSize_cases j
    omega

/-- Rows of the vector at the same position are the same. -/
theorem eq_of_idx_eq (h : fs.length ≤ 2 ^ 32) {a b : SqlRow} (ha : a ∈ findingRows scanId fs)
    (hb : b ∈ findingRows scanId fs) (hidx : a.idx = b.idx) : a = b := by
  obtain ⟨i, hi, rfl⟩ := List.getElem_of_mem ha
  obtain ⟨j, hj, rfl⟩ := List.getElem_of_mem hb
  rw [getElem_findingRows, getElem_findingRows, idx_findingRow, idx_findingRow] at hidx
  rw [length_findingRows] at hi hj
  have hi' := intOfSize_cases i
  have hj' := intOfSize_cases j
  have hij : i = j := by omega
  subst hij
  rfl

/-- Sorting by position puts the rows whose position wrapped first. -/
theorem mergeSort_findingRows (h : fs.length ≤ 2 ^ 32) :
    ((findingRows scanId fs).mergeSort fun a b => a.idx ≤ b.idx) =
      (findingRows scanId fs).drop (2 ^ 31) ++ (findingRows scanId fs).take (2 ^ 31) := by
  have hperm : ((findingRows scanId fs).drop (2 ^ 31) ++ (findingRows scanId fs).take (2 ^ 31)).Perm
      (findingRows scanId fs) :=
    List.perm_append_comm.trans (List.Perm.of_eq (List.take_append_drop _ _))
  have hsort := List.mergeSort_perm (findingRows scanId fs) fun a b => a.idx ≤ b.idx
  have hsorted : ((findingRows scanId fs).mergeSort fun a b => a.idx ≤ b.idx).Pairwise
      fun a b => a.idx ≤ b.idx := by
    simpa only [decide_eq_true_eq] using
      List.pairwise_mergeSort
        (fun a b c hab hbc => decide_eq_true ((of_decide_eq_true hab).trans (of_decide_eq_true hbc)))
        (fun a b => by simpa using le_total a.idx b.idx) (findingRows scanId fs)
  exact List.Perm.eq_of_pairwise
    (fun a b ha hb hab hba => eq_of_idx_eq h (hsort.subset ha) (hperm.subset hb) (le_antisymm hab hba))
    hsorted ((pairwise_wrapped h).imp le_of_lt) (hsort.trans hperm.symm)

/-- No row of the scan is stored. -/
def Database.NoFindings (db : Database) (scanId : Bytes) : Prop := ∀ row ∈ db.rows, ¬row.Of .scanFindings scanId

/-- What is read back of a vector that is stored. -/
theorem loadFindings_putAll {db : Database} (hnew : db.NoFindings scanId) (h : fs.length ≤ 2 ^ 32) :
    loadFindings (db.putAll (findingRows scanId fs)) scanId = (wrapped fs).map Finding.reloaded := by
  have hof : ∀ row ∈ findingRows scanId fs, row.Of .scanFindings scanId := by
    intro row hrow
    obtain ⟨f, i, rfl⟩ := exists_of_mem_findingRows hrow
    rfl
  have hkeys : (db.rows.map SqlRow.key ++ (findingRows scanId fs).map SqlRow.key).Nodup := by
    rw [List.nodup_append]
    refine ⟨db.nodup, nodup_findingRows h, ?_⟩
    rintro _ hold _ hrow rfl
    obtain ⟨row, hrow, hkey⟩ := List.mem_map.mp hrow
    obtain ⟨old, hold, hkey'⟩ := List.mem_map.mp hold
    exact hnew old hold ((congrArg Prod.fst (hkey'.trans hkey.symm)).trans (hof row hrow))
  rw [loadFindings, KeyedTable.rows_putAll_of_nodup db hkeys, List.filter_append,
    List.filter_eq_nil_iff.mpr fun row hrow => by simpa using hnew row hrow, List.nil_append,
    List.filter_eq_self.mpr fun row hrow => decide_eq_true (hof row hrow), mergeSort_findingRows h,
    List.map_append, List.map_drop, List.map_take, map_findingOfRow, wrapped, List.map_append,
    List.map_drop, List.map_take]

/-- Rows of one scan with different keys are not more than there are positions. -/
theorem length_le_of_nodup {rows : List SqlRow} (hnodup : (rows.map SqlRow.key).Nodup)
    (hrow : ∀ row ∈ rows, ∃ f i, row = findingRow scanId f i) : rows.length ≤ 2 ^ 32 := by
  have hidx : (rows.map SqlRow.idx).Nodup := by
    apply List.Nodup.of_map fun i => ((TableName.scanFindings, bindText scanId), [SqlValue.integer i])
    rw [List.map_map]
    have hkey : ∀ row ∈ rows, ((TableName.scanFindings, bindText scanId), [SqlValue.integer row.idx]) = row.key := by
      intro row hmem
      obtain ⟨f, i, rfl⟩ := hrow row hmem
      rfl
    exact (List.map_congr_left hkey).symm ▸ hnodup
  have hsubset : (rows.map SqlRow.idx).toFinset ⊆ Finset.Ico (-2 ^ 31 : ℤ) (2 ^ 31) := by
    intro i hi
    obtain ⟨row, hmem, rfl⟩ := List.mem_map.mp (List.mem_toFinset.mp hi)
    obtain ⟨f, n, rfl⟩ := hrow row hmem
    rw [Finset.mem_Ico, idx_findingRow]
    have := intOfSize_cases n
    omega
  have hcard := Finset.card_le_card hsubset
  rw [List.toFinset_card_of_nodup hidx, List.length_map, Int.card_Ico] at hcard
  exact hcard

/-- What is read back of a vector fits into the positions. -/
theorem length_loadFindings_le {db : Database} (hnew : db.NoFindings scanId) :
    (loadFindings (db.putAll (findingRows scanId fs)) scanId).length ≤ 2 ^ 32 := by
  rw [loadFindings, List.length_map, List.length_mergeSort]
  apply length_le_of_nodup
  · exact (List.filter_sublist.map _).nodup (db.putAll (findingRows scanId fs)).nodup
  · intro row hrow
    obtain ⟨hmem, hof⟩ := List.mem_filter.mp hrow
    rcases KeyedTable.mem_of_mem_putAll hmem with hmem | hmem
    · exact exists_of_mem_findingRows hmem
    · exact absurd (of_decide_eq_true hof) (hnew row hmem)

/-- SQLite stores what it is given. -/
def SavePattern.Faithful (calls : SavePattern) : Prop :=
  calls.begins = none ∧ calls.prepares = true ∧ calls.commits = none ∧ ∀ i, calls.steps i = true

/-- A faithful save stores all rows. -/
theorem stored_saveFindings {conn : Connection} {calls : SavePattern} (hopen : conn.transaction = none)
    (hcalls : calls.Faithful) :
    (saveFindings conn scanId fs calls).2.stored = conn.stored.putAll (findingRows scanId fs) := by
  obtain ⟨hbegin, hprepares, -, hsteps⟩ := hcalls
  rw [saveFindings, save_of_prepares hopen hbegin hprepares, storedRows_of_all hsteps]
  rfl

/-- The same vector comes back exactly if its findings are persistable and their positions do not wrap,
or make no difference when they do. -/
theorem load_findings_eq_iff {conn : Connection} {calls : SavePattern} (scanId : Bytes) (fs : List Finding)
    (hopen : conn.transaction = none) (hcalls : calls.Faithful) (hnew : conn.stored.NoFindings scanId) :
    loadFindings (saveFindings conn scanId fs calls).2.stored scanId = fs ↔
      (∀ f ∈ fs, f.Persistable) ∧ fs.length ≤ 2 ^ 32 ∧ wrapped fs = fs := by
  rw [stored_saveFindings hopen hcalls]
  by_cases hlength : fs.length ≤ 2 ^ 32
  · rw [loadFindings_putAll hnew hlength, and_iff_right hlength]
    have hmem : ∀ f ∈ wrapped fs, f ∈ fs := by
      intro f hf
      rw [wrapped, List.mem_append, or_comm, ← List.mem_append, List.take_append_drop] at hf
      exact hf
    constructor
    · intro h
      have hall : ∀ f ∈ fs, f.Persistable := by
        intro f hf
        rw [← h] at hf
        obtain ⟨g, -, rfl⟩ := List.mem_map.mp hf
        exact g.reloaded_persistable
      refine ⟨hall, ?_⟩
      rwa [List.map_congr_left fun f hf => Finding.reloaded_eq_self.mpr (hall f (hmem f hf)), List.map_id'] at h
    · rintro ⟨hall, hwrapped⟩
      rw [hwrapped, List.map_congr_left fun f hf => Finding.reloaded_eq_self.mpr (hall f hf), List.map_id']
  · refine iff_of_false (fun h => hlength ?_) fun h => hlength h.2.1
    rw [← h]
    exact length_loadFindings_le hnew

/-- A finding with two references, on a new connection. -/
theorem load_findings_eq_two_references :
    loadFindings (saveFindings ⟨KeyedTable.empty, none⟩ [49]
        [{ title := str "Weak cipher", references := [str "a", str "b"] }]
        ⟨⟨none, true, none, none⟩, fun _ => true⟩).2.stored [49] =
      [{ title := str "Weak cipher", references := [str "a", str "b"] }] := by
  apply (load_findings_eq_iff [49] _ rfl ⟨rfl, rfl, rfl, fun _ => rfl⟩
    fun _ hrow => absurd hrow List.not_mem_nil).mpr
  refine ⟨?_, by decide, rfl⟩
  rw [List.forall_mem_singleton]
  exact ⟨by decide, rfl, List.forall_mem_cons.mpr ⟨⟨by decide, by decide, by decide⟩,
    List.forall_mem_singleton.mpr ⟨by decide, by decide, by decide⟩⟩⟩

/-- An entry that the fix table has a backport for. -/
def agentEntry : CveEntry where
  cveId := str "CVE-2023-38408"
  product := str "openssh"
  versionMin := str "5.5"
  versionMax := str "9.3"

/-- A server whose package has the backport. -/
def agentPort : Port := { opensshPort (str "3ubuntu0.17") with product := str "openssh" }

/-- The finding for a backported fix names the fix as its evidence, and after a restart the version. -/
theorem backport_finding_not_reloaded :
    ∃ fs, checkPort [agentEntry] (loadDistroFixes opensshFixes) (fun _ => 0) agentPort = some fs ∧
      loadFindings (saveFindings ⟨KeyedTable.empty, none⟩ [49] fs
        ⟨⟨none, true, none, none⟩, fun _ => true⟩).2.stored [49] ≠ fs := by
  have hany : ∃ fs ∈ checkPort [agentEntry] (loadDistroFixes opensshFixes) (fun _ => 0) agentPort,
      fs.length ≤ 1 ∧ ∃ f ∈ fs, f.evidenceData.value ≠ f.evidence := by
    decide
  obtain ⟨fs, hfs, hlength, f, hf, hvalue⟩ := hany
  refine ⟨fs, hfs, ?_⟩
  rw [stored_saveFindings rfl ⟨rfl, rfl, rfl, fun _ => rfl⟩,
    loadFindings_putAll (fun _ hrow => absurd hrow List.not_mem_nil) (hlength.trans (by decide))]
  intro h
  rw [← h] at hf
  obtain ⟨g, -, rfl⟩ := List.mem_map.mp hf
  exact hvalue g.reloaded_persistable.value

end ZeroTrust
