import ZeroTrust.Db.Findings
import ZeroTrust.Db.Transactions

/-!
# The table of scans

The rest of `core/db.cpp`: a row for each scan, the ports of a scan, and the connection with all tables. Ports
and findings are saved in transactions; what is written while one is left open is lost with the process. SQLite
does not say in which order `list_scans` gets rows of one time.
-/

namespace ZeroTrust

/-- `core::ScanRow`. -/
structure ScanRow where
  id : Bytes
  userSub : Bytes := []
  target : Bytes
  portStart : ℤ
  portEnd : ℤ
  status : Bytes
  startedAt : ℤ
  completedAt : ℤ := 0
  scannedPorts : ℤ := 0
  error : Bytes := []
deriving DecidableEq, Repr

/-- The table `scans`. -/
abbrev ScanTable := KeyedTable ScanRow.id

/-- The columns that an update writes. -/
def ScanRow.withStatus (row : ScanRow) (status : Bytes) (completedAt scannedPorts : ℤ) (error : Bytes) : ScanRow :=
  { row with
    status := beforeNul status
    completedAt := completedAt
    scannedPorts := scannedPorts
    error := beforeNul error }

namespace ScanTable

/-- `upsert_scan`: a scan that is there keeps its owner, target, ports and beginning. -/
def upsertScan (scans : ScanTable) (r : ScanRow) : ScanTable :=
  match scans.find (beforeNul r.id) with
  | none => scans.put { r with
      id := beforeNul r.id
      userSub := beforeNul r.userSub
      target := beforeNul r.target
      status := beforeNul r.status
      error := beforeNul r.error }
  | some row => scans.put (row.withStatus r.status r.completedAt r.scannedPorts r.error)

/-- `update_scan_status`. -/
def updateScanStatus (scans : ScanTable) (id status : Bytes) (completedAt scannedPorts : ℤ) (error : Bytes) :
    ScanTable :=
  match scans.find (beforeNul id) with
  | none => scans
  | some row => scans.put (row.withStatus status completedAt scannedPorts error)

/-- `get_scan`. -/
def getScan (scans : ScanTable) (id : Bytes) : Option ScanRow := scans.find (beforeNul id)

/-- What `list_scans` may return: the latest rows first, and no more than the limit. -/
def Lists (scans : ScanTable) (limit : ℕ) (out : List ScanRow) : Prop :=
  ∃ rows : List ScanRow, rows.Perm scans.rows ∧ rows.Pairwise (fun a b => b.startedAt ≤ a.startedAt) ∧
    out = rows.take limit

variable (scans : ScanTable)

/-- An insertion concerns the row of its identifier. -/
theorem find_upsertScan (r : ScanRow) (k : Bytes) (h : beforeNul r.id ≠ k) :
    (scans.upsertScan r).find k = scans.find k := by
  unfold upsertScan
  cases hrow : scans.find (beforeNul r.id) with
  | none => exact (KeyedTable.find_put _ _ _).trans (if_neg h)
  | some row =>
    have hid : row.id = beforeNul r.id := KeyedTable.key_of_find hrow
    exact (KeyedTable.find_put _ _ _).trans (if_neg (fun hk => h (hid ▸ hk)))

/-- An insertion of a new scan. -/
theorem find_upsertScan_self (r : ScanRow) (h : scans.find (beforeNul r.id) = none) :
    (scans.upsertScan r).find (beforeNul r.id) = some { r with
      id := beforeNul r.id
      userSub := beforeNul r.userSub
      target := beforeNul r.target
      status := beforeNul r.status
      error := beforeNul r.error } := by
  unfold upsertScan
  rw [h, KeyedTable.find_put, if_pos rfl]

/-- What an update leaves of every row. -/
theorem find_updateScanStatus (id status : Bytes) (completedAt scannedPorts : ℤ) (error k : Bytes) :
    (scans.updateScanStatus id status completedAt scannedPorts error).find k =
      if beforeNul id = k then (scans.find k).map (·.withStatus status completedAt scannedPorts error)
      else scans.find k := by
  unfold updateScanStatus
  cases hrow : scans.find (beforeNul id) with
  | none =>
    split_ifs with hk
    · rw [← hk, hrow]
      rfl
    · rfl
  | some row =>
    have hid : row.id = beforeNul id := KeyedTable.key_of_find hrow
    rw [KeyedTable.find_put]
    show (if row.id = k then _ else _) = _
    rw [hid]
    split_ifs with hk
    · rw [← hk, hrow]
      rfl
    · rfl

end ScanTable

/-- `std::string` of a column of text. -/
def SqlValue.asText : SqlValue → Bytes
  | .text s => beforeNul s
  | _ => []

/-- A column of integers. -/
def SqlValue.asInt : SqlValue → ℤ
  | .integer i => i
  | _ => 0

/-- The port that `load_ports` makes of a row. -/
def portOfRow (row : SqlRow) : Port where
  number := ((row.value .number).asInt % 65536).toNat.toUInt16
  protocol := parseProtocol (row.value .protocol).asText
  state := .opened
  service := (row.value .service).asText
  product := (row.value .product).asText
  version := (row.value .version).asText
  distro := (row.value .distro).asText
  tls := (row.value .tls).asInt != 0

/-- The rows of a scan in one of the tables, in the order of the table. -/
def Database.scanRows (db : Database) (table : TableName) (scanId : Bytes) : List SqlRow :=
  db.rows.filter fun row => row.Of table scanId

/-- `load_ports`. -/
def loadPorts (db : Database) (scanId : Bytes) : List Port :=
  ((db.scanRows .scanPorts scanId).mergeSort fun a b => (a.value .number).asInt ≤ (b.value .number).asInt).map portOfRow

/-- A port after a restart: it was open, and its texts end at their first zero byte. -/
def Port.reloaded (p : Port) : Port where
  number := p.number
  protocol := p.protocol
  state := .opened
  service := beforeNul p.service
  product := beforeNul p.product
  version := beforeNul p.version
  distro := beforeNul p.distro
  tls := p.tls

/-- A port comes back from its row with its texts cut at their zero bytes. -/
theorem portOfRow_portRow (scanId : Bytes) (p : Port) : portOfRow (portRow scanId p) = p.reloaded := by
  have htext (s : Bytes) : (bindText s).asText = beforeNul s := beforeNul_beforeNul s
  obtain ⟨number, protocol, state, service, product, version, distro, tls⟩ := p
  simp only [portOfRow, Port.reloaded, Port.mk.injEq]
  refine ⟨toUInt16_toNat_mod number, ?_, trivial, htext service, htext product, htext version, htext distro, ?_⟩
  · exact (congrArg parseProtocol (beforeNul_beforeNul protocol.text)).trans (parseProtocol_text protocol)
  · cases tls <;> rfl

/-- Ports in the order of their numbers are read back in that order. -/
theorem loadPorts_of_rows {db : Database} {scanId : Bytes} {ps : List Port}
    (hrows : db.scanRows .scanPorts scanId = ps.map (portRow scanId)) (hsorted : ps.Pairwise (·.number < ·.number)) :
    loadPorts db scanId = ps.map Port.reloaded := by
  rw [loadPorts, hrows, List.mergeSort_of_pairwise, List.map_map]
  · exact List.map_congr_left fun p _ => portOfRow_portRow scanId p
  · rw [List.pairwise_map]
    refine hsorted.imp fun {a b} hab => ?_
    rw [decide_eq_true_eq]
    show (a.number.toNat : ℤ) ≤ b.number.toNat
    exact Int.ofNat_le.mpr (le_of_lt (UInt16.lt_iff_toNat_lt.mp hab))

/-- All tables. -/
structure Tables where
  scans : ScanTable := KeyedTable.empty
  results : Database := KeyedTable.empty

/-- A connection with all tables: what a reader on it sees, and what a rollback returns to while a transaction
is open. -/
structure HistoryDb where
  stored : Tables := {}
  transaction : Option Tables := none

namespace HistoryDb

/-- What is there when the process has ended. -/
def durable (db : HistoryDb) : Tables := db.transaction.getD db.stored

/-- The tables of results on this connection. -/
def connection (db : HistoryDb) : Connection := ⟨db.stored.results, db.transaction.map Tables.results⟩

/-- What a save of results leaves behind; a transaction begins with the other table as it is. -/
def afterSave (db : HistoryDb) (conn : Connection) : HistoryDb where
  stored := { db.stored with results := conn.stored }
  transaction := conn.transaction.map fun results => ⟨db.durable.scans, results⟩

/-- `exec_`, `sqlite3_step` and so on, for a statement on the table of scans. -/
def changeScans (db : HistoryDb) (f : ScanTable → ScanTable) : HistoryDb :=
  { db with stored := { db.stored with scans := f db.stored.scans } }

/-- The connection of the next process. -/
def reopen (db : HistoryDb) : HistoryDb where
  stored := db.durable

end HistoryDb

/-- What a save does to the connection: nothing, or it stores some of its rows, and it leaves at most its own
transaction behind. -/
theorem Connection.save_cases (conn : Connection) (rows : List SqlRow) (calls : SavePattern) :
    (conn.save rows calls).2 = conn ∨ conn.transaction = none ∧ ∃ stored, (∀ row ∈ stored, row ∈ rows) ∧
      (conn.save rows calls).2.stored = conn.stored.putAll stored ∧
      ((conn.save rows calls).2.transaction = none ∨ (conn.save rows calls).2.transaction = some conn.stored) := by
  by_cases hopen : conn.transaction = none
  · by_cases hbegin : calls.begins = none
    · refine .inr ⟨hopen, ?_⟩
      cases hprepares : calls.prepares with
      | false =>
        rw [save_of_prepares_eq_false hopen hbegin hprepares]
        refine ⟨[], fun _ hrow => absurd hrow List.not_mem_nil, rfl, ?_⟩
        cases calls.rollsBack with
        | none => exact .inl rfl
        | some message => exact .inr rfl
      | true =>
        rw [save_of_prepares hopen hbegin hprepares]
        refine ⟨storedRows calls.steps rows, fun _ => mem_of_mem_storedRows, rfl, ?_⟩
        cases calls.commits with
        | none => exact .inl rfl
        | some message => exact .inr rfl
    · exact .inl (save_of_begins hopen hbegin)
  · exact .inl (save_of_open hopen)

/-- Everything that is stored of a scan. -/
structure ScanRecord where
  row : Option ScanRow
  ports : List SqlRow
  findings : List SqlRow

/-- What the tables say of a scan. -/
def Tables.record (tables : Tables) (id : Bytes) : ScanRecord where
  row := tables.scans.getScan id
  ports := tables.results.scanRows .scanPorts id
  findings := tables.results.scanRows .scanFindings id

/-- Rows that are put concern their own scans. -/
theorem scanRows_putAll {db : Database} {rows : List SqlRow} {table : TableName} {scanId : Bytes}
    (h : ∀ row ∈ rows, ¬row.Of table scanId) :
    Database.scanRows (db.putAll rows) table scanId = db.scanRows table scanId := by
  induction rows using List.reverseRecOn with
  | nil => rfl
  | append_singleton rows row ih =>
    rw [KeyedTable.putAll_append_singleton]
    have hrow : ¬row.Of table scanId := h row (by simp)
    rw [← ih fun row hmem => h row (List.mem_append_left _ hmem)]
    -- the row takes the place of one with its key, which is of the same scan
    show ((insertMerge SqlRow.key (fun _ a => a) (db.putAll rows).rows row).filter fun row => row.Of table scanId) =
      (db.putAll rows).rows.filter fun row => row.Of table scanId
    generalize (db.putAll rows).rows = stored
    induction stored with
    | nil => simp only [insertMerge, List.filter_cons, decide_eq_true_eq, if_neg hrow]
    | cons b stored ihs =>
      rw [insertMerge]
      split_ifs with hkey
      · have hb : ¬b.Of table scanId := fun hb => hrow ((congrArg Prod.fst hkey).symm.trans hb)
        simp only [List.filter_cons, decide_eq_true_eq, if_neg hrow, if_neg hb]
      · rw [List.filter_cons, List.filter_cons, ihs]

/-- New rows of a scan that had none are its rows. -/
theorem scanRows_putAll_self {db : Database} {rows : List SqlRow} {table : TableName} {scanId : Bytes}
    (hnew : db.scanRows table scanId = []) (hof : ∀ row ∈ rows, row.Of table scanId)
    (hnodup : (rows.map SqlRow.key).Nodup) : Database.scanRows (db.putAll rows) table scanId = rows := by
  have hold : ∀ row ∈ db.rows, ¬row.Of table scanId := by
    intro row hrow hof
    have hmem : row ∈ db.scanRows table scanId := List.mem_filter.mpr ⟨hrow, decide_eq_true hof⟩
    rw [hnew] at hmem
    exact absurd hmem List.not_mem_nil
  have hkeys : (db.rows.map SqlRow.key ++ rows.map SqlRow.key).Nodup := by
    rw [List.nodup_append]
    refine ⟨db.nodup, hnodup, ?_⟩
    rintro _ hmem _ hmem' rfl
    obtain ⟨row, hrow, hkey⟩ := List.mem_map.mp hmem'
    obtain ⟨old, hold', hkey'⟩ := List.mem_map.mp hmem
    exact hold old hold' ((congrArg Prod.fst (hkey'.trans hkey.symm)).trans (hof row hrow))
  rw [Database.scanRows, KeyedTable.rows_putAll_of_nodup db hkeys, List.filter_append,
    List.filter_eq_nil_iff.mpr fun row hrow => by simpa using hold row hrow, List.nil_append,
    List.filter_eq_self.mpr fun row hrow => decide_eq_true (hof row hrow)]

namespace HistoryDb

variable {db : HistoryDb} {id other : Bytes}

/-- The same is seen of a scan, and would be seen after a rollback. -/
structure SameRecord (db db' : HistoryDb) (id : Bytes) : Prop where
  stored : db'.stored.record id = db.stored.record id
  durable : db'.durable.record id = db.durable.record id

/-- A record is the same as itself. -/
theorem SameRecord.refl (db : HistoryDb) (id : Bytes) : SameRecord db db id := ⟨rfl, rfl⟩

/-- A change of the table of scans that leaves a row alone. -/
theorem sameRecord_changeScans {f : ScanTable → ScanTable}
    (h : ∀ scans : ScanTable, (f scans).getScan other = scans.getScan other) :
    SameRecord db (db.changeScans f) other := by
  have hstored : (db.changeScans f).stored.record other = db.stored.record other := by
    simp only [Tables.record, changeScans, h]
  refine ⟨hstored, ?_⟩
  unfold durable
  show (db.transaction.getD (db.changeScans f).stored).record other = _
  cases db.transaction with
  | none => exact hstored
  | some tables => rfl

/-- Rows of one scan are not rows of another. -/
theorem not_of_other {row : SqlRow} {table table' : TableName} (h : beforeNul other ≠ beforeNul id)
    (hof : row.Of table id) : ¬row.Of table' other := by
  intro hother
  have hkey : (table, bindText id) = (table', bindText other) := hof.symm.trans hother
  exact h (SqlValue.text.inj (Prod.mk.inj hkey).2).symm

/-- A save that changes nothing leaves the database as it was. -/
theorem afterSave_connection (db : HistoryDb) : db.afterSave db.connection = db := by
  obtain ⟨stored, transaction⟩ := db
  cases transaction <;> rfl

/-- A save of one scan leaves the others alone, whatever fails. -/
theorem sameRecord_save {rows : List SqlRow} {table : TableName} (hof : ∀ row ∈ rows, row.Of table id)
    (calls : SavePattern) (h : beforeNul other ≠ beforeNul id) :
    SameRecord db (db.afterSave (db.connection.save rows calls).2) other := by
  rcases db.connection.save_cases rows calls with hsame | ⟨hopen, stored, hstored, hput, htransaction⟩
  · rw [hsame, afterSave_connection]
    exact .refl db other
  · have hnone : db.transaction = none := Option.map_eq_none_iff.mp hopen
    have hdurable : db.durable = db.stored := by rw [durable, hnone, Option.getD_none]
    have hrows (table' : TableName) : Database.scanRows (db.connection.stored.putAll stored) table' other =
        db.stored.results.scanRows table' other :=
      scanRows_putAll fun row hrow => not_of_other h (hof row (hstored row hrow))
    have hafter : (db.afterSave (db.connection.save rows calls).2).stored.record other = db.stored.record other := by
      simp only [Tables.record, afterSave, hput, hrows]
    refine ⟨hafter, ?_⟩
    rw [hdurable]
    rcases htransaction with hclosed | hleft
    · have : (db.afterSave (db.connection.save rows calls).2).durable =
          (db.afterSave (db.connection.save rows calls).2).stored := by
        rw [durable]
        show Option.getD (Option.map _ (db.connection.save rows calls).2.transaction) _ = _
        rw [hclosed]
        rfl
      rw [this, hafter]
    · have : (db.afterSave (db.connection.save rows calls).2).durable = db.stored := by
        rw [durable]
        show Option.getD (Option.map _ (db.connection.save rows calls).2.transaction) _ = _
        rw [hleft, hdurable]
        rfl
      rw [this]

end HistoryDb

/-- Results as `tcp_range_scan` orders them, and few enough for their positions. -/
structure OrderlyResults (ports : List Port) (findings : List Finding) : Prop where
  ports : ports.Pairwise (·.number < ·.number)
  findings : findings.length ≤ 2 ^ 31

/-- Ports with different numbers have rows with different keys. -/
theorem nodup_portRows {ps : List Port} (h : ps.Pairwise (·.number < ·.number)) (scanId : Bytes) :
    ((ps.map (portRow scanId)).map SqlRow.key).Nodup := by
  rw [List.map_map, List.Nodup, List.pairwise_map]
  refine h.imp fun {a b} hab hkey => ?_
  have hnumber : (SqlValue.integer a.number.toNat, bindText a.protocol.text) =
      (SqlValue.integer b.number.toNat, bindText b.protocol.text) := by
    have hkeys := (Prod.mk.inj hkey).2
    rw [List.cons.injEq, List.cons.injEq] at hkeys
    exact Prod.ext hkeys.1 hkeys.2.1
  have hnat : a.number.toNat = b.number.toNat := Int.ofNat.inj (SqlValue.integer.inj (Prod.mk.inj hnumber).1)
  exact absurd (UInt16.lt_iff_toNat_lt.mp hab) (by omega)

/-- Findings up to the last position are read back in their order. -/
theorem loadFindings_of_rows {db : Database} {scanId : Bytes} {fs : List Finding}
    (hrows : db.scanRows .scanFindings scanId = findingRows scanId fs) (h : fs.length ≤ 2 ^ 31) :
    loadFindings db scanId = fs.map Finding.reloaded := by
  have hrows' : (db.rows.filter fun row => row.Of .scanFindings scanId) = findingRows scanId fs := hrows
  have hdrop : (findingRows scanId fs).drop (2 ^ 31) = [] := List.drop_eq_nil_of_le (by rwa [length_findingRows])
  have htake : (findingRows scanId fs).take (2 ^ 31) = findingRows scanId fs :=
    List.take_of_length_le (by rwa [length_findingRows])
  rw [loadFindings, hrows', mergeSort_findingRows (h.trans (by omega)), hdrop, htake, List.nil_append, map_findingOfRow]

namespace HistoryDb

variable {db : HistoryDb} {id : Bytes} {calls : SavePattern}

/-- A faithful save outside a transaction is over when it returns, and has stored all rows. -/
theorem afterSave_faithful (hopen : db.transaction = none) (hcalls : calls.Faithful) (rows : List SqlRow) :
    db.afterSave (db.connection.save rows calls).2 =
      { stored := { db.stored with results := db.stored.results.putAll rows } } := by
  obtain ⟨hbegin, hprepares, hcommit, hsteps⟩ := hcalls
  have hconn : db.connection.transaction = none := by rw [connection, hopen, Option.map_none]
  rw [save_of_prepares hconn hbegin hprepares, storedRows_of_all hsteps, hcommit]
  rfl

/-- Ports that are saved faithfully. -/
theorem record_savePorts {ps : List Port} (hopen : db.transaction = none) (hcalls : calls.Faithful)
    (hnew : (db.stored.record id).ports = []) (hps : ps.Pairwise (·.number < ·.number)) :
    (db.afterSave (savePorts db.connection id ps calls).2).stored.record id =
      { db.stored.record id with ports := ps.map (portRow id) } := by
  have hof : ∀ row ∈ ps.map (portRow id), row.Of .scanPorts id := by
    intro row hrow
    obtain ⟨p, -, rfl⟩ := List.mem_map.mp hrow
    exact of_portRow p
  have hports := scanRows_putAll_self hnew hof (nodup_portRows hps id)
  have hfindings : Database.scanRows (db.stored.results.putAll (ps.map (portRow id))) .scanFindings id =
      db.stored.results.scanRows .scanFindings id :=
    scanRows_putAll fun row hrow hother => absurd ((hof row hrow).symm.trans hother) (by simp)
  rw [savePorts, afterSave_faithful hopen hcalls]
  simp only [Tables.record, hports, hfindings]

/-- Findings that are saved faithfully. -/
theorem record_saveFindings {fs : List Finding} (hopen : db.transaction = none) (hcalls : calls.Faithful)
    (hnew : (db.stored.record id).findings = []) (hfs : fs.length ≤ 2 ^ 31) :
    (db.afterSave (saveFindings db.connection id fs calls).2).stored.record id =
      { db.stored.record id with findings := findingRows id fs } := by
  have hof : ∀ row ∈ findingRows id fs, row.Of .scanFindings id := by
    intro row hrow
    obtain ⟨f, i, rfl⟩ := exists_of_mem_findingRows hrow
    exact of_findingRow f i
  have hfindings := scanRows_putAll_self hnew hof (nodup_findingRows (hfs.trans (by omega)))
  have hports : Database.scanRows (db.stored.results.putAll (findingRows id fs)) .scanPorts id =
      db.stored.results.scanRows .scanPorts id :=
    scanRows_putAll fun row hrow hother => absurd ((hof row hrow).symm.trans hother) (by simp)
  rw [saveFindings, show fs.zipIdx.map (fun entry => findingRow id entry.1 entry.2) = findingRows id fs from rfl,
    afterSave_faithful hopen hcalls]
  simp only [Tables.record, hports, hfindings]

/-- While a transaction is open, a save changes nothing. -/
theorem afterSave_of_open (h : db.transaction ≠ none) (rows : List SqlRow) :
    db.afterSave (db.connection.save rows calls).2 = db := by
  have hconn : db.connection.transaction ≠ none := fun hnone => h (Option.map_eq_none_iff.mp hnone)
  rw [save_of_open hconn, afterSave_connection]

end HistoryDb

end ZeroTrust
