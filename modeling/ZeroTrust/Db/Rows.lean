import ZeroTrust.WebUi.Job
import ZeroTrust.Core.CString
import ZeroTrust.Lib.KeyedTable

/-!
# The database of finished scans

`core/db.cpp`: the rows in which ports and findings are stored, how they are written and how findings
are read back. SQLite is a store of the values that are bound: a statement names its columns, values are
bound and read by position, and text is bound and read as a C string. A failed step stores nothing, a
failed `COMMIT` or `ROLLBACK` leaves the transaction open, and there is one transaction at a time.
-/

namespace ZeroTrust

/-- A value that is bound to a parameter of a statement. -/
inductive SqlValue
  | text (s : Bytes)
  | integer (i : ℤ)
  | real (r : ℚ)
deriving DecidableEq

/-- The columns of `scan_ports` and `scan_findings`. -/
inductive Column
  | scanId | number | protocol | service | product | version | distro | tls
  | idx | pluginName | title | description | severity | confidence | confidenceScore | verification
  | host | portNumber | scope | evidence | evidenceType | evidenceSource | evidenceDetails
  | referenceList | remediation | cvss | cvssVector | timestamp | cveId
deriving DecidableEq

/-- The tables that results are stored in. -/
inductive TableName
  | scanPorts | scanFindings
deriving DecidableEq

/-- A row of one of the tables. -/
structure SqlRow where
  table : TableName
  columns : List (Column × SqlValue)
deriving DecidableEq

/-- The value of a column. -/
def SqlRow.value (row : SqlRow) (column : Column) : SqlValue :=
  (row.columns.lookup column).getD (.text [])

/-- The primary key: the scan, and the port or the position of the finding. -/
def SqlRow.key (row : SqlRow) : (TableName × SqlValue) × List SqlValue :=
  match row.table with
  | .scanPorts => ((.scanPorts, row.value .scanId), [row.value .number, row.value .protocol])
  | .scanFindings => ((.scanFindings, row.value .scanId), [row.value .idx])

/-- Both tables. -/
abbrev Database := KeyedTable SqlRow.key

/-- `sqlite3_bind_text` of `c_str()` with length -1. -/
def bindText (s : Bytes) : SqlValue := .text (beforeNul s)

/-- `static_cast<int>` of a size. -/
def intOfSize (n : ℕ) : ℤ := Int.bmod n (2 ^ 32)

/-- `to_string(Confidence)`. -/
def Confidence.text : Confidence → Bytes
  | .unknown => str "UNKNOWN"
  | .versionMatch => str "VERSION_MATCH"
  | .verified => str "VERIFIED"

/-- `join_references`. -/
def joinReferences (references : List Bytes) : Bytes :=
  references.foldl (fun out reference => (if out ≠ [] then out ++ [124] else out) ++ reference) []

/-- The columns that `save_ports` names. -/
def portColumns : List Column := [.scanId, .number, .protocol, .service, .product, .version, .distro, .tls]

/-- The row that `save_ports` binds. -/
def portRow (scanId : Bytes) (p : Port) : SqlRow where
  table := .scanPorts
  columns := portColumns.zip
    [bindText scanId, .integer p.number.toNat, bindText p.protocol.text, bindText p.service,
      bindText p.product, bindText p.version, bindText p.distro, .integer (if p.tls then 1 else 0)]

/-- The columns that `save_findings` names. -/
def findingColumns : List Column :=
  [.scanId, .idx, .pluginName, .title, .description, .severity, .confidence, .confidenceScore, .verification,
    .host, .portNumber, .protocol, .scope, .service, .product, .version, .evidence, .evidenceType,
    .evidenceSource, .evidenceDetails, .referenceList, .remediation, .cvss, .cvssVector, .timestamp, .cveId]

/-- The row that `save_findings` binds for the finding at a position. -/
def findingRow (scanId : Bytes) (f : Finding) (i : ℕ) : SqlRow where
  table := .scanFindings
  columns := findingColumns.zip
    [bindText scanId, .integer (intOfSize i), bindText f.pluginName, bindText f.title, bindText f.description,
      bindText f.severity.text, bindText f.confidence.text, .real f.confidenceScore, bindText f.verification,
      bindText f.host, .integer f.portNumber.toNat, bindText f.protocol.text, bindText f.scope,
      bindText f.service, bindText f.product, bindText f.version, bindText f.evidence,
      bindText f.evidenceData.type, bindText f.evidenceData.source, bindText f.evidenceData.details,
      bindText (joinReferences f.references), bindText f.remediation, .real f.cvss, bindText f.cvssVector,
      .integer f.timestamp, bindText f.cveId]

/-- The columns that `load_findings` selects. -/
def selectedColumns : List Column :=
  [.pluginName, .title, .description, .severity, .confidence, .confidenceScore, .verification, .host,
    .portNumber, .protocol, .scope, .service, .product, .version, .evidence, .evidenceType, .evidenceSource,
    .evidenceDetails, .referenceList, .remediation, .cvss, .cvssVector, .timestamp, .cveId]

/-- A column of the result. -/
def resultColumn (row : SqlRow) (k : ℕ) : SqlValue := ((selectedColumns[k]?).map row.value).getD (.text [])

/-- `std::string` of `sqlite3_column_text`. -/
def columnText (row : SqlRow) (k : ℕ) : Bytes :=
  match resultColumn row k with
  | .text s => beforeNul s
  | _ => []

/-- `sqlite3_column_int` and `sqlite3_column_int64`. -/
def columnInt (row : SqlRow) (k : ℕ) : ℤ :=
  match resultColumn row k with
  | .integer i => i
  | _ => 0

/-- `sqlite3_column_double`. -/
def columnDouble (row : SqlRow) (k : ℕ) : ℚ :=
  match resultColumn row k with
  | .real r => r
  | _ => 0

/-- `parse_severity`. -/
def parseSeverity (v : Bytes) : Severity :=
  if v = str "CRITICAL" then .critical
  else if v = str "HIGH" then .high
  else if v = str "MEDIUM" then .medium
  else if v = str "LOW" then .low
  else .info

/-- `parse_conf`. -/
def parseConf (v : Bytes) : Confidence :=
  if v = str "VERIFIED" then .verified
  else if v = str "VERSION_MATCH" then .versionMatch
  else .unknown

/-- How `load_findings` reads a protocol. -/
def parseProtocol (v : Bytes) : Protocol :=
  if v = str "TCP" then .tcp
  else if v = str "UDP" then .udp
  else if v = str "ICMP" then .icmp
  else .unknown

/-- `split_references`. -/
def splitReferences (value : Bytes) : List Bytes := (getlines 124 value).filter (· ≠ [])

/-- The finding that `load_findings` makes of a row. -/
def findingOfRow (row : SqlRow) : Finding where
  pluginName := columnText row 0
  title := columnText row 1
  description := columnText row 2
  severity := parseSeverity (columnText row 3)
  confidence := parseConf (columnText row 4)
  confidenceScore := columnDouble row 5
  verification := columnText row 6
  host := columnText row 7
  portNumber := (columnInt row 8 % 65536).toNat.toUInt16
  protocol := parseProtocol (columnText row 9)
  scope := columnText row 10
  service := columnText row 11
  product := columnText row 12
  version := columnText row 13
  evidence := columnText row 14
  evidenceData := ⟨columnText row 15, columnText row 16, columnText row 14, columnText row 17⟩
  references := splitReferences (columnText row 18)
  remediation := columnText row 19
  cvss := columnDouble row 20
  cvssVector := columnText row 21
  timestamp := columnInt row 22
  cveId := columnText row 23

/-- What the rows of a finding are ordered by. -/
def SqlRow.idx (row : SqlRow) : ℤ :=
  match row.value .idx with
  | .integer i => i
  | _ => 0

/-- The rows of a scan in one of the tables. -/
def SqlRow.Of (table : TableName) (scanId : Bytes) (row : SqlRow) : Prop :=
  row.key.1 = (table, bindText scanId)

instance (table : TableName) (scanId : Bytes) (row : SqlRow) : Decidable (row.Of table scanId) :=
  inferInstanceAs (Decidable (_ = _))

/-- `load_findings`. -/
def loadFindings (db : Database) (scanId : Bytes) : List Finding :=
  ((db.rows.filter fun row => row.Of .scanFindings scanId).mergeSort fun a b => a.idx ≤ b.idx).map findingOfRow

/-- A connection: what a reader on it would see, and what a rollback would return to while a transaction
is open. -/
structure Connection where
  stored : Database
  transaction : Option Database := none

/-- The answers of SQLite to all calls of `save_ports` or `save_findings`. -/
structure SavePattern extends SaveCalls where
  steps : ℕ → Bool

/-- `exec_("BEGIN")`. -/
def Connection.execBegin (conn : Connection) (failure : Option Bytes) : Except Bytes Unit × Connection :=
  if conn.transaction.isSome then
    (dbExec (some (str "cannot start a transaction within a transaction")), conn)
  else match failure with
    | none => (.ok (), { conn with transaction := some conn.stored })
    | some _ => (dbExec failure, conn)

/-- `exec_("COMMIT")`. -/
def Connection.execCommit (conn : Connection) (failure : Option Bytes) : Except Bytes Unit × Connection :=
  (dbExec failure, if failure.isNone then { conn with transaction := none } else conn)

/-- `exec_("ROLLBACK")`. -/
def Connection.execRollback (conn : Connection) (failure : Option Bytes) : Except Bytes Unit × Connection :=
  (dbExec failure,
    if failure.isNone then ⟨conn.transaction.getD conn.stored, none⟩ else conn)

/-- The rows that are stored when some of the steps fail. -/
def storedRows (steps : ℕ → Bool) (rows : List SqlRow) : List SqlRow :=
  (rows.zipIdx.filter fun entry => steps entry.2).map Prod.fst

/-- The control flow that `save_ports` and `save_findings` share. -/
def Connection.save (conn : Connection) (rows : List SqlRow) (calls : SavePattern) :
    Except Bytes Unit × Connection :=
  match conn.execBegin calls.begins with
  | (.error message, conn) => (.error message, conn)
  | (.ok (), conn) =>
    if calls.prepares then
      { conn with stored := conn.stored.putAll (storedRows calls.steps rows) : Connection }.execCommit calls.commits
    else conn.execRollback calls.rollsBack

/-- `save_ports`. -/
def savePorts (conn : Connection) (scanId : Bytes) (ports : List Port) (calls : SavePattern) :
    Except Bytes Unit × Connection :=
  conn.save (ports.map (portRow scanId)) calls

/-- `save_findings`. -/
def saveFindings (conn : Connection) (scanId : Bytes) (findings : List Finding) (calls : SavePattern) :
    Except Bytes Unit × Connection :=
  conn.save (findings.zipIdx.map fun entry => findingRow scanId entry.1 entry.2) calls

end ZeroTrust
