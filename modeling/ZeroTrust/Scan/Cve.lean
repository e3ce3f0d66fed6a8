import ZeroTrust.Scan.DistroFix
import Mathlib.Data.List.Forall2

/-!
# The CVE database

Version parsing and ranges, the queries over the database that plugins use, and the findings
that `check_port` makes of it. Loading the file is not modelled: every database is a list of
entries.
-/

namespace ZeroTrust

/-- `vuln::Version`; the raw text is not used by any comparison. -/
abbrev VersionComponents := List ℕ

/-- `std::stoi` on a run of digits; it throws above the range of `int`. -/
def stoiDigits (s : Bytes) : Option ℕ :=
  let n := digitsValue s
  if n < 2 ^ 31 then some n else none

/-- The loop of `VersionMatcher::parse` from a cursor, with the components so far. A component
beyond `int` clears them. -/
def parseComponents : ℕ → Bytes → VersionComponents → VersionComponents
  | 0, _, components => components
  | budget + 1, s, components =>
    let run := s.takeWhile isDigit
    if run = [] then components
    else match stoiDigits run with
      | none => []
      | some n =>
        match s.drop run.length with
        | 46 :: rest => parseComponents budget rest (components ++ [n])
        | _ => components ++ [n]

/-- `VersionMatcher::parse`; every iteration but the last consumes text. -/
def parseVersion (raw : Bytes) : VersionComponents :=
  let start := raw.dropWhile (!isDigit ·)
  parseComponents (start.length + 1) start []

/-- `VersionMatcher::compare`: missing components are zero. -/
def compareVersions (left right : VersionComponents) : ℤ :=
  orderingSign (paddedCompare compare 0 left right)

/-- `VersionMatcher::in_range`. -/
def versionInRange (version minimum maximum : Bytes) : Bool :=
  let parsed := parseVersion version
  if parsed.isEmpty then false
  else if minimum ≠ str "*" ∧ compareVersions parsed (parseVersion minimum) < 0 then false
  else if maximum ≠ str "*" ∧ compareVersions parsed (parseVersion maximum) > 0 then false
  else true

/-- `CveEntry`. -/
structure CveEntry where
  cveId : Bytes := []
  product : Bytes := []
  versionMin : Bytes := []
  versionMax : Bytes := []
  severity : Severity := .medium
  description : Bytes := []
  cvss : ℚ := -1
  cvssVector : Bytes := []
  remediation : Bytes := []
  references : List Bytes := []
deriving DecidableEq, Repr

/-- `product_matches`. -/
def productMatches (dbProduct portProduct : Bytes) : Bool := toLower dbProduct == toLower portProduct

/-- Product and version fall into the window of an entry. -/
def CveEntry.covers (entry : CveEntry) (product version : Bytes) : Bool :=
  productMatches entry.product product && versionInRange version entry.versionMin entry.versionMax

/-- `lookup`: the identifiers of the covering entries, separated by commas. -/
def cveLookup (database : List CveEntry) (product version : Bytes) : Bytes :=
  if product.isEmpty || version.isEmpty then []
  else (database.filter (·.covers product version)).foldl (fun out entry =>
    (if out.isEmpty then out else out ++ str ", ") ++ entry.cveId) []

/-- `CveMatch`. -/
structure CveMatch where
  cveId : Bytes
  product : Bytes
  version : Bytes
  severity : Bytes
  description : Bytes
  cvss : ℚ
  cvssVector : Bytes
  remediation : Bytes
  references : List Bytes
deriving DecidableEq, Repr

/-- `match`: the first covering entry with the identifier; an empty one means any. -/
def cveMatch (database : List CveEntry) (cveId product version : Bytes) : Option CveMatch :=
  if product.isEmpty || version.isEmpty then none
  else (database.find? fun entry =>
    (cveId.isEmpty || entry.cveId == cveId) && entry.covers product version).map fun entry =>
      { cveId := entry.cveId
        product := product
        version := version
        severity := entry.severity.text
        description := entry.description
        cvss := entry.cvss
        cvssVector := entry.cvssVector
        remediation := entry.remediation
        references := entry.references }

/-- `VerificationResult`. -/
structure VerificationResult where
  vulnerable : Bool := false
  cve : Bytes := []
  severity : Bytes := []
  title : Bytes := []
  description : Bytes := []
  evidence : Bytes := []
  evidenceData : Evidence := {}
  references : List Bytes := []
  remediation : Bytes := []
  cvss : ℚ := -1
  cvssVector : Bytes := []
  confidence : ℚ := 0
  verification : Bytes := str "UNKNOWN"
deriving DecidableEq, Repr

/-- `verify_version`. -/
def verifyVersion (database : List CveEntry) (cveId product version : Bytes) : VerificationResult :=
  if product.isEmpty || version.isEmpty then { cve := cveId }
  else match cveMatch database cveId product version with
    | none => { cve := cveId, verification := str "NOT_VULNERABLE" }
    | some found =>
      let evidence := found.product ++ str " " ++ found.version
      { vulnerable := true
        cve := found.cveId
        severity := found.severity
        title := found.cveId ++ str ": " ++ found.description
        description := found.description
        evidence := evidence
        evidenceData := ⟨str "version", str "cve-database", evidence, found.description⟩
        cvss := found.cvss
        cvssVector := found.cvssVector
        remediation := found.remediation
        references := found.references
        confidence := 1 / 2
        verification := str "VERSION_MATCH" }

/-- The finding of `check_port` for an entry before the backport decision. -/
def entryFinding (port : Port) (now : ℤ) (entry : CveEntry) : Finding :=
  let evidence := port.product ++ str " " ++ port.version
  { pluginName := str "cve-database"
    cveId := entry.cveId
    title := entry.cveId ++ str ": " ++ entry.description
    severity := entry.severity
    timestamp := now
    portNumber := port.number
    service := port.service
    product := port.product
    version := port.version
    protocol := port.protocol
    scope := str "PORT"
    evidence := evidence
    evidenceData := ⟨str "version", str "cve-database", evidence, entry.description⟩
    cvss := entry.cvss
    cvssVector := entry.cvssVector
    remediation := entry.remediation
    references := entry.references }

/-- The finding for an entry whose fix the distribution has shipped. -/
def patchedFinding (port : Port) (now : ℤ) (entry : CveEntry) (via : Bytes) : Finding :=
  { entryFinding port now entry with
    severity := .info
    confidence := .verified
    confidenceScore := 9 / 10
    verification := str "NOT_VULNERABLE"
    title := entry.cveId ++ str ": already patched by " ++ via
    description := str "Upstream version " ++ port.version ++ str " matches CVE range, " ++
      str "but the installed distro package appears to include the backport fix: " ++ via ++
      str ". Marking as NOT_VULNERABLE. Verify manually if the target is high-value."
    evidenceData := ⟨str "backport", str "distro-fix-table", via, entry.description⟩ }

/-- The warning attached to a bare version comparison. -/
def versionCaveat (port : Port) : Bytes :=
  str "This finding is based on version comparison only and has not been verified " ++
  str "against actual server behavior." ++
  if port.distro.isEmpty then []
  else str " Distribution tag detected (" ++ port.distro ++
    str ") which commonly backports security fixes without changing the upstream " ++
    str "version string. Confirm against the distribution security tracker before " ++
    str "treating this as exploitable."

/-- The finding for an entry that nothing is known to have fixed. -/
def versionMatchFinding (port : Port) (now : ℤ) (entry : CveEntry) : Finding :=
  { entryFinding port now entry with
    confidence := .versionMatch
    confidenceScore := 1 / 2
    verification := str "VERSION_MATCH"
    description := entry.description ++ str " " ++ versionCaveat port }

/-- The loop of `check_port`; `none` when a backport comparison hangs. `now i` is the clock at the
`i`-th finding. -/
def checkPortLoop (fixes : DistroTable) (now : ℕ → ℤ) (port : Port) :
    List CveEntry → List Finding → Option (List Finding)
  | [], findings => some findings
  | entry :: entries, findings =>
    if entry.covers port.product port.version then do
      let backport ← checkBackport fixes entry.cveId port
      let f := if backport.patched then patchedFinding port (now findings.length) entry backport.via
        else versionMatchFinding port (now findings.length) entry
      checkPortLoop fixes now port entries (findings ++ [f])
    else checkPortLoop fixes now port entries findings

/-- `check_port`. -/
def checkPort (database : List CveEntry) (fixes : DistroTable) (now : ℕ → ℤ) (port : Port) :
    Option (List Finding) :=
  if port.product.isEmpty || port.version.isEmpty then some []
  else checkPortLoop fixes now port database []

/-- A finding that `check_port` can make of an entry. -/
def FindingFor (fixes : DistroTable) (port : Port) (entry : CveEntry) (f : Finding) : Prop :=
  ∃ backport now, checkBackport fixes entry.cveId port = some backport ∧
    f = if backport.patched then patchedFinding port now entry backport.via
      else versionMatchFinding port now entry

/-- The loop of `check_port` adds one finding for every covering entry, in order. -/
theorem checkPortLoop_forall₂ {fixes : DistroTable} {now : ℕ → ℤ} {port : Port} {entries : List CveEntry}
    {before cves : List Finding} (h : checkPortLoop fixes now port entries before = some cves) :
    ∃ added, cves = before ++ added ∧
      List.Forall₂ (FindingFor fixes port) (entries.filter (·.covers port.product port.version)) added := by
  induction entries generalizing before with
  | nil =>
    cases h
    exact ⟨[], (List.append_nil _).symm, .nil⟩
  | cons entry entries ih =>
    unfold checkPortLoop at h
    split at h
    · next hcovers =>
      obtain ⟨backport, hbackport, h⟩ := Option.bind_eq_some_iff.mp h
      obtain ⟨added, rfl, hmade⟩ := ih h
      refine ⟨_ :: added, by rw [List.append_assoc, List.singleton_append], ?_⟩
      rw [List.filter_cons_of_pos (by exact hcovers)]
      exact .cons ⟨backport, _, hbackport, rfl⟩ hmade
    · next hcovers =>
      obtain ⟨added, rfl, hmade⟩ := ih h
      refine ⟨added, rfl, ?_⟩
      rw [List.filter_cons_of_neg (by exact hcovers)]
      exact hmade

/-- `check_port` makes one finding for every covering entry, in order. -/
theorem checkPort_forall₂ {database : List CveEntry} {fixes : DistroTable} {now : ℕ → ℤ} {port : Port}
    {cves : List Finding} (h : checkPort database fixes now port = some cves) (hproduct : port.product ≠ [])
    (hversion : port.version ≠ []) :
    List.Forall₂ (FindingFor fixes port) (database.filter (·.covers port.product port.version)) cves := by
  unfold checkPort at h
  split at h
  · next hempty => simp [hproduct, hversion] at hempty
  · obtain ⟨added, rfl, hmade⟩ := checkPortLoop_forall₂ h
    exact hmade

/-- What is related to a list in order has a source for each member. -/
theorem exists_mem_of_forall₂_right {α β : Type*} {R : α → β → Prop} {as : List α} {bs : List β}
    (h : List.Forall₂ R as bs) {b : β} (hb : b ∈ bs) : ∃ a ∈ as, R a b := by
  induction h with
  | nil => cases hb
  | cons hab _ ih =>
    obtain rfl | hb := List.mem_cons.mp hb
    · exact ⟨_, List.mem_cons_self, hab⟩
    · obtain ⟨a, ha, hab⟩ := ih hb
      exact ⟨a, List.mem_cons_of_mem _ ha, hab⟩

/-- And each member of the list has an image. -/
theorem exists_mem_of_forall₂_left {α β : Type*} {R : α → β → Prop} {as : List α} {bs : List β}
    (h : List.Forall₂ R as bs) {a : α} (ha : a ∈ as) : ∃ b ∈ bs, R a b :=
  exists_mem_of_forall₂_right h.flip ha

/-- `check_port` makes a finding for every covering entry and no other. -/
theorem checkPort_spec {database : List CveEntry} {fixes : DistroTable} {now : ℕ → ℤ} {port : Port}
    {cves : List Finding} (h : checkPort database fixes now port = some cves) :
    (∀ f ∈ cves, ∃ entry ∈ database, entry.covers port.product port.version ∧ FindingFor fixes port entry f) ∧
    (port.product ≠ [] → port.version ≠ [] → ∀ entry ∈ database, entry.covers port.product port.version →
      ∃ f ∈ cves, FindingFor fixes port entry f) := by
  have hmade : port.product ≠ [] → port.version ≠ [] →
      List.Forall₂ (FindingFor fixes port) (database.filter (·.covers port.product port.version)) cves :=
    checkPort_forall₂ h
  constructor
  · intro f hf
    have hopen : port.product ≠ [] ∧ port.version ≠ [] := by
      rw [← not_or]
      intro hempty
      unfold checkPort at h
      rw [if_pos (by simpa using hempty)] at h
      cases h
      cases hf
    obtain ⟨entry, hentry, hfor⟩ := exists_mem_of_forall₂_right (hmade hopen.1 hopen.2) hf
    obtain ⟨hmem, hcovers⟩ := List.mem_filter.mp hentry
    exact ⟨entry, hmem, hcovers, hfor⟩
  · intro hproduct hversion entry hmem hcovers
    exact exists_mem_of_forall₂_left (hmade hproduct hversion) (List.mem_filter.mpr ⟨hmem, hcovers⟩)

/-- What a finding of `check_port` always says. -/
theorem FindingFor.fields {fixes : DistroTable} {port : Port} {entry : CveEntry} {f : Finding}
    (h : FindingFor fixes port entry f) : f.cveId = entry.cveId ∧ f.portNumber = port.number ∧
      f.host = [] ∧ f.scope = str "PORT" := by
  obtain ⟨backport, now, -, rfl⟩ := h
  split <;> exact ⟨rfl, rfl, rfl, rfl⟩

/-- A fixed CVE is reported as not vulnerable. -/
theorem FindingFor.verification {fixes : DistroTable} {port : Port} {entry : CveEntry} {f : Finding}
    (h : FindingFor fixes port entry f) {backport : BackportOutcome}
    (hbackport : checkBackport fixes entry.cveId port = some backport) :
    f.verification = if backport.patched then str "NOT_VULNERABLE" else str "VERSION_MATCH" := by
  obtain ⟨backport', now, hbackport', rfl⟩ := h
  rw [hbackport] at hbackport'
  cases hbackport'
  split <;> rfl

end ZeroTrust
