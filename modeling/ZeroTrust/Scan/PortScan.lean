import ZeroTrust.Core.Dedup
import ZeroTrust.Scan.Cve
import ZeroTrust.Scan.Processor
import ZeroTrust.Scan.Terrapin
import ZeroTrust.Scan.TlsChecks
import ZeroTrust.Ztl.Steps

/-!
# The scan of one port

The task that `tcp_range_scan` enqueues for a port. It has no result when the process does not survive
it: when a send raises `SIGPIPE`, when a check or a plugin goes wrong beyond recovery, or when a
backport comparison hangs.
-/

namespace ZeroTrust

open Ztl (FindingOut LoadedPlugin DetectedInfo PortRun runForPort portNumber)

/-- What a scan is given besides the target. -/
structure ScanSetup where
  plugins : List LoadedPlugin
  cves : List CveEntry
  fixes : DistroTable
  patterns : List ServicePattern

/-- What the world answers to the task of one port. -/
structure PortWorld where
  state : PortState
  greeting : Bytes
  requested : Option Bool
  reply : Bytes
  ssh : SshServer
  sshClock : ℤ
  tls : TlsServer
  net : Ztl.Network
  clock : ℕ → ℤ

/-- `Tcp::connect`: the port as far as a connection tells. -/
def connectedPort (p : ℤ) (state : PortState) : Port where
  number := portNumber p
  protocol := .tcp
  state := state

/-- The banner: what the server says first, or its answer to an HTTP request. -/
def grabBanner (w : PortWorld) : Option Bytes :=
  let greeting := w.greeting.take 4096
  if greeting = [] then do
    if ← w.requested then return w.reply.take 4096
    return []
  else some greeting

/-- The loop over `registry`, which has one check, for `ssh`. -/
def runRegisteredChecks (port : Port) (w : PortWorld) : Option (Option Finding) :=
  if port.service = str "ssh" then checkTerrapin port w.ssh w.sshClock else some none

/-- `run_native_checks`: the checks registered for the service and the TLS checks. -/
def runNativeChecks (port : Port) (w : PortWorld) : Option (List Finding) := do
  let terrapin ← runRegisteredChecks port w
  return terrapin.toList ++ (← runTlsChecks port w.tls)

/-- The severity that a plugin names. -/
def severityOfText (text : Bytes) : Severity :=
  let sev := toUpper text
  if sev = str "CRITICAL" then .critical
  else if sev = str "HIGH" then .high
  else if sev = str "MEDIUM" then .medium
  else if sev = str "LOW" then .low
  else .info

/-- The confidence that goes with a verification. -/
def confidenceOfVerification (verification : Bytes) : Confidence :=
  if verification = str "ACTIVE_CHECK" then .verified
  else if verification = str "VERSION_MATCH" then .versionMatch
  else .unknown

/-- The finding that the scan makes of a plugin's. -/
def pluginFinding (f : FindingOut) : Finding where
  pluginName := f.pluginName
  title := f.title
  severity := severityOfText f.severity
  confidence := confidenceOfVerification f.verification
  verification := f.verification
  confidenceScore := f.confidenceScore
  host := f.host
  portNumber := f.portNumber
  protocol := f.protocol
  scope := f.scope
  service := f.service
  product := f.product
  version := f.version
  description := f.description ++ if f.evidence = [] then [] else str " | evidence: " ++ f.evidence
  evidence := f.evidence
  evidenceData := f.evidenceData
  references := f.references
  remediation := f.remediation
  cvssVector := f.cvssVector
  cvss := f.cvss
  cveId := f.cveId
  timestamp := f.timestamp

/-- The port with what the plugins detected: a value that they claim wins. -/
def Port.detected (port : Port) (info : DetectedInfo) : Port :=
  { port with
    service := if info.service = [] then port.service else info.service
    product := if info.product = [] then port.product else info.product
    version := if info.version = [] then port.version else info.version }

/-- A finding with the gaps filled from the target and its port. -/
def Finding.fillFrom (f : Finding) (ip : Bytes) (port : Port) : Finding :=
  { f with
    host := if f.host = [] then ip else f.host
    protocol := if f.protocol = .unknown then port.protocol else f.protocol
    service := if f.service = [] then port.service else f.service
    product := if f.product = [] then port.product else f.product
    version := if f.version = [] then port.version else f.version }

/-- The findings of the checks and plugins with those of the CVE database that name other CVEs. -/
def mergeCves (found cves : List Finding) : List Finding :=
  found ++ cves.filter fun f => !found.any fun g => g.cveId != [] && g.cveId == f.cveId

/-- The enriched port and the findings that were collected on it. -/
structure PortReport where
  port : Port
  found : List Finding
  cves : List Finding

/-- The findings before their deduplication. -/
def PortReport.collected (r : PortReport) (ip : Bytes) : List Finding :=
  (mergeCves r.found r.cves).map (·.fillFrom ip r.port)

/-- The findings that leave the task. -/
def PortReport.findings (r : PortReport) (ip : Bytes) : List Finding := deduplicateFindings (r.collected ip)

/-- Probe an open port: banner, detection, native checks, plugins and the CVE database. -/
def probePort (setup : ScanSetup) (ip : Bytes) (p : ℤ) (w : PortWorld) : Option PortReport := do
  let banner ← grabBanner w
  let connected := connectedPort p w.state
  let port := if banner = [] then connected
    else detectDistro banner (detectService setup.patterns banner connected)
  let native ← runNativeChecks port w
  let run ← runForPort ⟨w.net, setup.cves⟩ setup.plugins ip port.number.toNat port.service
  let port := port.detected run.info
  let cves ← checkPort setup.cves setup.fixes w.clock port
  return { port := port, found := native ++ run.findings.map pluginFinding, cves := cves }

/-- The task of a port: nothing to report unless the port is open. -/
def scanPort (setup : ScanSetup) (ip : Bytes) (p : ℤ) (w : PortWorld) : Option (Option PortReport) :=
  if w.state = .opened then (probePort setup ip p w).map some else some none

/-- A finding of the scan of one port of a host. -/
structure Finding.OnPort (f : Finding) (ip : Bytes) (number : UInt16) : Prop where
  host : f.host = ip
  scope : f.scope = str "PORT"
  portNumber : f.portNumber = number

/-- A finding that the gaps can be filled of. -/
structure Finding.ForPort (f : Finding) (ip : Bytes) (number : UInt16) : Prop where
  host : f.host = ip ∨ f.host = []
  scope : f.scope = str "PORT"
  portNumber : f.portNumber = number

/-- A finding for a port is filled in with its host. -/
theorem Finding.ForPort.fillFrom {f : Finding} {ip : Bytes} {number : UInt16} (h : f.ForPort ip number)
    (port : Port) : (f.fillFrom ip port).OnPort ip number where
  host := by
    change (if f.host = [] then ip else f.host) = ip
    rcases h.host with hhost | hhost
    · rw [hhost, ite_eq_left_iff]
      exact fun _ => rfl
    · rw [if_pos hhost]
  scope := h.scope
  portNumber := h.portNumber

/-- A port that came through the program unchanged. -/
theorem portNumber_toNat (n : UInt16) : portNumber n.toNat = n := by
  unfold Ztl.portNumber
  rw [Int.emod_eq_of_lt (Int.natCast_nonneg _) (by exact_mod_cast n.toNat_lt), Int.toNat_natCast]
  exact UInt16.ofNat_toNat

/-- The ports of the protocol have different numbers. -/
theorem portNumber_injOn {p q : ℤ} (hp : 0 ≤ p ∧ p ≤ 65535) (hq : 0 ≤ q ∧ q ≤ 65535)
    (h : portNumber p = portNumber q) : p = q := by
  have htoNat : ∀ {r : ℤ}, 0 ≤ r ∧ r ≤ 65535 → ((portNumber r).toNat : ℤ) = r := by
    intro r hr
    unfold Ztl.portNumber
    rw [Int.emod_eq_of_lt hr.1 (by omega), UInt16.toNat_ofNat_of_lt' (by simp only [UInt16.size]; omega)]
    omega
  rw [← htoNat hp, ← htoNat hq, h]

/-- The native checks report for the port that they are given. -/
theorem runNativeChecks_forPort {port : Port} {w : PortWorld} {found : List Finding}
    (h : runNativeChecks port w = some found) : ∀ f ∈ found, f.ForPort [] port.number := by
  obtain ⟨terrapin, hterrapin, h⟩ := Option.bind_eq_some_iff.mp h
  obtain ⟨tls, htls, h⟩ := Option.bind_eq_some_iff.mp h
  cases h
  intro f hf
  rcases List.mem_append.mp hf with hf | hf
  · obtain rfl : terrapin = some f := Option.mem_toList.mp hf
    unfold runRegisteredChecks at hterrapin
    split at hterrapin
    · obtain ⟨evidence, rfl⟩ := checkTerrapin_eq_some hterrapin
      exact ⟨.inr rfl, rfl, rfl⟩
    · cases hterrapin
  · obtain ⟨pluginName, title, severity, description, rfl⟩ := mem_runTlsChecks htls hf
    exact ⟨.inr rfl, rfl, rfl⟩

/-- How a port is probed. -/
structure Probed (setup : ScanSetup) (ip : Bytes) (p : ℤ) (w : PortWorld) (r : PortReport) : Prop where
  number : r.port.number = portNumber p
  found : ∀ f ∈ r.found, f.ForPort ip (portNumber p)
  cves : checkPort setup.cves setup.fixes w.clock r.port = some r.cves

/-- A report comes from a probe. -/
theorem probePort_spec {setup : ScanSetup} {ip : Bytes} {p : ℤ} {w : PortWorld} {r : PortReport}
    (h : probePort setup ip p w = some r) : Probed setup ip p w r := by
  obtain ⟨banner, -, h⟩ := Option.bind_eq_some_iff.mp h
  obtain ⟨native, hnative, h⟩ := Option.bind_eq_some_iff.mp h
  obtain ⟨run, hrun, h⟩ := Option.bind_eq_some_iff.mp h
  obtain ⟨cves, hcves, h⟩ := Option.bind_eq_some_iff.mp h
  cases h
  have hnumber : (if banner = [] then connectedPort p w.state
      else detectDistro banner (detectService setup.patterns banner (connectedPort p w.state))).number =
        portNumber p := by
    split
    · rfl
    · rw [detectDistro, (detectDistroWith_number _ _ _).1, (detectService_number _ _ _).1]
      rfl
  refine ⟨hnumber, ?_, hcves⟩
  intro f hf
  rcases List.mem_append.mp hf with hf | hf
  · have hfor := runNativeChecks_forPort hnative f hf
    rw [hnumber] at hfor
    exact ⟨.inr (hfor.host.elim id id), hfor.scope, hfor.portNumber⟩
  · obtain ⟨g, hg, rfl⟩ := List.mem_map.mp hf
    have hfor := Ztl.runForPort_isFor hrun g hg
    refine ⟨hfor.host, hfor.scope, ?_⟩
    rw [← hnumber, ← portNumber_toNat (Port.number _)]
    exact hfor.portNumber

/-- Every finding that is collected belongs to the port. -/
theorem Probed.collected_onPort {setup : ScanSetup} {ip : Bytes} {p : ℤ} {w : PortWorld} {r : PortReport}
    (h : Probed setup ip p w r) : ∀ f ∈ r.collected ip, f.OnPort ip (portNumber p) := by
  intro f hf
  obtain ⟨g, hg, rfl⟩ := List.mem_map.mp hf
  apply Finding.ForPort.fillFrom
  rcases List.mem_append.mp hg with hg | hg
  · exact h.found g hg
  · obtain ⟨entry, -, -, hfor⟩ := (checkPort_spec h.cves).1 g (List.mem_filter.mp hg).1
    obtain ⟨-, hnumber, hhost, hscope⟩ := hfor.fields
    exact ⟨.inr hhost, hscope, hnumber.trans h.number⟩

/-- So does every finding that leaves the task. -/
theorem Probed.findings_onPort {setup : ScanSetup} {ip : Bytes} {p : ℤ} {w : PortWorld} {r : PortReport}
    (h : Probed setup ip p w r) : ∀ f ∈ r.findings ip, f.OnPort ip (portNumber p) := by
  intro f hf
  obtain ⟨g, hg, -, evidence, description, rfl⟩ := mem_deduplicateFindings hf
  have hon := h.collected_onPort g hg
  exact ⟨hon.host, hon.scope, hon.portNumber⟩

end ZeroTrust
