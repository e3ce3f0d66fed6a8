import ZeroTrust.Scan.ScanEnds

/-!
# What a scan reports about vulnerabilities

Plugins, native checks and the CVE database report on the same vulnerabilities. The database is
silenced on a CVE that another finding names, and findings of one identity are merged. Nothing of it
loses a CVE of a scan that returns, but the suppression also silences the only producer that knows of
backported fixes.
-/

namespace ZeroTrust

open Ztl (portNumber PortRun CallRecord FindingOut runForPort runForPort_calls runCalls exists_ran findingOf
  findingOf_names verificationArgument)

/-- Filling the gaps of a finding keeps what names the vulnerability and how it was verified. -/
@[simp] theorem Finding.cveId_fillFrom (f : Finding) (ip : Bytes) (port : Port) :
    (f.fillFrom ip port).cveId = f.cveId := rfl

/-- Filling in the gaps leaves the verification alone. -/
@[simp] theorem Finding.verification_fillFrom (f : Finding) (ip : Bytes) (port : Port) :
    (f.fillFrom ip port).verification = f.verification := rfl

/-- Some merged finding names a CVE that a finding of the database names. -/
theorem exists_mem_mergeCves {found cves : List Finding} {f : Finding} (hf : f ∈ cves) :
    ∃ g ∈ mergeCves found cves, g.cveId = f.cveId := by
  unfold mergeCves
  cases hany : found.any fun g => g.cveId != [] && g.cveId == f.cveId with
  | true =>
    obtain ⟨g, hg, hboth⟩ := List.any_eq_true.mp hany
    rw [Bool.and_eq_true, beq_iff_eq] at hboth
    exact ⟨g, List.mem_append_left _ hg, hboth.2⟩
  | false =>
    refine ⟨f, List.mem_append_right _ (List.mem_filter.mpr ⟨hf, ?_⟩), rfl⟩
    rw [hany]
    rfl

/-- With separators kept out of services and identifiers, a finding that is merged with one that names
a CVE names it too. -/
theorem cveId_of_findingIdentity {f g : Finding} (hf : f.scope = str "PORT") (hg : g.scope = str "PORT")
    (hhost : g.host = f.host) (hservice : 124 ∉ f.service) (hservice' : 124 ∉ g.service) (hid : f.cveId ≠ [])
    (hsep : 124 ∉ f.cveId) (h : findingIdentity g = findingIdentity f) : g.cveId = f.cveId := by
  have hkeys := (findingIdentity_port_inj hg hf hhost h).2
  obtain ⟨-, hkey⟩ := append_separator_inj hservice' hservice hkeys
  unfold findingKey at hkey
  rw [if_neg hid] at hkey
  split at hkey
  · exfalso
    apply hsep
    rw [← hkey, List.append_assoc]
    exact List.mem_append_right _ List.mem_cons_self
  · exact hkey

section Scan

variable {setup : ScanSetup} {ip : Bytes} {startPort endPort : ℤ} {w : ℤ → PortWorld}
  {outcome : ℤ → Option PortReport} {trace : List TaskAction} {out : TcpRangeResult}

/-- What a scan returns for a port is what its task found there. -/
theorem ScanRun.mem_findings (hstart : 0 ≤ startPort) (hend : endPort ≤ 65535)
    (run : ScanRun setup ip startPort endPort w outcome trace out) {p : ℤ} (hp : p ∈ portRange startPort endPort)
    {r : PortReport} (hr : outcome p = some r) {f : Finding} :
    f ∈ out.findings ∧ f.portNumber = portNumber p ↔ f ∈ r.findings ip := by
  have hmem : f ∈ out.findings ↔ f ∈ (reports startPort endPort outcome).flatMap fun r => r.findings ip :=
    ((run.findings_isSortOf hstart hend).1.trans run.leaves.2.2.1).mem_iff
  rw [hmem, List.mem_flatMap]
  constructor
  · rintro ⟨⟨r', hr', hf⟩, hnumber⟩
    obtain ⟨q, hq, hr'⟩ := List.mem_flatMap.mp hr'
    have houtcome : outcome q = some r' := Option.mem_toList.mp hr'
    have hprobed := probed_of_scanPort (run.probes q hq) houtcome
    have hpq : q = p := by
      have hp' := mem_portRange.mp hp
      have hq' := mem_portRange.mp hq
      apply portNumber_injOn (by omega) (by omega)
      rw [← (hprobed.findings_onPort f hf).portNumber, hnumber]
    rw [hpq, hr] at houtcome
    cases houtcome
    exact hf
  · intro hf
    refine ⟨⟨r, List.mem_flatMap.mpr ⟨p, hp, Option.mem_toList.mpr hr⟩, hf⟩, ?_⟩
    exact ((probed_of_scanPort (run.probes p hp) hr).findings_onPort f hf).portNumber

/-- The report of an open port is the final record, with what was found and what the database says of it. -/
theorem ScanRun.outcome_of_detectPort (run : ScanRun setup ip startPort endPort w outcome trace out) {p : ℤ}
    (hp : p ∈ portRange startPort endPort) (hopened : (w p).state = .opened) {port : Port} {found : List Finding}
    (hport : detectPort setup ip p (w p) = some (port, found)) :
    ∃ cves, checkPort setup.cves setup.fixes (w p).clock port = some cves ∧ outcome p = some ⟨port, found, cves⟩ := by
  have hprobe := run.probes p hp
  rw [scanPort, if_pos hopened, probePort_eq, hport, Option.bind_some, Option.map_map] at hprobe
  obtain ⟨cves, hcves, houtcome⟩ := Option.map_eq_some_iff.mp hprobe
  exact ⟨cves, hcves, houtcome.symm⟩

/-- A finding of the database has the service of its port. -/
theorem FindingFor.service {fixes : DistroTable} {port : Port} {entry : CveEntry} {f : Finding}
    (h : FindingFor fixes port entry f) : f.service = port.service := by
  obtain ⟨backport, now, -, rfl⟩ := h
  split
  · rfl
  · rfl

/-- A CVE that is named before the merges is named by a survivor. -/
theorem Probed.exists_survivor {p : ℤ} {w : PortWorld} {r : PortReport} (h : Probed setup ip p w r)
    (hservice : (124 : Byte) ∉ r.port.service) (hfound : ∀ g ∈ r.found, (124 : Byte) ∉ g.service) {f : Finding}
    (hf : f ∈ mergeCves r.found r.cves) (hid : f.cveId ≠ []) (hsep : (124 : Byte) ∉ f.cveId) :
    ∃ g ∈ mergeCves r.found r.cves, g.cveId = f.cveId ∧
      ∃ evidence description, (g.fillFrom ip r.port).withTexts evidence description ∈ r.findings ip := by
  have hfilled : ∀ g ∈ mergeCves r.found r.cves, (124 : Byte) ∉ (g.fillFrom ip r.port).service := by
    intro g hg
    change (124 : Byte) ∉ if g.service = [] then r.port.service else g.service
    split
    · exact hservice
    · rcases List.mem_append.mp hg with hg | hg
      · exact hfound g hg
      · obtain ⟨entry, -, -, hfor⟩ := (checkPort_spec h.cves).1 g (List.mem_filter.mp hg).1
        rw [hfor.service]
        exact hservice
  have hcollected : f.fillFrom ip r.port ∈ r.collected ip := List.mem_map_of_mem hf
  obtain ⟨s, hs, hsame⟩ := exists_mem_deduplicateFindings hcollected
  obtain ⟨g, hg, -, evidence, description, rfl⟩ := mem_deduplicateFindings hs
  rw [findingIdentity_withTexts] at hsame
  have hon := h.collected_onPort _ hcollected
  have hon' := h.collected_onPort g hg
  obtain ⟨g₀, hg₀, rfl⟩ := List.mem_map.mp hg
  have hname := cveId_of_findingIdentity hon.scope hon'.scope (hon'.host.trans hon.host.symm) (hfilled f hf)
    (hfilled g₀ hg₀) hid hsep hsame
  exact ⟨g₀, hg₀, hname, evidence, description, hs⟩

/-- No separator is in the names that identify a finding. -/
structure Finding.SeparatorFree (f : Finding) : Prop where
  service : (124 : Byte) ∉ f.service
  pluginName : (124 : Byte) ∉ f.pluginName
  title : (124 : Byte) ∉ f.title
  cveId : (124 : Byte) ∉ f.cveId

instance : DecidablePred Finding.SeparatorFree := fun _ =>
  decidable_of_iff (_ ∧ _ ∧ _ ∧ _) ⟨fun h => ⟨h.1, h.2.1, h.2.2.1, h.2.2.2⟩,
    fun h => ⟨h.service, h.pluginName, h.title, h.cveId⟩⟩

/-- An entry of the database covers what was detected on an open port, where no name of a finding contains a
separator. -/
structure Exposed (setup : ScanSetup) (ip : Bytes) (p : ℤ) (w : PortWorld) (port : Port) (entry : CveEntry) : Prop where
  opened : w.state = .opened
  detected : ∃ found, detectPort setup ip p w = some (port, found) ∧ ∀ f ∈ found, f.SeparatorFree
  service : (124 : Byte) ∉ port.service
  database : ∀ entry ∈ setup.cves, ∀ f, FindingFor setup.fixes port entry f → f.SeparatorFree
  product : port.product ≠ []
  version : port.version ≠ []
  entry_mem : entry ∈ setup.cves
  cveId : entry.cveId ≠ []
  covers : entry.covers port.product port.version

/-- In a scan that returns, an entry that covers a port is reported there, whatever else was found. -/
theorem ScanRun.reports_exposed (hstart : 0 ≤ startPort) (hend : endPort ≤ 65535)
    (run : ScanRun setup ip startPort endPort w outcome trace out) {p : ℤ} (hp : p ∈ portRange startPort endPort)
    {port : Port} {entry : CveEntry} (hexposed : Exposed setup ip p (w p) port entry) :
    ∃ f ∈ out.findings, f.cveId = entry.cveId ∧ f.portNumber = port.number := by
  obtain ⟨found, hport, hfound⟩ := hexposed.detected
  obtain ⟨cves, hcves, hr⟩ := run.outcome_of_detectPort hp hexposed.opened hport
  have hprobed := probed_of_scanPort (run.probes p hp) hr
  obtain ⟨hmade, hall⟩ := checkPort_spec hcves
  obtain ⟨f, hf, hfor⟩ := hall hexposed.product hexposed.version entry hexposed.entry_mem hexposed.covers
  have hname : f.cveId = entry.cveId := hfor.fields.1
  obtain ⟨g, hg, hgname⟩ := @exists_mem_mergeCves found _ _ hf
  have hsep : (124 : Byte) ∉ entry.cveId := hname ▸ (hexposed.database entry hexposed.entry_mem f hfor).cveId
  obtain ⟨g', -, hname', evidence, description, hsurvives⟩ := hprobed.exists_survivor hexposed.service
    (fun g hg => (hfound g hg).service) hg (by rw [hgname, hname]; exact hexposed.cveId) (by rwa [hgname, hname])
  obtain ⟨hmem, hnumber⟩ := (run.mem_findings hstart hend hp hr).mpr hsurvives
  exact ⟨_, hmem, hname'.trans (hgname.trans hname), hnumber.trans hprobed.number.symm⟩

end Scan

section Reports

variable (setup : ScanSetup) (ip : Bytes) (startPort endPort : ℤ) (w : ℤ → PortWorld)

/-- The scan returns and reports every entry that covers what was detected on an open port. -/
def NoCveLost : Prop :=
  ∀ p ∈ portRange startPort endPort, ∀ port entry, Exposed setup ip p (w p) port entry →
    (∃ out, ScanReturns setup ip startPort endPort w out) ∧
      ∀ out, ScanReturns setup ip startPort endPort w out →
        ∃ f ∈ out.findings, f.cveId = entry.cveId ∧ f.portNumber = port.number

end Reports

/-- Two services with three vulnerabilities, one of which a plugin looks for. -/
def officeSetup : ScanSetup where
  plugins := (Ztl.loadPluginsDir ⟨Ztl.silentNetwork, []⟩ (str "plugins") [(str "mail.ztl",
    str "plugin.filter(service: \"mail\"); plugin.run \x7b
    finding(title: \"relay\", cve: \"CVE-2024-0002\", verification: \"ACTIVE_CHECK\"); \x7d")]).getD []
  cves := [{ cveId := str "CVE-2024-0001", product := str "demod", versionMin := str "1.0", versionMax := str "1.9" },
           { cveId := str "CVE-2024-0002", product := str "maild", versionMin := str "2.0", versionMax := str "2.9" },
           { cveId := str "CVE-2024-0003", product := str "maild", versionMin := str "*", versionMax := str "2.4" }]
  fixes := .empty
  patterns := [⟨fun banner => if banner = str "demod 1.2" then some [str "demod", str "1.2"] else none, str "demo"⟩,
               ⟨fun banner => if banner = str "maild 2.4" then some [str "maild", str "2.4"] else none, str "mail"⟩]

/-- A host with the two services and a closed port. -/
def officeWorld (p : ℤ) : PortWorld :=
  if p = 8001 then demoWorld
  else if p = 8002 then { demoWorld with greeting := str "maild 2.4" }
  else { demoWorld with state := .closed }

/-- A finding of the database has the names of its entry and port. -/
theorem FindingFor.separatorFree {fixes : DistroTable} {port : Port} {entry : CveEntry} {f : Finding}
    (h : FindingFor fixes port entry f) (hservice : (124 : Byte) ∉ port.service) (hid : (124 : Byte) ∉ entry.cveId)
    (hdescription : (124 : Byte) ∉ entry.description)
    (hvia : ∀ backport ∈ checkBackport fixes entry.cveId port, (124 : Byte) ∉ backport.via) : f.SeparatorFree := by
  have hjoin {a b c : Bytes} (ha : (124 : Byte) ∉ a) (hb : (124 : Byte) ∉ b) (hc : (124 : Byte) ∉ c) :
      (124 : Byte) ∉ a ++ b ++ c := by
    rw [List.mem_append, List.mem_append]
    exact not_or.mpr ⟨not_or.mpr ⟨ha, hb⟩, hc⟩
  have hplugin : (124 : Byte) ∉ str "cve-database" := by decide
  obtain ⟨backport, now, hbackport, rfl⟩ := h
  split
  · exact ⟨hservice, hplugin, hjoin hid (by decide) (hvia backport hbackport), hid⟩
  · exact ⟨hservice, hplugin, hjoin hid (by decide) hdescription, hid⟩

/-- A table without rows says nothing. -/
theorem checkBackport_empty (cveId : Bytes) (port : Port) : checkBackport .empty cveId port = some {} := by
  unfold checkBackport
  split
  · rfl
  · dsimp only
    split
    · rfl
    · rfl

/-- A greeting with a zero byte behind the version. -/
def nulGreeting : Bytes := str "SSH-2.0-OpenSSH_9.2p1" ++ 0 :: str " Debian-2+deb12u2"

/-- A plugin that cuts the version out of the greeting. -/
def cuttingPlugin : List (Bytes × Bytes) :=
  [(str "ssh.ztl", str "plugin.filter(service: \"ssh\"); plugin.run \x7b
    c = net::tcp(host: target.host, port: target.port);
    plugin.set_service(\"ssh\", product: \"OpenSSH\", version: c.recv_banner(1000).slice(16, 22)); \x7d")]

/-- A scan with that plugin, the entry of a fixed vulnerability and its fix. -/
def nulSetup : ScanSetup where
  plugins := (Ztl.loadPluginsDir ⟨Ztl.silentNetwork, []⟩ (str "plugins") cuttingPlugin).getD []
  cves := bookwormDatabase
  fixes := bookwormFix
  patterns := [⟨fun _ => some [str "OpenSSH", str "9.2p1"], str "ssh"⟩]

/-- What the server with that greeting answers. -/
def nulWorld : PortWorld :=
  { demoWorld with
    greeting := nulGreeting
    net := { Ztl.openNetwork with receive := fun _ => some nulGreeting } }

/-- A native call that a plugin makes while a port is probed. -/
def PluginCall (setup : ScanSetup) (ip : Bytes) (p : ℤ) (w : PortWorld) (c : CallRecord) : Prop :=
  ∃ banner ∈ grabBanner w, ∃ st ∈ runForPort ⟨w.net, setup.cves⟩ setup.plugins ip
      (greetedPort setup p w banner).number.toNat (greetedPort setup p w banner).service,
    ∃ call ∈ st.calls, c ∈ runCalls ⟨w.net, setup.cves⟩ call.plugin ip (greetedPort setup p w banner).number.toNat
      call.known true call.before

/-- A call of `finding` with a CVE and the verification `VERSION_MATCH`. -/
def ReportsVersionMatch (c : CallRecord) (cve : Bytes) : Prop :=
  (∃ run, c.fn.op = .finding run) ∧ c.ctx.namedString (str "cve") [] = .ok cve ∧
    verificationArgument c.ctx = .ok (str "VERSION_MATCH")

instance (x : Except Ztl.RuntimeError Bytes) (text : Bytes) : Decidable (x = .ok text) :=
  match x with
  | .ok a => decidable_of_iff (a = text) ⟨congrArg _, Except.ok.inj⟩
  | .error _ => isFalse nofun

instance (op : Ztl.Native) : Decidable (∃ run, op = .finding run) := by
  cases op with
  | finding run => exact isTrue ⟨run, rfl⟩
  | _ => exact isFalse nofun

instance (c : CallRecord) (cve : Bytes) : Decidable (ReportsVersionMatch c cve) :=
  inferInstanceAs (Decidable (_ ∧ _ ∧ _))

/-- The finding that a call makes has the CVE and the verification of its arguments. -/
theorem reportsVersionMatch_of_emitted {w : Ztl.World} {run : ℕ} {c : CallRecord} {f : FindingOut}
    (h : c.emitted w run = some f) (hverification : f.verification = str "VERSION_MATCH") :
    ReportsVersionMatch c f.cveId := by
  unfold CallRecord.emitted at h
  split at h
  · next hop =>
    cases hfinding : findingOf (c.store.runs run) c.store c.ctx with
    | error e =>
      rw [hfinding] at h
      cases h
    | ok g =>
      rw [hfinding] at h
      cases h
      obtain ⟨hcve, hargument⟩ := findingOf_names hfinding
      exact ⟨⟨run, hop⟩, hcve, hargument.trans (congrArg _ hverification)⟩
  · cases h

/-- The native checks report what they have checked. -/
theorem runNativeChecks_verification {port : Port} {w : PortWorld} {native : List Finding}
    (h : runNativeChecks port w = some native) : ∀ f ∈ native, f.verification = str "ACTIVE_CHECK" := by
  obtain ⟨terrapin, hterrapin, h⟩ := Option.bind_eq_some_iff.mp h
  obtain ⟨tls, htls, h⟩ := Option.bind_eq_some_iff.mp h
  cases h
  intro f hf
  rcases List.mem_append.mp hf with hf | hf
  · obtain rfl : terrapin = some f := Option.mem_toList.mp hf
    unfold runRegisteredChecks at hterrapin
    split at hterrapin
    · obtain ⟨evidence, rfl⟩ := checkTerrapin_eq_some hterrapin
      rfl
    · cases hterrapin
  · obtain ⟨pluginName, title, severity, description, rfl⟩ := mem_runTlsChecks htls hf
    rfl

/-- A version match that was found on a port was reported by a call of a plugin. -/
theorem exists_call_of_found {setup : ScanSetup} {ip : Bytes} {p : ℤ} {w : PortWorld} {port : Port}
    {found : List Finding} (h : detectPort setup ip p w = some (port, found)) {f : Finding} (hf : f ∈ found)
    (hverification : f.verification = str "VERSION_MATCH") :
    ∃ c, PluginCall setup ip p w c ∧ ReportsVersionMatch c f.cveId := by
  obtain ⟨banner, hbanner, h⟩ := Option.bind_eq_some_iff.mp h
  obtain ⟨native, hnative, h⟩ := Option.bind_eq_some_iff.mp h
  obtain ⟨st, hst, h⟩ := Option.bind_eq_some_iff.mp h
  cases h
  rcases List.mem_append.mp hf with hf | hf
  · rw [runNativeChecks_verification hnative f hf] at hverification
    exact absurd hverification (by decide)
  · obtain ⟨g, hg, rfl⟩ := List.mem_map.mp hf
    rw [PortRun.findings_eq_of_runForPort hst, Ztl.findingsOf] at hg
    obtain ⟨call, hcall, hg⟩ := List.mem_flatMap.mp hg
    obtain ⟨m, hran⟩ := exists_ran (runForPort_calls hst call hcall)
    rcases hran.reported_by hg with ⟨c, hc, hemitted⟩ | ⟨state, what, rfl⟩
    · exact ⟨c, ⟨banner, hbanner, st, hst, call, hcall, hc⟩, reportsVersionMatch_of_emitted hemitted hverification⟩
    · exact absurd (show str "UNKNOWN" = str "VERSION_MATCH" from hverification) (by decide)

section Backports

variable {setup : ScanSetup} {ip : Bytes} {startPort endPort : ℤ} {w : ℤ → PortWorld}

/-- A backported fix of a CVE is reported as a version match on no port with this number. -/
def BackportRespected (setup : ScanSetup) (ip : Bytes) (startPort endPort : ℤ) (w : ℤ → PortWorld) (port : Port)
    (cve : Bytes) : Prop :=
  ∀ out, ScanReturns setup ip startPort endPort w out → ∀ f ∈ out.findings, f.portNumber = port.number →
    f.cveId = cve → f.verification ≠ str "VERSION_MATCH"

/-- What is reported of a port is its final record. -/
theorem detectPort_of_scanPort {p : ℤ} {w : PortWorld} {r : PortReport}
    (h : scanPort setup ip p w = some (some r)) : detectPort setup ip p w = some (r.port, r.found) := by
  unfold scanPort at h
  split at h
  · rw [probePort_eq, Option.map_bind] at h
    obtain ⟨⟨port, found⟩, hport, hr⟩ := Option.bind_eq_some_iff.mp h
    obtain ⟨r', hr', hsome⟩ := Option.map_eq_some_iff.mp hr
    obtain ⟨cves, -, rfl⟩ := Option.map_eq_some_iff.mp hr'
    cases hsome
    exact hport
  · cases h

/-- A scan of a single port. -/
theorem exists_scanRun_single {p : ℤ} {w : PortWorld} {r : PortReport}
    (h : (scanPort setup ip p w).getD none = some r) :
    ∃ trace out, ScanRun setup ip p p (fun _ => w) (fun _ => some r) trace out := by
  apply exists_scanRun
  intro q hq
  have hqp : q = p := by
    have hrange := mem_portRange.mp hq
    omega
  rw [hqp]
  cases hscan : scanPort setup ip p w with
  | none =>
    rw [hscan] at h
    cases h
  | some o =>
    rw [hscan] at h
    exact congrArg some h

end Backports

/-- A scan of an OpenSSH server whose package contains a backported fix. -/
def opensshSetup (plugins : List (Bytes × Bytes)) : ScanSetup where
  plugins := (Ztl.loadPluginsDir ⟨Ztl.silentNetwork, []⟩ (str "plugins") plugins).getD []
  cves := [{ cveId := str "CVE-2023-38408", product := str "openssh", versionMin := str "5.5",
             versionMax := str "9.3" }]
  fixes := loadDistroFixes opensshFixes
  patterns := [⟨fun _ => some [str "openssh", str "8.9p1"], str "ssh"⟩]

/-- What that server answers. -/
def opensshWorld : PortWorld := { demoWorld with greeting := str "SSH-2.0-OpenSSH_8.9p1 Ubuntu-3ubuntu0.17" }

/-- A plugin that reports another CVE as a version match, and the weak keys of the server. -/
def auditingPlugin : List (Bytes × Bytes) :=
  [(str "audit.ztl", str "plugin.filter(service: \"ssh\"); plugin.run \x7b
    finding(title: \"double free\", cve: \"CVE-2023-25136\", verification: \"VERSION_MATCH\");
    finding(title: \"weak keys\", verification: \"ACTIVE_CHECK\"); \x7d")]

/-- A plugin that reports what `cve.verify` says. -/
def verifyingPlugin : List (Bytes × Bytes) :=
  [(str "agent.ztl", str "plugin.filter(service: \"ssh\"); plugin.run \x7b
    plugin.set_service(\"ssh\", product: \"openssh\", version: \"8.9p1\");
    r = cve.verify(target: target, cve: \"CVE-2023-38408\");
    finding(title: r.title, cve: r.cve, verification: r.verification, evidence: r.evidence); \x7d")]

end ZeroTrust
