import ZeroTrust.Scan.CvePaths
import ZeroTrust.Scan.TcpRange
import ZeroTrust.Ztl.Completion

/-!
# When a scan comes to its end

`tcp_range_scan` returns when each of its tasks comes to its end. A task can fail to: when a send or a
handshake raises `SIGPIPE` or never comes back, when a hostile packet leads a reader out of its input, when a
plugin makes an unsafe call, or when the fix of a covering entry is not decided. Everything else is computed.
-/

namespace ZeroTrust

open Ztl (PortCallsSafe runForPort runForPort_isSome_iff portNumber)

/-- The lists of ciphers that the TLS checks offer. -/
def offeredCiphers : List Bytes := [str "aNULL", str "eNULL"] ++ weakCipherGroups.map (·.opensslExpr)

/-- The handshakes that the TLS checks make come back. -/
def TlsEnds (port : Port) (server : TlsServer) : Prop :=
  portLooksLikeTls port = true → ∃ handshake, server.handshake = some handshake ∧
    (handshake.result = .ok → ∀ ciphers ∈ offeredCiphers, (server.handshakeWithCiphers ciphers).isSome)

/-- The sends of the Terrapin check come back, and its readers stay inside of what they are given. -/
def TerrapinEnds (port : Port) (server : SshServer) (now : ℤ) : Prop :=
  port.service = str "ssh" → server.state = .opened → (server.banner.take 4096).take 4 = str "SSH-" →
    ∃ identified, server.identified = some identified ∧ (identified = true →
      ∃ offered, server.offered = some offered ∧ (offered = true →
        (terrapinResponse port now server.chunks).isSome))

/-- A sequence of checks comes to its end when each of them does. -/
theorem isSome_mapM_id {α : Type} (xs : List (Option α)) : (xs.mapM id).isSome ↔ ∀ x ∈ xs, x.isSome := by
  induction xs with
  | nil => exact iff_of_true rfl nofun
  | cons x xs ih =>
    rw [List.mapM_cons, List.forall_mem_cons, ← ih]
    cases x with
    | none => exact iff_of_false Bool.noConfusion fun h => Bool.noConfusion h.1
    | some a => cases xs.mapM id <;> simp

/-- A check with ciphers comes to its end with its handshake. -/
theorem checkCiphers_isSome {port : Port} {server : TlsServer} {ciphers : Bytes} {bad : Bytes → Bool}
    {pluginName title : Bytes} {severity : Severity} {description : Bytes → Bytes} :
    (checkCiphers port server ciphers bad pluginName title severity description).isSome =
      (server.handshakeWithCiphers ciphers).isSome := by
  rw [checkCiphers, Option.isSome_map]

/-- The checks with ciphers come to their ends with their handshakes. -/
theorem runCipherChecks_isSome_iff {port : Port} {server : TlsServer} :
    (runCipherChecks port server).isSome ↔
      ∀ ciphers ∈ offeredCiphers, (server.handshakeWithCiphers ciphers).isSome := by
  rw [runCipherChecks, Option.isSome_map, isSome_mapM_id, offeredCiphers, List.forall_mem_append,
    List.forall_mem_append, List.forall_mem_map, List.forall_mem_map]
  simp only [List.forall_mem_cons, List.not_mem_nil, IsEmpty.forall_iff, implies_true, checkAnonymousCiphers,
    checkNullCiphers, checkWeakCipherGroup, checkCiphers_isSome]

/-- The TLS checks come to their end when their handshakes come back. -/
theorem runTlsChecks_isSome_iff {port : Port} {server : TlsServer} :
    (runTlsChecks port server).isSome ↔ TlsEnds port server := by
  unfold runTlsChecks TlsEnds
  split
  · next htls =>
    rw [imp_iff_right htls]
    cases server.handshake with
    | none => exact iff_of_false Bool.noConfusion fun ⟨_, h, _⟩ => nomatch h
    | some handshake =>
      simp only [Option.bind_eq_bind, Option.bind_some, Option.some_inj, exists_eq_left']
      split
      · next hok =>
        have hchecks : (runCipherChecks port server).isSome ↔ _ := runCipherChecks_isSome_iff
        rw [imp_iff_right hok, ← hchecks]
        cases runCipherChecks port server <;> simp
      · next hfailed => exact iff_of_true rfl fun hok => absurd hok hfailed
  · next hplain => exact iff_of_true rfl fun htls => absurd htls hplain

/-- The Terrapin check comes to its end when its sends and readers do. -/
theorem checkTerrapin_isSome_iff {port : Port} {server : SshServer} {now : ℤ} :
    (checkTerrapin port server now).isSome ↔ TerrapinEnds port server now := by
  unfold checkTerrapin TerrapinEnds
  split
  · next hother => exact iff_of_true rfl fun hssh => absurd hssh hother
  next hssh =>
  rw [imp_iff_right (not_not.mp hssh)]
  split
  · next hclosed => exact iff_of_true rfl fun hopened => absurd hopened hclosed
  next hopened =>
  rw [imp_iff_right (not_not.mp hopened)]
  split
  · next hsilent => exact iff_of_true rfl fun hbanner => absurd hbanner hsilent
  next hbanner =>
  rw [imp_iff_right (not_not.mp hbanner)]
  cases server.identified with
  | none => exact iff_of_false Bool.noConfusion fun ⟨_, h, _⟩ => nomatch h
  | some identified =>
    cases identified with
    | false => simp
    | true =>
      cases server.offered with
      | none =>
        refine iff_of_false Bool.noConfusion ?_
        rintro ⟨identified, hidentified, hrest⟩
        obtain ⟨offered, hoffered, -⟩ := hrest (Option.some.inj hidentified).symm
        cases hoffered
      | some offered => cases offered <;> simp

/-- The port that the banner makes of a connection. -/
def greetedPort (setup : ScanSetup) (p : ℤ) (w : PortWorld) (banner : Bytes) : Port :=
  let connected := connectedPort p w.state
  if banner = [] then connected else detectDistro banner (detectService setup.patterns banner connected)

/-- `probePort` up to the CVE database: the final record of the port, and what checks and plugins have found. -/
def detectPort (setup : ScanSetup) (ip : Bytes) (p : ℤ) (w : PortWorld) : Option (Port × List Finding) := do
  let banner ← grabBanner w
  let port := greetedPort setup p w banner
  let native ← runNativeChecks port w
  let run ← runForPort ⟨w.net, setup.cves⟩ setup.plugins ip port.number.toNat port.service
  return (port.detected run.info, native ++ run.findings.map pluginFinding)

/-- The CVE database is asked about the final record. -/
theorem probePort_eq (setup : ScanSetup) (ip : Bytes) (p : ℤ) (w : PortWorld) :
    probePort setup ip p w = (detectPort setup ip p w).bind fun (port, found) =>
      (checkPort setup.cves setup.fixes w.clock port).map fun cves => ⟨port, found, cves⟩ := by
  unfold probePort detectPort
  simp only [Option.bind_eq_bind, Option.bind_assoc, Option.pure_def, Option.bind_some, Option.map_eq_bind]
  rfl

/-- What the task of an open port needs of its inputs to come to its end. -/
structure ProbeEnds (setup : ScanSetup) (ip : Bytes) (p : ℤ) (w : PortWorld) : Prop where
  request : w.greeting = [] → w.requested.isSome
  terrapin : ∀ banner, grabBanner w = some banner → TerrapinEnds (greetedPort setup p w banner) w.ssh w.sshClock
  tls : ∀ banner, grabBanner w = some banner → TlsEnds (greetedPort setup p w banner) w.tls
  plugins : ∀ banner, grabBanner w = some banner →
    PortCallsSafe ⟨w.net, setup.cves⟩ setup.plugins ip (greetedPort setup p w banner).number.toNat
      (greetedPort setup p w banner).service
  fixes : ∀ port found, detectPort setup ip p w = some (port, found) → port.product ≠ [] → port.version ≠ [] →
    ∀ entry ∈ setup.cves, entry.covers port.product port.version → BackportDecided setup.fixes entry.cveId port

section Probe

variable {setup : ScanSetup} {ip : Bytes} {p : ℤ} {w : PortWorld}

/-- The banner is there unless the request raises `SIGPIPE`. -/
theorem grabBanner_isSome_iff : (grabBanner w).isSome ↔ (w.greeting = [] → w.requested.isSome) := by
  unfold grabBanner
  dsimp only
  split
  · next hsilent =>
    have hgreeting : w.greeting = [] := by simpa using hsilent
    rw [imp_iff_right hgreeting]
    cases w.requested with
    | none => exact Iff.rfl
    | some sent => cases sent <;> simp
  · next hgreets =>
    refine iff_of_true rfl fun hsilent => absurd ?_ hgreets
    rw [hsilent]
    rfl

/-- The native checks come to their end when both kinds do. -/
theorem runNativeChecks_isSome_iff {port : Port} :
    (runNativeChecks port w).isSome ↔ TerrapinEnds port w.ssh w.sshClock ∧ TlsEnds port w.tls := by
  have hregistered : (runRegisteredChecks port w).isSome ↔ TerrapinEnds port w.ssh w.sshClock := by
    unfold runRegisteredChecks
    split
    · exact checkTerrapin_isSome_iff
    · next hother => exact iff_of_true rfl fun hssh => absurd hssh hother
  rw [← hregistered, ← runTlsChecks_isSome_iff, runNativeChecks]
  cases runRegisteredChecks port w with
  | none => simp
  | some terrapin => cases runTlsChecks port w.tls <;> simp

/-- The database answers when the fixes of the covering entries are decided. -/
theorem checkPort_answers_iff {database : List CveEntry} {fixes : DistroTable} {now : ℕ → ℤ} {port : Port} :
    (checkPort database fixes now port).isSome ↔ (port.product ≠ [] → port.version ≠ [] →
      ∀ entry ∈ database, entry.covers port.product port.version → BackportDecided fixes entry.cveId port) := by
  by_cases hproduct : port.product = []
  · rw [checkPort, hproduct]
    exact iff_of_true rfl fun h => absurd rfl h
  by_cases hversion : port.version = []
  · rw [checkPort, hversion]
    exact iff_of_true (by simp) fun _ h => absurd rfl h
  rw [imp_iff_right hproduct, imp_iff_right hversion, checkPort_isSome_iff hproduct hversion]

/-- The port gets its final record when the request, the native checks and the plugins come to their ends. -/
theorem detectPort_isSome_iff : (detectPort setup ip p w).isSome ↔
    (w.greeting = [] → w.requested.isSome) ∧ ∀ banner, grabBanner w = some banner →
      (TerrapinEnds (greetedPort setup p w banner) w.ssh w.sshClock ∧ TlsEnds (greetedPort setup p w banner) w.tls) ∧
        PortCallsSafe ⟨w.net, setup.cves⟩ setup.plugins ip (greetedPort setup p w banner).number.toNat
          (greetedPort setup p w banner).service := by
  rw [← grabBanner_isSome_iff, detectPort]
  cases grabBanner w with
  | none => exact iff_of_false Bool.noConfusion fun h => Bool.noConfusion h.1
  | some banner =>
    simp only [← runNativeChecks_isSome_iff, ← runForPort_isSome_iff, Option.isSome_some, true_and, Option.some_inj,
      forall_eq', Option.bind_eq_bind, Option.bind_some, Option.pure_def]
    cases runNativeChecks (greetedPort setup p w banner) w with
    | none => exact iff_of_false Bool.noConfusion fun h => Bool.noConfusion h.1
    | some native =>
      cases runForPort ⟨w.net, setup.cves⟩ setup.plugins ip (greetedPort setup p w banner).number.toNat
          (greetedPort setup p w banner).service with
      | none => exact iff_of_false Bool.noConfusion fun h => Bool.noConfusion h.2
      | some run => exact iff_of_true rfl ⟨rfl, rfl⟩

/-- The task of an open port comes to its end exactly when its inputs are as it needs them. -/
theorem probePort_isSome_iff : (probePort setup ip p w).isSome ↔ ProbeEnds setup ip p w := by
  have hends : ProbeEnds setup ip p w ↔ (detectPort setup ip p w).isSome ∧ ∀ port found,
      detectPort setup ip p w = some (port, found) → (checkPort setup.cves setup.fixes w.clock port).isSome := by
    simp only [detectPort_isSome_iff, checkPort_answers_iff]
    constructor
    · intro h
      refine ⟨⟨h.request, fun banner hbanner => ⟨⟨?_, ?_⟩, ?_⟩⟩, h.fixes⟩
      · exact h.terrapin banner hbanner
      · exact h.tls banner hbanner
      · exact h.plugins banner hbanner
    · rintro ⟨⟨hrequest, hbehind⟩, hfixes⟩
      refine ⟨hrequest, ?_, ?_, ?_, hfixes⟩
      · exact fun banner hbanner => (hbehind banner hbanner).1.1
      · exact fun banner hbanner => (hbehind banner hbanner).1.2
      · exact fun banner hbanner => (hbehind banner hbanner).2
  rw [probePort_eq, hends]
  cases detectPort setup ip p w with
  | none => exact iff_of_false Bool.noConfusion fun h => Bool.noConfusion h.1
  | some detected =>
    rw [Option.bind_some, Option.isSome_map]
    refine ⟨fun hsome => ⟨rfl, ?_⟩, fun h => h.2 detected.1 detected.2 rfl⟩
    rintro port found hport
    cases hport
    exact hsome

/-- The task of any port. -/
theorem scanPort_isSome_iff :
    (scanPort setup ip p w).isSome ↔ (w.state = .opened → ProbeEnds setup ip p w) := by
  unfold scanPort
  split
  · next hopened => rw [Option.isSome_map, probePort_isSome_iff, imp_iff_right hopened]
  · next hclosed => exact iff_of_true rfl fun hopened => absurd hopened hclosed

end Probe

/-- The tasks of the ports of a range come to their ends. -/
def RangeEnds (setup : ScanSetup) (ip : Bytes) (startPort endPort : ℤ) (w : ℤ → PortWorld) : Prop :=
  ∀ p ∈ portRange startPort endPort, (w p).state = .opened → ProbeEnds setup ip p (w p)

/-- What the task of a port reports when it comes to its end. -/
def scannedPort (setup : ScanSetup) (ip : Bytes) (w : ℤ → PortWorld) (p : ℤ) : Option PortReport :=
  (scanPort setup ip p (w p)).getD none

/-- `tcp_range_scan` can return this: its tasks have come to their ends, in some order. -/
def ScanReturns (setup : ScanSetup) (ip : Bytes) (startPort endPort : ℤ) (w : ℤ → PortWorld)
    (out : TcpRangeResult) : Prop :=
  ∃ outcome trace, ScanRun setup ip startPort endPort w outcome trace out

section Range

variable {setup : ScanSetup} {ip : Bytes} {startPort endPort : ℤ} {w : ℤ → PortWorld}

/-- Then every task reports what it has found. -/
theorem RangeEnds.probes (hends : RangeEnds setup ip startPort endPort w) :
    ∀ p ∈ portRange startPort endPort, scanPort setup ip p (w p) = some (scannedPort setup ip w p) := by
  intro p hp
  obtain ⟨o, ho⟩ := Option.isSome_iff_exists.mp (scanPort_isSome_iff.mpr (hends p hp))
  rw [scannedPort, ho]
  rfl

/-- A scan returns exactly when the tasks of its open ports come to their ends. -/
theorem exists_scanReturns_iff :
    (∃ out, ScanReturns setup ip startPort endPort w out) ↔ RangeEnds setup ip startPort endPort w := by
  constructor
  · rintro ⟨out, outcome, trace, run⟩ p hp
    rw [← scanPort_isSome_iff, run.probes p hp]
    rfl
  · intro hends
    obtain ⟨trace, out, run⟩ := exists_scanRun hends.probes
    exact ⟨out, _, trace, run⟩

end Range

end ZeroTrust
