import ZeroTrust.Scan.TcpRange

/-!
# The ports that were asked for

The loop of `tcp_range_scan` counts in `int`; the socket address, the result and the findings have 16 bits.
A range inside of `0 .. 65535` is scanned port by port, any other range is not.
-/

namespace ZeroTrust

open Ztl (portNumber)

/-- The port that `Tcp::connect` dials: `htons` takes an `uint16_t`. -/
def dialledPort (p : ℤ) : UInt16 := portNumber p

/-- The ports that the tasks of a scan dial. -/
def dialledPorts (startPort endPort : ℤ) : List ℤ :=
  (portRange startPort endPort).map fun p => ((dialledPort p).toNat : ℤ)

/-- A number in a result was asked for. -/
def AskedFor (startPort endPort : ℤ) (number : UInt16) : Prop :=
  startPort ≤ (number.toNat : ℤ) ∧ (number.toNat : ℤ) ≤ endPort

/-- A scan reports what was asked for, and everything that was asked for has been probed. -/
structure ScansAsked (startPort endPort : ℤ) (out : TcpRangeResult) : Prop where
  ports : ∀ port ∈ out.ports, AskedFor startPort endPort port.number
  findings : ∀ f ∈ out.findings, AskedFor startPort endPort f.portNumber
  probed : ∀ p, startPort ≤ p → p ≤ endPort → (dialledPorts startPort endPort).count p = 1
  distinct : (out.ports.map Port.number).Nodup

/-- The socket address has the port modulo `2 ^ 16`. -/
theorem dialledPort_toNat (p : ℤ) : ((dialledPort p).toNat : ℤ) = p % 65536 := by
  unfold dialledPort Ztl.portNumber
  rw [UInt16.toNat_ofNat_of_lt' (by simp only [UInt16.size]; omega)]
  omega

/-- Inside of the 16 bits nothing is lost. -/
theorem dialledPort_of_le {p : ℤ} (hp : 0 ≤ p ∧ p ≤ 65535) : ((dialledPort p).toNat : ℤ) = p := by
  rw [dialledPort_toNat]
  omega

section Scan

variable {setup : ScanSetup} {ip : Bytes} {startPort endPort : ℤ} {w : ℤ → PortWorld}
  {outcome : ℤ → Option PortReport} {trace : List TaskAction} {out : TcpRangeResult}

/-- A port inside of the range has the number that was dialled for it. -/
theorem askedFor_of_mem (hstart : 0 ≤ startPort) (hend : endPort ≤ 65535) {p : ℤ}
    (hp : p ∈ portRange startPort endPort) : AskedFor startPort endPort (portNumber p) := by
  obtain ⟨hle, hge⟩ := mem_portRange.mp hp
  have hnumber : ((portNumber p).toNat : ℤ) = p := dialledPort_of_le ⟨by omega, by omega⟩
  rw [AskedFor, hnumber]
  exact ⟨hle, hge⟩

/-- What a report contributes was probed. -/
theorem exists_probed (run : ScanRun setup ip startPort endPort w outcome trace out) {r : PortReport}
    (hr : r ∈ reports startPort endPort outcome) :
    ∃ p ∈ portRange startPort endPort, Probed setup ip p (w p) r := by
  obtain ⟨p, hp, hr⟩ := List.mem_flatMap.mp hr
  exact ⟨p, hp, probed_of_scanPort (run.probes p hp) (Option.mem_toList.mp hr)⟩

/-- Without narrowing every port is dialled once. -/
theorem count_dialledPorts (hstart : 0 ≤ startPort) (hend : endPort ≤ 65535) {p : ℤ} (hle : startPort ≤ p)
    (hge : p ≤ endPort) : (dialledPorts startPort endPort).count p = 1 := by
  have hsame : dialledPorts startPort endPort = portRange startPort endPort := by
    unfold dialledPorts
    rw [List.map_congr_left (g := id), List.map_id]
    intro q hq
    obtain ⟨hq, hq'⟩ := mem_portRange.mp hq
    exact dialledPort_of_le ⟨by omega, by omega⟩
  rw [hsame]
  exact List.count_eq_one_of_mem portRange_nodup (mem_portRange.mpr ⟨hle, hge⟩)

/-- A range inside of the 16 bits is scanned as asked. -/
theorem ScanRun.scansAsked (hstart : 0 ≤ startPort) (hend : endPort ≤ 65535)
    (run : ScanRun setup ip startPort endPort w outcome trace out) : ScansAsked startPort endPort out := by
  obtain ⟨-, hports, hfindings, -⟩ := run.leaves
  have hsorted := run.result.1.1.trans hports
  have hfound := (run.findings_isSortOf hstart hend).1.trans hfindings
  constructor
  · intro port hport
    obtain ⟨r, hr, rfl⟩ := List.mem_map.mp (hsorted.mem_iff.mp hport)
    obtain ⟨p, hp, hprobed⟩ := exists_probed run hr
    rw [hprobed.number]
    exact askedFor_of_mem hstart hend hp
  · intro f hf
    obtain ⟨r, hr, hf⟩ := List.mem_flatMap.mp (hfound.mem_iff.mp hf)
    obtain ⟨p, hp, hprobed⟩ := exists_probed run hr
    rw [(hprobed.findings_onPort f hf).portNumber]
    exact askedFor_of_mem hstart hend hp
  · exact fun p => count_dialledPorts hstart hend
  · have hnumbers := hsorted.map Port.number
    rw [List.map_map] at hnumbers
    exact hnumbers.nodup_iff.mpr (reports_number_nodup hstart hend run.probes)

/-- Every reported port is a port that was asked for, and every port that was asked for is probed once,
exactly when the range has 16 bits. -/
theorem tcpRangeScan_asked_iff (hle : startPort ≤ endPort)
    (run : ScanRun setup ip startPort endPort w outcome trace out) :
    ScansAsked startPort endPort out ↔ 0 ≤ startPort ∧ endPort ≤ 65535 := by
  constructor
  · intro hasked
    have hdialled : ∀ p, startPort ≤ p → p ≤ endPort → 0 ≤ p ∧ p ≤ 65535 := by
      intro p hstart hend
      have hmem : p ∈ dialledPorts startPort endPort :=
        List.count_pos_iff.mp (by rw [hasked.probed p hstart hend]; omega)
      obtain ⟨q, -, hq⟩ := List.mem_map.mp hmem
      rw [dialledPort_toNat] at hq
      omega
    exact ⟨(hdialled startPort (le_refl _) hle).1, (hdialled endPort hle (le_refl _)).2⟩
  · exact fun hrange => run.scansAsked hrange.1 hrange.2

end Scan

/-- What the task of a port reports on the small server. -/
theorem demo_reports (p : ℤ) (h : (probePort demoSetup (str "10.0.0.1") p demoWorld).isSome) :
    ∃ r, demoOutcome p = some r ∧ scanPort demoSetup (str "10.0.0.1") p demoWorld = some (some r) := by
  obtain ⟨r, hr⟩ := Option.isSome_iff_exists.mp h
  have hscan : scanPort demoSetup (str "10.0.0.1") p demoWorld = some (some r) := by
    have hopen : demoWorld.state = .opened := rfl
    rw [scanPort, if_pos hopen, hr, Option.map_some]
  exact ⟨r, by rw [demoOutcome, hscan, Option.getD_some], hscan⟩

/-- A range of one port. -/
theorem tcpRangeScan_asked_iff_demo : ∃ trace out,
    ScanRun demoSetup (str "10.0.0.1") 8001 8001 (fun _ => demoWorld) demoOutcome trace out ∧
      (ScansAsked 8001 8001 out ↔ (0 : ℤ) ≤ 8001 ∧ (8001 : ℤ) ≤ 65535) := by
  obtain ⟨r, houtcome, hscan⟩ := demo_reports 8001 (by decide +kernel)
  have hprobes : ∀ p ∈ portRange 8001 8001, scanPort demoSetup (str "10.0.0.1") p demoWorld = some (demoOutcome p) := by
    intro p hp
    have hrange := mem_portRange.mp hp
    obtain rfl : p = 8001 := by omega
    rw [hscan, houtcome]
  obtain ⟨trace, out, run⟩ := exists_scanRun (w := fun _ => demoWorld) hprobes
  exact ⟨trace, out, run, tcpRangeScan_asked_iff (le_refl _) run⟩

/-- Asked for port `65616`, the scan reports port `80`. -/
theorem tcpRangeScan_reports_alias : ∃ trace out,
    ScanRun demoSetup (str "10.0.0.1") 65616 65616 (fun _ => demoWorld) demoOutcome trace out ∧
      ∃ port ∈ out.ports, port.number = 80 ∧ ¬AskedFor 65616 65616 port.number := by
  obtain ⟨r, houtcome, hscan⟩ := demo_reports 65616 (by decide +kernel)
  have hprobes : ∀ p ∈ portRange 65616 65616,
      scanPort demoSetup (str "10.0.0.1") p demoWorld = some (demoOutcome p) := by
    intro p hp
    have hrange := mem_portRange.mp hp
    obtain rfl : p = 65616 := by omega
    rw [hscan, houtcome]
  obtain ⟨trace, out, run⟩ := exists_scanRun (w := fun _ => demoWorld) hprobes
  have hmem : r.port ∈ out.ports := by
    apply (run.result.1.1.trans run.leaves.2.1).mem_iff.mpr
    apply List.mem_map_of_mem
    exact List.mem_flatMap.mpr ⟨65616, mem_portRange.mpr ⟨le_refl _, le_refl _⟩, by rw [houtcome]; simp⟩
  have hnumber : r.port.number = 80 := (probed_of_scanPort hscan rfl).number
  refine ⟨trace, out, run, r.port, hmem, hnumber, ?_⟩
  rw [hnumber]
  exact fun h => absurd h.1 (by decide)

end ZeroTrust
