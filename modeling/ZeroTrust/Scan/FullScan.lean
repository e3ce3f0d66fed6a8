import ZeroTrust.Scan.PooledScan
import ZeroTrust.Scan.Reporter
import Mathlib.Algebra.BigOperators.Fin

/-!
# The full scan

`main` scans the hosts of a network one after the other, each on a pool of its own. Its tasks are those of
`tcp_range_scan` up to what they do with a report: they append it to the host and tick the reporter. Every host
gets a result that `tcp_range_scan` could return, and the ticks are as many as `main` has announced.
-/

namespace ZeroTrust

/-- What a task does: an access to the host under its mutex, and the tick of the guard. -/
inductive HostAction
  | append (port : Port) (findings : List Finding)
  | tick

/-- The actions of the task whose probe had the given outcome. -/
def hostActions (ip : Bytes) : Option PortReport → List HostAction
  | none => [.tick]
  | some r => [.append r.port (r.findings ip), .tick]

/-- The tasks of a host: no others exist. -/
def hostTasks (ip : Bytes) (startPort endPort : ℤ) (outcome : ℤ → Option PortReport) (p : ℤ) : List HostAction :=
  if p ∈ portRange startPort endPort then hostActions ip (outcome p) else []

/-- What the tasks of a host leave: `host.ports` and `host.findings` before they are sorted, and the ticks. -/
structure HostState where
  ports : List Port := []
  findings : List Finding := []
  ticks : ℕ := 0

/-- One atomic action. -/
def HostState.act (st : HostState) : HostAction → HostState
  | .append port findings =>
    { st with
      ports := st.ports ++ [port]
      findings := st.findings ++ findings }
  | .tick => { st with ticks := st.ticks + 1 }

/-- What some actions leave. -/
def HostState.after (trace : List HostAction) : HostState := trace.foldl HostState.act {}

/-- The host at its report: sorted, and its findings without duplicates. -/
structure HostState.Reports (st : HostState) (out : TcpRangeResult) : Prop where
  ports : IsSortOf Port.number out.ports st.ports
  findings : ∃ sorted, IsSortOf Finding.portNumber sorted st.findings ∧ out.findings = deduplicateFindings sorted

/-- The scan of a host on a pool of `n` threads: how the pool was scheduled until all its threads were joined, and
what was reported. -/
structure HostScan (n : ℕ) (setup : ScanSetup) (ip : Bytes) (startPort endPort : ℤ) (world : ℤ → PortWorld) where
  events : List (PooledEvent ℤ n)
  last : PooledTasks ℤ HostAction n
  run : PooledTasks.PooledRun (hostTasks ip startPort endPort (scannedPort setup ip world)) events last
  enqueued : PooledTasks.enqueued events = portRange startPort endPort
  joined : last.pool.caller = .joining n
  result : TcpRangeResult
  reported : (HostState.after last.done).Reports result

/-- The number of ticks of a host. -/
def HostScan.ticks {n : ℕ} {setup : ScanSetup} {ip : Bytes} {startPort endPort : ℤ} {world : ℤ → PortWorld}
    (scan : HostScan n setup ip startPort endPort world) : ℕ := (HostState.after scan.last.done).ticks

/-- The full scan: pools of 50 threads, one host of the network after the other. -/
abbrev FullScan (setup : ScanSetup) (network : Bytes) (startPort endPort : ℤ)
    (world : Fin (expandCidr network).length → ℤ → PortWorld) : Type :=
  ∀ i, HostScan 50 setup ((expandCidr network).get i) startPort endPort (world i)

/-- The number of ticks of all hosts. -/
def FullScan.ticks {setup : ScanSetup} {network : Bytes} {startPort endPort : ℤ}
    {world : Fin (expandCidr network).length → ℤ → PortWorld}
    (scan : FullScan setup network startPort endPort world) : ℕ := ∑ i, (scan i).ticks

/-- What `tcp_range_scan` does in place of an action. -/
def HostAction.expand : HostAction → List TaskAction
  | .append port findings => [.onPortOpen port findings, .append port findings]
  | .tick => [.count]

/-- The actions of a task of a host are those of a range scan. -/
theorem expand_hostActions (ip : Bytes) (o : Option PortReport) :
    (hostActions ip o).flatMap HostAction.expand = taskActions ip o := by cases o <;> rfl

/-- So are the tasks. -/
theorem expand_hostTasks (ip : Bytes) (startPort endPort : ℤ) (outcome : ℤ → Option PortReport) :
    (fun p => (hostTasks ip startPort endPort outcome p).flatMap HostAction.expand) =
      scanTasks ip startPort endPort outcome := by
  funext p
  unfold hostTasks scanTasks
  split
  · exact expand_hostActions ip (outcome p)
  · rfl

/-- A host and a range scan that does the smaller actions have the same ports, findings and counts. -/
theorem after_expand (trace : List HostAction) : HostState.after trace =
    ⟨(ScanState.after (trace.flatMap HostAction.expand)).ports,
      (ScanState.after (trace.flatMap HostAction.expand)).findings,
      (ScanState.after (trace.flatMap HostAction.expand)).progress⟩ := by
  induction trace using List.reverseRecOn with
  | nil => rfl
  | append_singleton trace a ih =>
    have hhost : HostState.after (trace ++ [a]) = (HostState.after trace).act a := by
      rw [HostState.after, List.foldl_concat, ← HostState.after]
    have hscan : ScanState.after ((trace ++ [a]).flatMap HostAction.expand) =
        a.expand.foldl ScanState.act (ScanState.after (trace.flatMap HostAction.expand)) := by
      rw [List.flatMap_append, List.flatMap_singleton, ScanState.after, List.foldl_append, ← ScanState.after]
    rw [hhost, hscan, ih]
    cases a <;> rfl

section Host

variable {n : ℕ} {setup : ScanSetup} {ip : Bytes} {startPort endPort : ℤ} {world : ℤ → PortWorld}

/-- The pool executes the tasks of the host in some order, with the smaller actions. -/
theorem HostScan.scanRun (hn : 0 < n) (hends : RangeEnds setup ip startPort endPort world)
    (scan : HostScan n setup ip startPort endPort world) :
    ScanRun setup ip startPort endPort world (scannedPort setup ip world)
      (scan.last.done.flatMap HostAction.expand) scan.result where
  probes := hends.probes
  schedule := by
    have henqueued : ∀ p, hostTasks ip startPort endPort (scannedPort setup ip world) p ≠ [] →
        p ∈ PooledTasks.enqueued scan.events := by
      intro p hp
      rw [scan.enqueued]
      by_contra hmem
      exact hp (if_neg hmem)
    have hschedule := (scan.run.interleaves hn henqueued scan.joined).flatMap HostAction.expand
    rwa [expand_hostTasks] at hschedule
  result := by
    have hreported := scan.reported
    rw [after_expand] at hreported
    exact ⟨hreported.ports, hreported.findings⟩

/-- Every port of the range is ticked once. -/
theorem HostScan.ticks_eq (hn : 0 < n) (hends : RangeEnds setup ip startPort endPort world)
    (scan : HostScan n setup ip startPort endPort world) : scan.ticks = (portRange startPort endPort).length := by
  rw [HostScan.ticks, after_expand]
  exact (scan.scanRun hn hends).leaves.2.2.2

/-- Any host can be scanned by any number of threads. -/
theorem nonempty_hostScan : Nonempty (HostScan n setup ip startPort endPort world) := by
  have hnodup : (portRange startPort endPort).Nodup := portRange_nodup
  have houtside : ∀ p, p ∉ portRange startPort endPort →
      hostTasks ip startPort endPort (scannedPort setup ip world) p = [] := fun p hp => if_neg hp
  obtain ⟨events, last, run, henqueued, hjoined⟩ := PooledTasks.exists_pooledRun n hnodup houtside
  obtain ⟨ports, hports⟩ := exists_isSortOf Port.number (HostState.after last.done).ports
  obtain ⟨sorted, hsorted⟩ := exists_isSortOf Finding.portNumber (HostState.after last.done).findings
  exact ⟨⟨events, last, run, henqueued, hjoined, ⟨ports, deduplicateFindings sorted⟩, hports, sorted, hsorted, rfl⟩⟩

end Host

/-- The number of ports, which is zero for a range that ends before it starts. -/
theorem length_portRange (startPort endPort : ℤ) :
    (portRange startPort endPort).length = (endPort - startPort + 1).toNat := by
  rw [portRange, List.length_map, List.length_range]

/-- If `main` computes a number without an overflow, it is the product. -/
theorem eq_of_totalScans {hosts : ℕ} {startPort endPort total : ℤ} (hhosts : hosts < 2 ^ 31)
    (h : totalScans hosts startPort endPort = some total) : total = hosts * (endPort - startPort + 1) := by
  have hchecked : ∀ {x y : ℤ}, checkedInt x = some y → y = x := by
    intro x y hxy
    unfold checkedInt at hxy
    split at hxy
    · exact (Option.some.inj hxy).symm
    · cases hxy
  simp only [totalScans, Option.bind_eq_bind, Option.bind_eq_some_iff] at h
  obtain ⟨difference, hdifference, portsPerHost, hportsPerHost, htotal⟩ := h
  obtain rfl := hchecked hdifference
  obtain rfl := hchecked hportsPerHost
  rw [hchecked htotal, Int.bmod_eq_of_le (by omega) (by omega)]

/-- For every network whose probes come to their ends there is a full scan; and however the pools are scheduled,
each host of a full scan gets a result that `tcp_range_scan` returns for it when its probes answer the same, all its
findings are about that host, and the reporter is ticked as often as `main` has announced. -/
theorem full_scan {setup : ScanSetup} {network : Bytes} {startPort endPort : ℤ}
    {world : Fin (expandCidr network).length → ℤ → PortWorld}
    (hends : ∀ i, RangeEnds setup ((expandCidr network).get i) startPort endPort (world i)) :
    Nonempty (FullScan setup network startPort endPort world) ∧
      ∀ scan : FullScan setup network startPort endPort world,
        (∀ i, ∃ trace, ScanRun setup ((expandCidr network).get i) startPort endPort (world i)
          (scannedPort setup ((expandCidr network).get i) (world i)) trace (scan i).result) ∧
        (∀ i, ∀ f ∈ (scan i).result.findings, ∃ port ∈ (scan i).result.ports,
          f.OnPort ((expandCidr network).get i) port.number) ∧
        (startPort ≤ endPort → ∀ total, totalScans (expandCidr network).length startPort endPort = some total →
          (scan.ticks : ℤ) = total) := by
  refine ⟨⟨fun i => Classical.choice nonempty_hostScan⟩, fun scan => ?_⟩
  have hrun (i : Fin (expandCidr network).length) := (scan i).scanRun (by decide) (hends i)
  refine ⟨fun i => ⟨_, hrun i⟩, fun i f hf => ?_, fun hle total htotal => ?_⟩
  · obtain ⟨hports, sorted, hsorted, hout⟩ := (hrun i).result
    obtain ⟨-, hreports, hfindings, -⟩ := (hrun i).leaves
    rw [hout] at hf
    obtain ⟨g, hg, -, evidence, description, rfl⟩ := mem_deduplicateFindings hf
    obtain ⟨r, hr, hgr⟩ := List.mem_flatMap.mp ((hsorted.1.trans hfindings).mem_iff.mp hg)
    obtain ⟨p, hp, hpr⟩ := List.mem_flatMap.mp hr
    have hprobed := probed_of_scanPort ((hends i).probes p hp) (Option.mem_toList.mp hpr)
    have hon := hprobed.findings_onPort g hgr
    refine ⟨r.port, (hports.1.trans hreports).mem_iff.mpr (List.mem_map_of_mem hr), ?_⟩
    exact ⟨hon.host, hon.scope, hon.portNumber.trans hprobed.number.symm⟩
  · have hhosts := length_expandCidr_le network
    have hticks : scan.ticks = (expandCidr network).length * (portRange startPort endPort).length := by
      unfold FullScan.ticks
      rw [Finset.sum_congr rfl fun i _ => (scan i).ticks_eq (by decide) (hends i)]
      simp
    rw [eq_of_totalScans (by omega) htotal, hticks, length_portRange, Nat.cast_mul,
      Int.toNat_of_nonneg (by omega)]

/-- Two hosts with two open ports and a closed one each, and the vulnerability of the open ports. -/
theorem full_scan_sample : ∃ scan : FullScan demoSetup (str "10.0.0.0/31") 8001 8003 fun _ => demoHost,
    scan.ticks = 6 ∧ ∀ i, ((scan i).result.ports.map Port.number).Perm [8001, 8002] ∧
      ((scan i).result.findings.map Finding.cveId).Perm [str "CVE-2024-0001", str "CVE-2024-0001"] ∧
      ∀ f ∈ (scan i).result.findings, f.host = (expandCidr (str "10.0.0.0/31")).get i := by
  have hhosts : ∀ ip ∈ expandCidr (str "10.0.0.0/31"), ip ∈ [str "10.0.0.0", str "10.0.0.1"] := by decide +kernel
  have hscanned (i : Fin (expandCidr (str "10.0.0.0/31")).length) :=
    scanned_demoHost (hhosts _ (List.get_mem (expandCidr (str "10.0.0.0/31")) i))
  obtain ⟨⟨scan⟩, hall⟩ := full_scan fun i => (hscanned i).1
  obtain ⟨hruns, honPort, hticks⟩ := hall scan
  refine ⟨scan, Int.ofNat_inj.mp (hticks (by decide) 6 (by decide +kernel)), fun i => ?_⟩
  obtain ⟨trace, run⟩ := hruns i
  obtain ⟨-, r, r', hr, hr', ⟨hnumber, hnumber'⟩, hfindings, hfindings'⟩ := hscanned i
  obtain ⟨-, hports, hfound, -⟩ := run.leaves
  rw [reports_demoHost hr hr'] at hports hfound
  refine ⟨?_, ?_, fun f hf => ?_⟩
  · have hnumbers := (run.result.1.1.trans hports).map Port.number
    rw [List.map_map] at hnumbers
    exact hnumbers.trans (.of_eq (congrArg₂ (fun a b => [a, b]) hnumber hnumber'))
  · have hnames := ((run.findings_isSortOf (by decide) (by decide)).1.trans hfound).map Finding.cveId
    rwa [List.flatMap_cons, List.flatMap_cons, List.flatMap_nil, List.append_nil, List.map_append, hfindings,
      hfindings'] at hnames
  · obtain ⟨port, -, hon⟩ := honPort i f hf
    exact hon.host

end ZeroTrust
