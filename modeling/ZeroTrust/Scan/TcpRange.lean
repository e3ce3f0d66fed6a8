import ZeroTrust.Lib.Interleaving
import ZeroTrust.Scan.PortScan

/-!
# Scanning a range of ports

`tcp_range_scan`: one task for every port, executed by worker threads in any order. A task calls
`on_port_open`, appends its results under the mutex and counts itself; these are its atomic actions.
When all tasks are done the results are sorted, not stably, and deduplicated once more.
-/

namespace ZeroTrust

open Ztl (portNumber)

/-- What a task does to the shared state. -/
inductive TaskAction
  | onPortOpen (port : Port) (findings : List Finding)
  | append (port : Port) (findings : List Finding)
  | count

/-- The shared state: the calls of `on_port_open`, the results so far and the progress counter. -/
structure ScanState where
  announced : List (Port × List Finding) := []
  ports : List Port := []
  findings : List Finding := []
  progress : ℕ := 0

/-- One atomic action. -/
def ScanState.act (st : ScanState) : TaskAction → ScanState
  | .onPortOpen port findings => { st with announced := st.announced ++ [(port, findings)] }
  | .append port findings =>
    { st with
      ports := st.ports ++ [port]
      findings := st.findings ++ findings }
  | .count => { st with progress := st.progress + 1 }

/-- The shared state after some actions. -/
def ScanState.after (trace : List TaskAction) : ScanState := trace.foldl ScanState.act {}

/-- The actions of the task whose probe had the given outcome. -/
def taskActions (ip : Bytes) : Option PortReport → List TaskAction
  | none => [.count]
  | some r => [.onPortOpen r.port (r.findings ip), .append r.port (r.findings ip), .count]

/-- The ports of a range, in the order in which their tasks are enqueued. -/
def portRange (startPort endPort : ℤ) : List ℤ :=
  (List.range (endPort - startPort + 1).toNat).map fun i : ℕ => startPort + i

/-- The tasks of a scan: no others exist. -/
def scanTasks (ip : Bytes) (startPort endPort : ℤ) (outcome : ℤ → Option PortReport) (p : ℤ) : List TaskAction :=
  if p ∈ portRange startPort endPort then taskActions ip (outcome p) else []

/-- `TcpRangeResult`. -/
structure TcpRangeResult where
  ports : List Port
  findings : List Finding

/-- `std::sort` by a key: some ordered permutation. -/
def IsSortOf {α : Type} (key : α → UInt16) (sorted l : List α) : Prop :=
  sorted.Perm l ∧ sorted.Pairwise fun a b => key a ≤ key b

/-- What `tcp_range_scan` returns when its tasks have left the given state. -/
def ScanState.Returns (st : ScanState) (out : TcpRangeResult) : Prop :=
  IsSortOf Port.number out.ports st.ports ∧
    ∃ sorted, IsSortOf Finding.portNumber sorted st.findings ∧ out.findings = deduplicateFindings sorted

/-- A run of `tcp_range_scan` in which the probes have the given outcomes: its tasks are executed in
some order. -/
structure ScanRun (setup : ScanSetup) (ip : Bytes) (startPort endPort : ℤ) (w : ℤ → PortWorld)
    (outcome : ℤ → Option PortReport) (trace : List TaskAction) (out : TcpRangeResult) : Prop where
  probes : ∀ p ∈ portRange startPort endPort, scanPort setup ip p (w p) = some (outcome p)
  schedule : Interleaves (scanTasks ip startPort endPort outcome) trace
  result : (ScanState.after trace).Returns out

/-- What an action announces. -/
def TaskAction.announces : TaskAction → List (Port × List Finding)
  | .onPortOpen port findings => [(port, findings)]
  | _ => []

/-- What an action appends. -/
def TaskAction.appends : TaskAction → List (Port × List Finding)
  | .append port findings => [(port, findings)]
  | _ => []

/-- How often an action counts. -/
def TaskAction.counts : TaskAction → List Unit
  | .count => [()]
  | _ => []

/-- The shared state is made of what the actions contributed, in their order. -/
theorem ScanState.after_eq (trace : List TaskAction) : ScanState.after trace =
    { announced := trace.flatMap TaskAction.announces
      ports := (trace.flatMap TaskAction.appends).map Prod.fst
      findings := (trace.flatMap TaskAction.appends).flatMap Prod.snd
      progress := (trace.flatMap TaskAction.counts).length } := by
  induction trace using List.reverseRecOn with
  | nil => rfl
  | append_singleton trace a ih =>
    rw [ScanState.after, List.foldl_concat, ← ScanState.after, ih]
    cases a <;>
      simp [ScanState.act, TaskAction.announces, TaskAction.appends, TaskAction.counts, List.flatMap_append]

/-- The reports of a scan, in the order of the ports. -/
def reports (startPort endPort : ℤ) (outcome : ℤ → Option PortReport) : List PortReport :=
  (portRange startPort endPort).flatMap fun p => (outcome p).toList

section Range

variable {startPort endPort : ℤ}

/-- The ports from the first to the last. -/
theorem mem_portRange {p : ℤ} : p ∈ portRange startPort endPort ↔ startPort ≤ p ∧ p ≤ endPort := by
  unfold portRange
  rw [List.mem_map]
  constructor
  · rintro ⟨i, hi, rfl⟩
    rw [List.mem_range] at hi
    omega
  · rintro ⟨hstart, hend⟩
    exact ⟨(p - startPort).toNat, by rw [List.mem_range]; omega, by omega⟩

/-- No port is asked for twice. -/
theorem portRange_nodup : (portRange startPort endPort).Nodup := by
  apply List.Nodup.map _ List.nodup_range
  intro i j h
  dsimp only at h
  omega

/-- What a schedule leaves of one kind of contribution does not depend on the order, up to the
order. -/
theorem flatMap_schedule_perm {β : Type} {ip : Bytes} {outcome : ℤ → Option PortReport}
    {trace : List TaskAction} (h : Interleaves (scanTasks ip startPort endPort outcome) trace)
    (f : TaskAction → List β) :
    (trace.flatMap f).Perm ((portRange startPort endPort).flatMap fun p => (taskActions ip (outcome p)).flatMap f) := by
  have hperm := h.perm portRange_nodup fun p hp => by rw [scanTasks, if_neg hp]
  apply (hperm.flatMap_right f).trans
  rw [List.flatMap_assoc]
  apply List.Perm.of_eq
  apply List.flatMap_congr
  intro p hp
  rw [scanTasks, if_pos hp]

/-- Every schedule announces and appends each report once, and counts each task once. -/
theorem contributions {ip : Bytes} {outcome : ℤ → Option PortReport} {trace : List TaskAction}
    (h : Interleaves (scanTasks ip startPort endPort outcome) trace) :
    (trace.flatMap TaskAction.announces).Perm
        ((reports startPort endPort outcome).map fun r => (r.port, r.findings ip)) ∧
      (trace.flatMap TaskAction.appends).Perm
        ((reports startPort endPort outcome).map fun r => (r.port, r.findings ip)) ∧
      (trace.flatMap TaskAction.counts).length = (portRange startPort endPort).length := by
  have hreports : ∀ f : TaskAction → List (Port × List Finding),
      (∀ o, (taskActions ip o).flatMap f = o.toList.map fun r => (r.port, r.findings ip)) →
      (trace.flatMap f).Perm ((reports startPort endPort outcome).map fun r => (r.port, r.findings ip)) := by
    intro f hf
    apply (flatMap_schedule_perm h f).trans
    rw [reports, List.map_flatMap]
    simp only [hf]
    exact .refl _
  refine ⟨hreports _ ?_, hreports _ ?_, ?_⟩
  · rintro (_ | r) <;> rfl
  · rintro (_ | r) <;> rfl
  · have hone : ∀ o, (taskActions ip o).flatMap TaskAction.counts = [()] := by rintro (_ | r) <;> rfl
    rw [(flatMap_schedule_perm h TaskAction.counts).length_eq]
    simp [hone]

/-- Some schedule exists. -/
theorem exists_schedule (ip : Bytes) (startPort endPort : ℤ) (outcome : ℤ → Option PortReport) :
    ∃ trace, Interleaves (scanTasks ip startPort endPort outcome) trace :=
  ⟨_, interleaves_flatMap portRange_nodup fun p hp => by rw [scanTasks, if_neg hp]⟩

end Range

/-- Every list has a sorted permutation. -/
theorem exists_isSortOf {α : Type} (key : α → UInt16) (l : List α) : ∃ sorted, IsSortOf key sorted l := by
  refine ⟨l.mergeSort fun a b => key a ≤ key b, List.mergeSort_perm _ _, ?_⟩
  have hsorted := @List.pairwise_mergeSort _ (fun a b : α => decide (key a ≤ key b))
    (fun a b c => by simpa using UInt16.le_trans) (fun a b => by simpa using UInt16.le_total (key a) (key b)) l
  exact hsorted.imp fun h => by simpa using h

/-- With distinct keys there is only one way to sort. -/
theorem IsSortOf.unique {α : Type} {key : α → UInt16} {sorted sorted' l l' : List α} (h : IsSortOf key sorted l)
    (h' : IsSortOf key sorted' l') (hl : l.Perm l') (hkeys : (l.map key).Nodup) : sorted = sorted' := by
  have hperm : sorted.Perm sorted' := h.1.trans (hl.trans h'.1.symm)
  apply List.Perm.eq_of_pairwise _ h.2 h'.2 hperm
  intro a b ha hb hab hba
  exact List.inj_on_of_nodup_map hkeys (h.1.mem_iff.mp ha) (h.1.mem_iff.mp (hperm.mem_iff.mpr hb))
    (UInt16.le_antisymm hab hba)

section Scan

variable {setup : ScanSetup} {ip : Bytes} {startPort endPort : ℤ} {w : ℤ → PortWorld}
  {outcome : ℤ → Option PortReport} {trace : List TaskAction} {out : TcpRangeResult}

/-- A port with a report was probed. -/
theorem probed_of_scanPort {p : ℤ} {w : PortWorld} {o : Option PortReport} {r : PortReport}
    (hscan : scanPort setup ip p w = some o) (hr : o = some r) : Probed setup ip p w r := by
  rw [hr, scanPort] at hscan
  split at hscan
  · obtain ⟨r', hprobe, hr'⟩ := Option.map_eq_some_iff.mp hscan
    cases hr'
    exact probePort_spec hprobe
  · cases hscan

/-- What reports of different ports contribute is different when it tells the port. -/
theorem flatMap_reports_nodup {β : Type} (hstart : 0 ≤ startPort) (hend : endPort ≤ 65535)
    (hprobes : ∀ p ∈ portRange startPort endPort, scanPort setup ip p (w p) = some (outcome p))
    (f : PortReport → List β) (tells : β → UInt16 → Prop)
    (hnodup : ∀ r ∈ reports startPort endPort outcome, (f r).Nodup)
    (htells : ∀ p r, Probed setup ip p (w p) r → ∀ x ∈ f r, tells x (portNumber p))
    (hone : ∀ x m n, tells x m → tells x n → m = n) :
    ((reports startPort endPort outcome).flatMap f).Nodup := by
  rw [reports, List.flatMap_assoc, List.nodup_flatMap]
  have hprobed : ∀ p ∈ portRange startPort endPort, ∀ r ∈ (outcome p).toList, Probed setup ip p (w p) r :=
    fun p hp r hr => probed_of_scanPort (hprobes p hp) (Option.mem_toList.mp hr)
  constructor
  · intro p hp
    cases hr : outcome p with
    | none => exact List.nodup_nil
    | some r =>
      simpa using hnodup r (List.mem_flatMap.mpr ⟨p, hp, by simp [hr]⟩)
  · apply portRange_nodup.pairwise_of_forall_ne
    intro p hp q hq hpq x hxp hxq
    obtain ⟨r, hr, hx⟩ := List.mem_flatMap.mp hxp
    obtain ⟨r', hr', hx'⟩ := List.mem_flatMap.mp hxq
    have hp' := mem_portRange.mp hp
    have hq' := mem_portRange.mp hq
    apply hpq
    apply portNumber_injOn (by omega) (by omega)
    exact hone x _ _ (htells p r (hprobed p hp r hr) x hx) (htells q r' (hprobed q hq r' hr') x hx')

/-- Ports are reported once. -/
theorem reports_number_nodup (hstart : 0 ≤ startPort) (hend : endPort ≤ 65535)
    (hprobes : ∀ p ∈ portRange startPort endPort, scanPort setup ip p (w p) = some (outcome p)) :
    ((reports startPort endPort outcome).map fun r => r.port.number).Nodup := by
  have hsingle : ((reports startPort endPort outcome).map fun r => r.port.number) =
      (reports startPort endPort outcome).flatMap fun r => [r.port.number] :=
    List.map_eq_flatMap
  rw [hsingle]
  apply flatMap_reports_nodup hstart hend hprobes _ Eq
  · exact fun _ _ => List.nodup_singleton _
  · intro p r hr number hnumber
    rw [List.mem_singleton.mp hnumber, hr.number]
  · exact fun _ _ _ hm hn => hm.symm.trans hn

/-- All findings of a scan have distinct identities. -/
theorem reports_identity_nodup (hstart : 0 ≤ startPort) (hend : endPort ≤ 65535)
    (hprobes : ∀ p ∈ portRange startPort endPort, scanPort setup ip p (w p) = some (outcome p)) :
    (((reports startPort endPort outcome).flatMap fun r => r.findings ip).map findingIdentity).Nodup := by
  rw [List.map_flatMap]
  apply flatMap_reports_nodup hstart hend hprobes _
    (fun key number => ∃ f : Finding, f.OnPort ip number ∧ findingIdentity f = key)
  · exact fun r _ => deduplicateFindings_nodup _
  · intro p r hr key hkey
    obtain ⟨f, hf, rfl⟩ := List.mem_map.mp hkey
    exact ⟨f, hr.findings_onPort f hf, rfl⟩
  · rintro key m n ⟨f, hf, rfl⟩ ⟨g, hg, hkey⟩
    have hinj := findingIdentity_port_inj hf.scope hg.scope (hf.host.trans hg.host.symm) hkey.symm
    rw [← hf.portNumber, ← hg.portNumber, hinj.1]

/-- What a run leaves, whatever its order: the results of the reports, each task counted once. -/
theorem ScanRun.leaves (run : ScanRun setup ip startPort endPort w outcome trace out) :
    (ScanState.after trace).announced.Perm
        ((reports startPort endPort outcome).map fun r => (r.port, r.findings ip)) ∧
      (ScanState.after trace).ports.Perm ((reports startPort endPort outcome).map fun r => r.port) ∧
      (ScanState.after trace).findings.Perm ((reports startPort endPort outcome).flatMap fun r => r.findings ip) ∧
      (ScanState.after trace).progress = (portRange startPort endPort).length := by
  obtain ⟨hannounced, happended, hcounted⟩ := contributions run.schedule
  rw [ScanState.after_eq]
  refine ⟨hannounced, ?_, ?_, hcounted⟩
  · have hports := happended.map Prod.fst
    rwa [List.map_map] at hports
  · have hfindings := happended.flatMap_right Prod.snd
    rwa [List.flatMap_map] at hfindings

/-- Nothing is left for the last deduplication. -/
theorem ScanRun.deduplicate_sorted (hstart : 0 ≤ startPort) (hend : endPort ≤ 65535)
    (run : ScanRun setup ip startPort endPort w outcome trace out) {sorted : List Finding}
    (hsorted : IsSortOf Finding.portNumber sorted (ScanState.after trace).findings) :
    deduplicateFindings sorted = sorted := by
  apply deduplicateFindings_of_nodup
  have hperm := (hsorted.1.trans run.leaves.2.2.1).map findingIdentity
  exact hperm.nodup_iff.mpr (reports_identity_nodup hstart hend run.probes)

/-- The findings that a run returns are those it appended, sorted. -/
theorem ScanRun.findings_isSortOf (hstart : 0 ≤ startPort) (hend : endPort ≤ 65535)
    (run : ScanRun setup ip startPort endPort w outcome trace out) :
    IsSortOf Finding.portNumber out.findings (ScanState.after trace).findings := by
  obtain ⟨-, sorted, hsorted, hout⟩ := run.result
  rw [hout, run.deduplicate_sorted hstart hend hsorted]
  exact hsorted

/-- The results of a scan do not depend on the order in which its tasks are executed. -/
theorem tcpRangeScan_schedule_independent (hstart : 0 ≤ startPort) (hle : startPort ≤ endPort)
    (hend : endPort ≤ 65535) {trace' : List TaskAction} {out' : TcpRangeResult}
    (run : ScanRun setup ip startPort endPort w outcome trace out)
    (run' : ScanRun setup ip startPort endPort w outcome trace' out') :
    (out.ports = out'.ports ∧ out.ports.Pairwise fun a b => a.number ≤ b.number) ∧
      (∀ n, (out.findings.filter (·.portNumber = n)).Perm (out'.findings.filter (·.portNumber = n))) ∧
      (out.findings.Pairwise fun a b => a.portNumber ≤ b.portNumber) ∧
      (∀ sorted, IsSortOf Finding.portNumber sorted (ScanState.after trace).findings →
        deduplicateFindings sorted = sorted) ∧
      (((ScanState.after trace).announced.map Prod.fst).Perm out.ports ∧
        ((ScanState.after trace).announced.flatMap Prod.snd).Perm out.findings) ∧
      (ScanState.after trace).progress = endPort - startPort + 1 := by
  obtain ⟨hannounced, hports, hfindings, hprogress⟩ := run.leaves
  obtain ⟨-, hports', hfindings', -⟩ := run'.leaves
  have hsorted := run.findings_isSortOf hstart hend
  have hsorted' := run'.findings_isSortOf hstart hend
  have hnumbers : ((ScanState.after trace).ports.map Port.number).Nodup := by
    have hperm := hports.map Port.number
    rw [List.map_map] at hperm
    exact hperm.nodup_iff.mpr (reports_number_nodup hstart hend run.probes)
  refine ⟨⟨?_, run.result.1.2⟩, ?_, hsorted.2, fun _ => run.deduplicate_sorted hstart hend, ⟨?_, ?_⟩, ?_⟩
  · exact run.result.1.unique run'.result.1 (hports.trans hports'.symm) hnumbers
  · intro n
    apply List.Perm.filter
    exact hsorted.1.trans (hfindings.trans (hfindings'.symm.trans hsorted'.1.symm))
  · have hfst := hannounced.map Prod.fst
    rw [List.map_map] at hfst
    exact hfst.trans (hports.symm.trans run.result.1.1.symm)
  · have hsnd := hannounced.flatMap_right Prod.snd
    rw [List.flatMap_map] at hsnd
    exact hsnd.trans (hfindings.symm.trans hsorted.1.symm)
  · rw [hprogress, portRange, List.length_map, List.length_range]
    omega

/-- Every schedule ends in some result. -/
theorem exists_scanRun_of_schedule
    (hprobes : ∀ p ∈ portRange startPort endPort, scanPort setup ip p (w p) = some (outcome p))
    (hschedule : Interleaves (scanTasks ip startPort endPort outcome) trace) :
    ∃ out, ScanRun setup ip startPort endPort w outcome trace out := by
  obtain ⟨ports, hports⟩ := exists_isSortOf Port.number (ScanState.after trace).ports
  obtain ⟨sorted, hsorted⟩ := exists_isSortOf Finding.portNumber (ScanState.after trace).findings
  exact ⟨⟨ports, deduplicateFindings sorted⟩, hprobes, hschedule, hports, sorted, hsorted, rfl⟩

/-- Some run exists. -/
theorem exists_scanRun
    (hprobes : ∀ p ∈ portRange startPort endPort, scanPort setup ip p (w p) = some (outcome p)) :
    ∃ trace out, ScanRun setup ip startPort endPort w outcome trace out := by
  obtain ⟨trace, htrace⟩ := exists_schedule ip startPort endPort outcome
  exact ⟨trace, exists_scanRun_of_schedule hprobes htrace⟩

end Scan

/-- One service pattern and one vulnerability of the service that it detects. -/
def demoSetup : ScanSetup where
  plugins := []
  cves := [{ cveId := str "CVE-2024-0001", product := str "demod", versionMin := str "1.0", versionMax := str "1.9" }]
  fixes := .empty
  patterns := [⟨fun banner => if banner = str "demod 1.2" then some [str "demod", str "1.2"] else none, str "demo"⟩]

/-- An open port on which the vulnerable service answers. -/
def demoWorld : PortWorld where
  state := .opened
  greeting := str "demod 1.2"
  requested := some true
  reply := []
  ssh := ⟨.closed, [], some false, some false, fun _ => []⟩
  sshClock := 0
  tls := ⟨some {}, fun _ => some {}, fun _ => 0⟩
  net := Ztl.silentNetwork
  clock := fun _ => 0

/-- The reports of the small scan. -/
def demoOutcome (p : ℤ) : Option PortReport :=
  (scanPort demoSetup (str "10.0.0.1") p demoWorld).getD none

/-- Two ports in either order. -/
theorem tcpRangeScan_schedule_independent_demo : ∃ out out',
    (ScanState.after ([8001, 8002].flatMap (scanTasks (str "10.0.0.1") 8001 8002 demoOutcome))).Returns out ∧
      (ScanState.after ([8002, 8001].flatMap (scanTasks (str "10.0.0.1") 8001 8002 demoOutcome))).Returns out' ∧
      out.ports = out'.ports ∧
      ∀ n, (out.findings.filter (·.portNumber = n)).Perm (out'.findings.filter (·.portNumber = n)) := by
  have hprobes : ∀ p ∈ portRange 8001 8002,
      scanPort demoSetup (str "10.0.0.1") p demoWorld = some (demoOutcome p) := by
    intro p hp
    have hrange := mem_portRange.mp hp
    have hsome : (scanPort demoSetup (str "10.0.0.1") p demoWorld).isSome = true := by
      obtain rfl | rfl : p = 8001 ∨ p = 8002 := by omega
      · decide +kernel
      · decide +kernel
    obtain ⟨o, ho⟩ := Option.isSome_iff_exists.mp hsome
    rw [demoOutcome, ho]
    rfl
  have hrun : ∀ ps : List ℤ, ps.Perm [8001, 8002] → ∃ out, ScanRun demoSetup (str "10.0.0.1") 8001 8002
      (fun _ => demoWorld) demoOutcome (ps.flatMap (scanTasks (str "10.0.0.1") 8001 8002 demoOutcome)) out := by
    intro ps hps
    apply exists_scanRun_of_schedule hprobes
    apply interleaves_flatMap (hps.nodup_iff.mpr (by decide))
    intro p hp
    rw [scanTasks, if_neg]
    intro hrange
    rw [mem_portRange] at hrange
    rw [hps.mem_iff, List.mem_cons, List.mem_singleton] at hp
    omega
  obtain ⟨out, hout⟩ := hrun [8001, 8002] (.refl _)
  obtain ⟨out', hout'⟩ := hrun [8002, 8001] (.swap _ _ _)
  have hsame := tcpRangeScan_schedule_independent (by decide) (by decide) (by decide) hout hout'
  exact ⟨out, out', hout.result, hout'.result, hsame.1.1, hsame.2.1⟩

end ZeroTrust
