import ZeroTrust.Processor.Wakeups
import ZeroTrust.Scan.ScanEnds

/-!
# A scan on the thread pool

The tasks of `tcp_range_scan` on the pool that executes them, action by action. However the pool schedules them,
the executed actions are an interleaving of the tasks, and the scan returns what a scan of one port after the
other would return.
-/

namespace ZeroTrust

open Function (update update_self update_of_ne)
open Ztl (portNumber)

/-- A pool whose tasks are made of actions, with what is left of every task and what has been done. -/
structure PooledTasks (ι α : Type) (n : ℕ) where
  pool : WakingPool ι n := {}
  todo : ι → List α
  done : List α := []

/-- A step of the pool, or the next action of the task that a thread is in. -/
inductive PooledEvent (ι : Type) (n : ℕ)
  | pool (e : WakingEvent ι n)
  | act (i : Fin n)

/-- The step of the pool alone. -/
def PooledEvent.ofPool {ι : Type} {n : ℕ} : PooledEvent ι n → Option (WakingEvent ι n)
  | .pool e => some e
  | .act _ => none

namespace PooledTasks

variable {ι α : Type} {n : ℕ}

/-- A thread does not return from a task of which something is left. -/
def allows (st : PooledTasks ι α n) : WakingEvent ι n → Bool
  | .finish i =>
    match st.pool.threads i with
    | .running k => (st.todo k).isEmpty
    | _ => false
  | _ => true

/-- A step of the pool executes at most a task of which nothing is left. -/
theorem executed_of_step {st : PooledTasks ι α n} {pool : WakingPool ι n} {e : WakingEvent ι n}
    (hallowed : st.allows e = true) (h : st.pool.step e = some pool) :
    ∀ k ∈ pool.executed, k ∈ st.pool.executed ∨ st.todo k = [] := by
  cases WakingPool.steps_of_step h with
  | finish i task running =>
    intro k hk
    rcases List.mem_append.mp hk with hk | hk
    · exact .inl hk
    · obtain rfl := List.mem_singleton.mp hk
      simp only [allows, running] at hallowed
      exact .inr (List.isEmpty_iff.mp hallowed)
  | _ => exact fun k hk => .inl hk

variable [DecidableEq ι]

/-- A step. -/
def step (st : PooledTasks ι α n) : PooledEvent ι n → Option (PooledTasks ι α n)
  | .pool e => if st.allows e then (st.pool.step e).map fun pool => { st with pool := pool } else none
  | .act i =>
    match st.pool.threads i with
    | .running k =>
      match st.todo k with
      | a :: rest => some { st with todo := update st.todo k rest, done := st.done ++ [a] }
      | [] => none
    | _ => none

/-- What a step does. -/
inductive Steps (st : PooledTasks ι α n) : PooledEvent ι n → PooledTasks ι α n → Prop
  | pool {e : WakingEvent ι n} {pool : WakingPool ι n} (allowed : st.allows e = true)
    (taken : st.pool.step e = some pool) : Steps st (.pool e) { st with pool := pool }
  | act (i : Fin n) {k : ι} {a : α} {rest : List α} (running : st.pool.threads i = .running k)
    (next : st.todo k = a :: rest) :
    Steps st (.act i) { st with todo := update st.todo k rest, done := st.done ++ [a] }

variable {st st' : PooledTasks ι α n} {e : PooledEvent ι n} {events : List (PooledEvent ι n)} {body : ι → List α}

/-- A step does one of these. -/
theorem steps_of_step (h : st.step e = some st') : st.Steps e st' := by
  cases e with
  | pool e =>
    simp only [step] at h
    split at h
    · next hallowed =>
      obtain ⟨pool, hpool, rfl⟩ := Option.map_eq_some_iff.mp h
      exact .pool hallowed hpool
    · cases h
  | act i =>
    simp only [step] at h
    split at h
    · next k hrunning =>
      split at h
      · next a rest hnext => exact Option.some.inj h ▸ .act i hrunning hnext
      · cases h
    · cases h

/-- How a run of the pool keeps the tasks: what has been done continues with what is left, and nothing is left of
an executed task. -/
structure Follows (st : PooledTasks ι α n) (body : ι → List α) : Prop where
  continues : ∀ rest, Interleaves st.todo rest → Interleaves body (st.done ++ rest)
  executed : ∀ k ∈ st.pool.executed, st.todo k = []
  empty : ∀ k, body k = [] → st.todo k = []

/-- A step follows the tasks. -/
theorem Steps.follows (h : st.Steps e st') (hf : st.Follows body) : st'.Follows body := by
  cases h with
  | pool allowed taken =>
    refine ⟨hf.continues, fun k hk => ?_, hf.empty⟩
    rcases executed_of_step allowed taken k hk with hk | hk
    · exact hf.executed k hk
    · exact hk
  | @act i k a rest running next =>
    have hother (j : ι) (hj : st.todo j = []) : update st.todo k rest j = [] := by
      have hne : j ≠ k := by
        rintro rfl
        cases hj.symm.trans next
      rw [update_of_ne hne, hj]
    refine ⟨fun later hlater => ?_, fun j hj => hother j (hf.executed j hj), fun j hj => hother j (hf.empty j hj)⟩
    show Interleaves body (st.done ++ [a] ++ later)
    rw [List.append_assoc]
    exact hf.continues _ (.step next hlater)

/-- A history of a pool that is given tasks. -/
abbrev PooledRun (body : ι → List α) (events : List (PooledEvent ι n)) (st : PooledTasks ι α n) : Prop :=
  Run step ({ todo := body } : PooledTasks ι α n) events st

/-- So does a run. -/
theorem PooledRun.follows (run : PooledRun body events st) : st.Follows body := by
  induction run with
  | nil => exact ⟨fun rest h => h, fun k hk => (by cases hk), fun k hk => hk⟩
  | next run taken ih => exact (steps_of_step taken).follows ih

/-- The pool has a history of its own. -/
theorem pool_of_run (run : Run step st events st') :
    Run WakingPool.step st.pool (events.filterMap PooledEvent.ofPool) st'.pool := by
  induction run with
  | nil => exact .nil
  | next run taken ih =>
    rw [List.filterMap_append]
    cases steps_of_step taken with
    | pool allowed hpool => exact .next ih hpool
    | act i running next =>
      show Run _ _ (_ ++ []) _
      rw [List.append_nil]
      exact ih

/-- The pool that is given tasks is a pool from its construction on. -/
theorem PooledRun.pool (run : PooledRun body events st) :
    WakingPool.WakingRun (events.filterMap PooledEvent.ofPool) st.pool := pool_of_run run

/-- The tasks that the owner has enqueued. -/
def enqueued (events : List (PooledEvent ι n)) : List ι :=
  enqueuedTasks ((events.filterMap PooledEvent.ofPool).flatMap fun e => e.forget.toList)

/-- When the pool is gone, what has been done is an interleaving of the tasks. -/
theorem PooledRun.interleaves (hn : 0 < n) (run : PooledRun body events st)
    (henqueued : ∀ k, body k ≠ [] → k ∈ enqueued events) (hjoined : st.pool.caller = .joining n) :
    Interleaves body st.done := by
  have hfollows := run.follows
  have hexecuted := run.pool.executed_perm hn hjoined
  have hnothing : ∀ k, st.todo k = [] := by
    intro k
    by_cases hk : body k = []
    · exact hfollows.empty k hk
    · exact hfollows.executed k (hexecuted.mem_iff.mpr (henqueued k hk))
  have hall := hfollows.continues [] (.done hnothing)
  rwa [List.append_nil] at hall

/-- A pool that is being destroyed goes on until all threads are joined: a thread that cannot return from its task
can go on with it. -/
theorem PooledRun.exists_step (run : PooledRun body events st) (hstop : st.pool.stop = true)
    (hjoined : st.pool.caller ≠ .joining n) : ∃ e st', st.step e = some st' := by
  have hclosing := run.pool.closing hstop
  obtain ⟨e, he⟩ := hclosing.exists_step run.pool.alert hjoined
  obtain ⟨pool, hpool⟩ := Option.ne_none_iff_exists'.mp he
  by_cases hallowed : st.allows e = true
  · exact ⟨.pool e, { st with pool := pool }, by simp only [step, hallowed, if_true, hpool, Option.map_some]⟩
  · cases WakingPool.steps_of_step hpool with
    | finish i k running =>
      simp only [allows, running, List.isEmpty_iff] at hallowed
      obtain ⟨a, rest, hnext⟩ := List.exists_cons_of_ne_nil hallowed
      exact ⟨.act i, _, by simp only [step, running, hnext]; rfl⟩
    | _ => exact absurd rfl hallowed

/-- How many steps are left at most in the destructor, with the actions of some tasks. -/
def left (st : PooledTasks ι α n) (ks : List ι) : ℕ := st.pool.ahead + (ks.flatMap st.todo).length

/-- Every step of a pool that is being destroyed brings its tasks nearer to their end. -/
theorem Steps.left_lt {ks : List ι} (hnodup : ks.Nodup) (hks : ∀ k, k ∉ ks → st.todo k = []) (h : st.Steps e st')
    (hclosing : st.pool.Closing) : st'.left ks < st.left ks := by
  cases h with
  | pool allowed taken => exact Nat.add_lt_add_right ((WakingPool.steps_of_step taken).ahead_lt hclosing) _
  | @act i k a rest running next =>
    have hk : k ∈ ks := by
      by_contra hk
      cases next.symm.trans (hks k hk)
    have hlength := (flatMap_perm_cons next hnodup hk).length_eq
    rw [List.length_cons] at hlength
    show st.pool.ahead + (ks.flatMap (update st.todo k rest)).length < st.pool.ahead + (ks.flatMap st.todo).length
    omega

/-- Once the pool is stopped, some schedule brings it to its end, and nothing is enqueued on the way. -/
theorem PooledRun.exists_joined {ks : List ι} (hnodup : ks.Nodup) (hks : ∀ k, k ∉ ks → body k = [])
    (run : PooledRun body events st) (hstop : st.pool.stop = true) : ∃ after st', PooledRun body (events ++ after) st' ∧
      enqueued (events ++ after) = enqueued events ∧ st'.pool.caller = .joining n := by
  induction hleft : st.left ks using Nat.strong_induction_on generalizing events st with
  | _ left ih =>
    by_cases hjoined : st.pool.caller = .joining n
    · exact ⟨[], st, by rw [List.append_nil]; exact run, by rw [List.append_nil], hjoined⟩
    · obtain ⟨e, mid, htaken⟩ := run.exists_step hstop hjoined
      have hclosing := run.pool.closing hstop
      have hlt := (steps_of_step htaken).left_lt hnodup (fun k hk => run.follows.empty k (hks k hk)) hclosing
      have hstep : Run step st [e] mid := .next .nil htaken
      obtain ⟨hmid, -, hnone⟩ := WakingPool.closing_run (pool_of_run hstep) hclosing
      have hsame : enqueued (events ++ [e]) = enqueued events := by
        rw [enqueuedTasks] at hnone
        rw [enqueued, enqueuedTasks, List.filterMap_append, List.flatMap_append, List.filterMap_append, hnone,
          List.append_nil]
        rfl
      obtain ⟨after, st', hrun, henqueued, hend⟩ := ih _ (hleft ▸ hlt) (Run.next run htaken) hmid.stop rfl
      rw [List.append_assoc] at hrun henqueued
      exact ⟨[e] ++ after, st', hrun, henqueued.trans hsame, hend⟩

/-- The owner enqueues tasks while nobody else does anything. -/
theorem exists_enqueuing (n : ℕ) (body : ι → List α) (ks : List ι) : ∃ (events : List (PooledEvent ι n))
    (st : PooledTasks ι α n), PooledRun body events st ∧ enqueued events = ks ∧ st.pool.caller = .enqueuing ∧
      ∀ i, st.pool.threads i = .looking := by
  induction ks using List.reverseRecOn with
  | nil => exact ⟨[], _, .nil, rfl, rfl, fun _ => rfl⟩
  | append_singleton ks k ih =>
    obtain ⟨events, st, run, henqueued, hcaller, hthreads⟩ := ih
    have hawake : ∀ i, (st.pool.threads i).isAsleep = false := fun i => by rw [hthreads i]; rfl
    have henqueue : st.step (.pool (.enqueue k)) =
        some { st with pool := { st.pool with tasks := st.pool.tasks ++ [k], caller := .notifying } } := by
      simp only [step, allows, WakingPool.step, hcaller, if_true, Option.map_some]
    have hnotify : step { st with pool := { st.pool with tasks := st.pool.tasks ++ [k], caller := .notifying } }
        (.pool (.notifyOne none)) =
          some { st with pool := { st.pool with tasks := st.pool.tasks ++ [k], caller := .enqueuing } } := by
      simp only [step, allows, WakingPool.step, hawake, implies_true, if_true, Option.map_some]
    refine ⟨_, _, .next (.next run henqueue) hnotify, ?_, rfl, hthreads⟩
    rw [enqueued, enqueuedTasks] at henqueued ⊢
    rw [List.append_assoc, List.filterMap_append, List.flatMap_append, List.filterMap_append, henqueued]
    rfl

/-- Any tasks can be enqueued and executed by any number of threads. -/
theorem exists_pooledRun (n : ℕ) {ks : List ι} (hnodup : ks.Nodup) (hks : ∀ k, k ∉ ks → body k = []) :
    ∃ (events : List (PooledEvent ι n)) (st : PooledTasks ι α n), PooledRun body events st ∧ enqueued events = ks ∧
      st.pool.caller = .joining n := by
  obtain ⟨events, st, run, henqueued, hcaller, -⟩ := exists_enqueuing n body ks
  have hstop : st.step (.pool .setStop) =
      some { st with pool := { st.pool with stop := true, caller := .stopping } } := by
    simp only [step, allows, WakingPool.step, hcaller, if_true, Option.map_some]
  obtain ⟨after, st', hrun, hsame, hjoined⟩ := PooledRun.exists_joined hnodup hks (Run.next run hstop) rfl
  refine ⟨_, st', hrun, ?_, hjoined⟩
  rw [hsame, ← henqueued, enqueued, enqueued, enqueuedTasks, enqueuedTasks, List.filterMap_append,
    List.flatMap_append, List.filterMap_append]
  exact List.append_nil _

end PooledTasks

section Scan

variable {setup : ScanSetup} {ip : Bytes} {startPort endPort : ℤ} {w : ℤ → PortWorld}
  {outcome : ℤ → Option PortReport}

/-- Ports are numbered in their order. -/
theorem portNumber_lt {p q : ℤ} (hp : 0 ≤ p) (hlt : p < q) (hq : q ≤ 65535) : portNumber p < portNumber q := by
  unfold Ztl.portNumber
  rw [Int.emod_eq_of_lt hp (by omega), Int.emod_eq_of_lt (by omega) (by omega), UInt16.lt_iff_toNat_lt,
    UInt16.toNat_ofNat_of_lt' (by simp only [UInt16.size]; omega),
    UInt16.toNat_ofNat_of_lt' (by simp only [UInt16.size]; omega)]
  omega

/-- The reports come in the order of their ports. -/
theorem reports_pairwise (hstart : 0 ≤ startPort) (hend : endPort ≤ 65535)
    (hprobes : ∀ p ∈ portRange startPort endPort, scanPort setup ip p (w p) = some (outcome p)) :
    ((reports startPort endPort outcome).map PortReport.port).Pairwise fun a b => a.number < b.number := by
  have hrange : (portRange startPort endPort).Pairwise (· < ·) := by
    rw [portRange, List.pairwise_map]
    exact List.pairwise_lt_range.imp fun h => by omega
  rw [List.pairwise_map, reports, List.pairwise_flatMap]
  refine ⟨fun p _ => ?_, hrange.imp_of_mem fun {p q} hp hq hlt r hr r' hr' => ?_⟩
  · cases outcome p with
    | none => exact .nil
    | some r => exact List.pairwise_singleton _ r
  · have hprobed := probed_of_scanPort (hprobes p hp) (Option.mem_toList.mp hr)
    have hprobed' := probed_of_scanPort (hprobes q hq) (Option.mem_toList.mp hr')
    have hp := mem_portRange.mp hp
    have hq := mem_portRange.mp hq
    rw [hprobed.number, hprobed'.number]
    exact portNumber_lt (by omega) hlt (by omega)

/-- On the thread pool, whatever its scheduling, a scan returns the ports of a scan of one port after the other,
in their order, and on every port the same findings; it announces every open port once and counts every port. -/
theorem pooled_scan {n : ℕ} (hn : 0 < n) (hstart : 0 ≤ startPort) (hend : endPort ≤ 65535)
    (hends : RangeEnds setup ip startPort endPort w) {events : List (PooledEvent ℤ n)}
    {st : PooledTasks ℤ TaskAction n}
    (run : PooledTasks.PooledRun (scanTasks ip startPort endPort (scannedPort setup ip w)) events st)
    (henqueued : PooledTasks.enqueued events = portRange startPort endPort) (hjoined : st.pool.caller = .joining n)
    {out : TcpRangeResult} (hout : (ScanState.after st.done).Returns out) :
    out.ports = (reports startPort endPort (scannedPort setup ip w)).map PortReport.port ∧
      out.ports.Pairwise (fun a b => a.number < b.number) ∧
      out.findings.Pairwise (fun a b => a.portNumber ≤ b.portNumber) ∧
      out.findings.Perm ((reports startPort endPort (scannedPort setup ip w)).flatMap fun r => r.findings ip) ∧
      (ScanState.after st.done).announced.Perm
        ((reports startPort endPort (scannedPort setup ip w)).map fun r => (r.port, r.findings ip)) ∧
      (ScanState.after st.done).progress = (portRange startPort endPort).length := by
  have hschedule : Interleaves (scanTasks ip startPort endPort (scannedPort setup ip w)) st.done := by
    refine run.interleaves hn (fun p hp => ?_) hjoined
    rw [henqueued]
    by_contra hmem
    exact hp (if_neg hmem)
  have hrun : ScanRun setup ip startPort endPort w _ st.done out := ⟨hends.probes, hschedule, hout⟩
  obtain ⟨hannounced, hports, -, hprogress⟩ := hrun.leaves
  have hsorted := hrun.findings_isSortOf hstart hend
  have horder := reports_pairwise hstart hend hends.probes
  have hsequential : IsSortOf Port.number
      ((reports startPort endPort (scannedPort setup ip w)).map PortReport.port)
      ((reports startPort endPort (scannedPort setup ip w)).map PortReport.port) :=
    ⟨.refl _, horder.imp fun h => UInt16.le_of_lt h⟩
  have hnodup : ((reports startPort endPort (scannedPort setup ip w)).map PortReport.port |>.map
      Port.number).Nodup := by
    rw [List.Nodup, List.pairwise_map]
    exact horder.imp fun h => UInt16.ne_of_lt h
  have hsame : out.ports = (reports startPort endPort (scannedPort setup ip w)).map PortReport.port :=
    (hsequential.unique hout.1 hports.symm hnodup).symm
  exact ⟨hsame, hsame ▸ horder, hsorted.2, hsorted.1.trans hrun.leaves.2.2.1, hannounced, hprogress⟩

end Scan

/-- A host with two open ports and a closed one. -/
def demoHost (p : ℤ) : PortWorld := if p ≤ 8002 then demoWorld else { demoWorld with state := .closed }

/-- The tasks of its ports come to their ends, and the open ports report the same vulnerability. -/
theorem scanned_demoHost {ip : Bytes} (hip : ip ∈ [str "10.0.0.0", str "10.0.0.1"]) :
    RangeEnds demoSetup ip 8001 8003 demoHost ∧ ∃ r r', scannedPort demoSetup ip demoHost 8001 = some r ∧
      scannedPort demoSetup ip demoHost 8002 = some r' ∧ (r.port.number = 8001 ∧ r'.port.number = 8002) ∧
      (r.findings ip).map Finding.cveId = [str "CVE-2024-0001"] ∧
      (r'.findings ip).map Finding.cveId = [str "CVE-2024-0001"] := by
  have hprobes : ∀ ip ∈ [str "10.0.0.0", str "10.0.0.1"], ∃ r ∈ probePort demoSetup ip 8001 demoWorld,
      ∃ r' ∈ probePort demoSetup ip 8002 demoWorld, (r.port.number = 8001 ∧ r'.port.number = 8002) ∧
        (r.findings ip).map Finding.cveId = [str "CVE-2024-0001"] ∧
        (r'.findings ip).map Finding.cveId = [str "CVE-2024-0001"] := by
    decide +kernel
  obtain ⟨r, hr, r', hr', hreported⟩ := hprobes ip hip
  have hscanned {p : ℤ} {r : PortReport} (hp : p ≤ 8002) (hr : probePort demoSetup ip p demoWorld = some r) :
      scannedPort demoSetup ip demoHost p = some r := by
    have hopened : demoWorld.state = .opened := rfl
    rw [scannedPort, demoHost, if_pos hp, scanPort, if_pos hopened, hr]
    rfl
  refine ⟨fun p hp hopened => ?_, r, r', hscanned (by decide) hr, hscanned (by decide) hr', hreported⟩
  rw [← probePort_isSome_iff]
  have hrange := mem_portRange.mp hp
  obtain rfl | rfl | rfl : p = 8001 ∨ p = 8002 ∨ p = 8003 := by omega
  · exact Option.isSome_iff_exists.mpr ⟨r, hr⟩
  · exact Option.isSome_iff_exists.mpr ⟨r', hr'⟩
  · exact absurd hopened (by decide)

/-- The closed port reports nothing. -/
theorem reports_demoHost {ip : Bytes} {r r' : PortReport} (hr : scannedPort demoSetup ip demoHost 8001 = some r)
    (hr' : scannedPort demoSetup ip demoHost 8002 = some r') :
    reports 8001 8003 (scannedPort demoSetup ip demoHost) = [r, r'] := by
  have hrange : portRange 8001 8003 = [8001, 8002, 8003] := by decide
  have hclosed : scannedPort demoSetup ip demoHost 8003 = none := rfl
  simp only [reports, hrange, List.flatMap_cons, List.flatMap_nil, hclosed, hr, hr']
  rfl

/-- Two threads take the ports in turn. -/
def demoSchedule : List (PooledEvent ℤ 2) :=
  [.pool (.enqueue 8001), .pool (.notifyOne none), .pool (.look 0), .pool (.enqueue 8002), .act 0,
    .pool (.look 1), .act 1, .pool (.notifyOne none), .act 1, .act 0, .pool (.enqueue 8003), .act 0, .pool (.finish 0),
    .pool (.notifyOne none), .pool .setStop, .pool (.look 0), .act 1, .pool .notifyAll, .act 0, .pool (.finish 0),
    .pool (.look 0), .pool .join, .pool (.finish 1), .pool (.look 1), .pool .join]

/-- Two threads scan two open ports and a closed one. -/
theorem pooled_scan_sample : ∃ (st : PooledTasks ℤ TaskAction 2) (out : TcpRangeResult),
    PooledTasks.PooledRun (scanTasks (str "10.0.0.1") 8001 8003 (scannedPort demoSetup (str "10.0.0.1") demoHost))
      demoSchedule st ∧ (ScanState.after st.done).Returns out ∧ out.ports.map Port.number = [8001, 8002] ∧
      (out.findings.map Finding.cveId).Perm [str "CVE-2024-0001", str "CVE-2024-0001"] ∧
      ((ScanState.after st.done).announced.map fun a => a.1.number).Perm [8001, 8002] ∧
      (ScanState.after st.done).progress = 3 := by
  obtain ⟨hends, r, r', hr, hr', ⟨hnumber, hnumber'⟩, hfindings, hfindings'⟩ :=
    scanned_demoHost (List.mem_cons_of_mem (str "10.0.0.0") (List.mem_singleton_self (str "10.0.0.1")))
  have hclosed : scannedPort demoSetup (str "10.0.0.1") demoHost 8003 = none := rfl
  have htasks : scanTasks (str "10.0.0.1") 8001 8003 (scannedPort demoSetup (str "10.0.0.1") demoHost) = fun p =>
      if p = 8001 then taskActions (str "10.0.0.1") (some r)
      else if p = 8002 then taskActions (str "10.0.0.1") (some r') else if p = 8003 then [.count] else [] := by
    funext p
    unfold scanTasks
    simp only [mem_portRange]
    by_cases hfirst : p = 8001
    · subst hfirst
      rw [if_pos (by omega), if_pos rfl, hr]
    by_cases hsecond : p = 8002
    · subst hsecond
      rw [if_pos (by omega), if_neg hfirst, if_pos rfl, hr']
    by_cases hthird : p = 8003
    · subst hthird
      rw [if_pos (by omega), if_neg hfirst, if_neg hsecond, if_pos rfl, hclosed]
      rfl
    · rw [if_neg (by omega), if_neg hfirst, if_neg hsecond, if_neg hthird]
  have hruns : ∃ st : PooledTasks ℤ TaskAction 2, PooledTasks.PooledRun
      (scanTasks (str "10.0.0.1") 8001 8003 (scannedPort demoSetup (str "10.0.0.1") demoHost)) demoSchedule st ∧
      st.pool.caller = .joining 2 := by
    rw [htasks]
    exact ⟨_, Run.iff_foldlM.mpr rfl, rfl⟩
  obtain ⟨st, run, hjoined⟩ := hruns
  obtain ⟨ports, hports⟩ := exists_isSortOf Port.number (ScanState.after st.done).ports
  obtain ⟨sorted, hsorted⟩ := exists_isSortOf Finding.portNumber (ScanState.after st.done).findings
  have hout : (ScanState.after st.done).Returns ⟨ports, deduplicateFindings sorted⟩ := ⟨hports, sorted, hsorted, rfl⟩
  obtain ⟨hsame, -, -, hfound, hannounced, hprogress⟩ :=
    pooled_scan (by decide) (by decide) (by decide) hends run rfl hjoined hout
  rw [reports_demoHost hr hr'] at hsame hfound hannounced
  refine ⟨st, _, run, hout, ?_, ?_, ?_, hprogress⟩
  · rw [hsame, List.map_map]
    exact congrArg₂ (fun a b => [a, b]) hnumber hnumber'
  · have hnames := hfound.map Finding.cveId
    rwa [List.flatMap_cons, List.flatMap_cons, List.flatMap_nil, List.append_nil, List.map_append, hfindings,
      hfindings'] at hnames
  · have hnumbers := hannounced.map fun a => a.1.number
    rw [List.map_map] at hnumbers
    exact hnumbers.trans (.of_eq (congrArg₂ (fun a b => [a, b]) hnumber hnumber'))

end ZeroTrust
