import ZeroTrust.Lib.Runs
import Mathlib.Algebra.BigOperators.Group.Multiset.Basic
import Mathlib.Algebra.Order.Group.Multiset
import Mathlib.Data.Fintype.BigOperators
import Mathlib.Tactic.Abel

/-!
# The thread pool

`concurrency::ThreadPool` as a system whose events are the sections that the mutex protects and the
bodies of the tasks. The owner enqueues tasks and then destroys the pool: it sets `stop` and joins the
workers one after the other.
-/

namespace ZeroTrust

/-- Where a worker stands in `worker_loop`. -/
inductive Worker (τ : Type)
  | waiting
  | running (task : τ)
  | exited

/-- Where the owner stands: before the destructor, or in it after some joins. -/
inductive PoolOwner
  | enqueuing
  | joining (joined : ℕ)

/-- `ThreadPool` with its workers, its owner and the task bodies that have been executed. -/
structure ThreadPool (τ : Type) (n : ℕ) where
  tasks : List τ := []
  stop : Bool := false
  workers : Fin n → Worker τ := fun _ => .waiting
  owner : PoolOwner := .enqueuing
  executed : List τ := []

/-- The atomic steps of a pool. -/
inductive PoolEvent (τ : Type) (n : ℕ)
  | enqueue (task : τ)
  | setStop
  | join
  | takeOrExit (i : Fin n)
  | finish (i : Fin n)

variable {τ : Type} {n : ℕ}

/-- A worker of the pool moves on. -/
def ThreadPool.setWorker (pool : ThreadPool τ n) (i : Fin n) (worker : Worker τ) : ThreadPool τ n :=
  { pool with workers := Function.update pool.workers i worker }

/-- The section of `worker_loop` that holds the mutex: a worker that finds nothing waits on. -/
def ThreadPool.takeOrExit (pool : ThreadPool τ n) (i : Fin n) : ThreadPool τ n :=
  match pool.tasks with
  | [] => if pool.stop then pool.setWorker i .exited else pool
  | task :: tasks => { pool with tasks := tasks }.setWorker i (.running task)

/-- A step of the pool, if it is possible. -/
def ThreadPool.step (pool : ThreadPool τ n) : PoolEvent τ n → Option (ThreadPool τ n)
  | .enqueue task =>
    match pool.owner with
    | .enqueuing => some { pool with tasks := pool.tasks ++ [task] }
    | .joining _ => none
  | .setStop =>
    match pool.owner with
    | .enqueuing => some { pool with stop := true, owner := .joining 0 }
    | .joining _ => none
  | .join =>
    match pool.owner with
    | .enqueuing => none
    | .joining joined =>
      if h : joined < n then
        match pool.workers ⟨joined, h⟩ with
        | .exited => some { pool with owner := .joining (joined + 1) }
        | _ => none
      else none
  | .takeOrExit i =>
    match pool.workers i with
    | .waiting => some (pool.takeOrExit i)
    | _ => none
  | .finish i =>
    match pool.workers i with
    | .running task => some { pool.setWorker i .waiting with executed := pool.executed ++ [task] }
    | _ => none

/-- The task that a worker is executing. -/
def Worker.task : Worker τ → Multiset τ
  | .running task => {task}
  | _ => 0

/-- The tasks that are being executed. -/
def ThreadPool.running (pool : ThreadPool τ n) : Multiset τ := ∑ i, (pool.workers i).task

/-- The task that an event enqueues. -/
def PoolEvent.enqueued : PoolEvent τ n → Option τ
  | .enqueue task => some task
  | _ => none

/-- All tasks that the owner has enqueued. -/
def enqueuedTasks (trace : List (PoolEvent τ n)) : List τ := trace.filterMap PoolEvent.enqueued

/-- A worker that moves on gives up its task for another. -/
theorem ThreadPool.running_setWorker (pool : ThreadPool τ n) (i : Fin n) (worker : Worker τ) :
    (pool.setWorker i worker).running + (pool.workers i).task = pool.running + worker.task := by
  have hupdate : ∀ j, ((pool.setWorker i worker).workers j).task =
      Function.update (fun j => (pool.workers j).task) i worker.task j :=
    fun j => congrFun (Function.comp_update Worker.task pool.workers i worker) j
  unfold running
  simp only [hupdate]
  rw [Finset.sum_update_of_mem (Finset.mem_univ i),
    ← Finset.sum_sdiff (Finset.singleton_subset_iff.mpr (Finset.mem_univ i))]
  simp [add_comm, add_left_comm]

/-- The other workers stay where they are. -/
theorem ThreadPool.setWorker_workers (pool : ThreadPool τ n) (i j : Fin n) (worker : Worker τ) :
    (pool.setWorker i worker).workers j = if j = i then worker else pool.workers j :=
  Function.update_apply pool.workers i worker j

/-- How the owner, the flag and the workers that have left belong together. -/
structure ThreadPool.Orderly (pool : ThreadPool τ n) : Prop where
  stopped : pool.stop = true ↔ pool.owner ≠ .enqueuing
  exited : ∀ i, pool.workers i = .exited → pool.stop = true ∧ pool.tasks = []
  joined : ∀ k, pool.owner = .joining k → ∀ i : Fin n, i < k → pool.workers i = .exited

/-- Where a worker that waits, takes or leaves can go. -/
theorem ThreadPool.takeOrExit_cases (pool : ThreadPool τ n) (i : Fin n) :
    (pool.tasks = [] ∧ pool.stop = true ∧ pool.takeOrExit i = pool.setWorker i .exited) ∨
      (pool.tasks = [] ∧ pool.stop = false ∧ pool.takeOrExit i = pool) ∨
      ∃ task tasks, pool.tasks = task :: tasks ∧
        pool.takeOrExit i = { pool with tasks := tasks }.setWorker i (.running task) := by
  unfold takeOrExit
  cases htasks : pool.tasks with
  | nil =>
    cases hstop : pool.stop with
    | true => exact .inl ⟨rfl, rfl, rfl⟩
    | false => exact .inr (.inl ⟨rfl, rfl, rfl⟩)
  | cons task tasks => exact .inr (.inr ⟨task, tasks, rfl, rfl⟩)

/-- What a step of the pool does. -/
inductive ThreadPool.Steps (pool : ThreadPool τ n) : PoolEvent τ n → ThreadPool τ n → Prop
  | enqueue (task : τ) (owner : pool.owner = .enqueuing) :
    Steps pool (.enqueue task) { pool with tasks := pool.tasks ++ [task] }
  | setStop (owner : pool.owner = .enqueuing) :
    Steps pool .setStop { pool with stop := true, owner := .joining 0 }
  | join (i : Fin n) (owner : pool.owner = .joining i) (left : pool.workers i = .exited) :
    Steps pool .join { pool with owner := .joining (i + 1) }
  | wait (i : Fin n) (waiting : pool.workers i = .waiting) (stop : pool.stop = false) (empty : pool.tasks = []) :
    Steps pool (.takeOrExit i) pool
  | exit (i : Fin n) (waiting : pool.workers i = .waiting) (stop : pool.stop = true) (empty : pool.tasks = []) :
    Steps pool (.takeOrExit i) (pool.setWorker i .exited)
  | take (i : Fin n) (task : τ) (tasks : List τ) (waiting : pool.workers i = .waiting)
    (queued : pool.tasks = task :: tasks) :
    Steps pool (.takeOrExit i) ({ pool with tasks := tasks }.setWorker i (.running task))
  | finish (i : Fin n) (task : τ) (running : pool.workers i = .running task) :
    Steps pool (.finish i) { pool.setWorker i .waiting with executed := pool.executed ++ [task] }

/-- A step does one of these. -/
theorem ThreadPool.steps_of_step {pool pool' : ThreadPool τ n} {e : PoolEvent τ n}
    (h : pool.step e = some pool') : pool.Steps e pool' := by
  cases e with
  | enqueue task =>
    simp only [step] at h
    split at h
    · next howner => exact Option.some.inj h ▸ .enqueue task howner
    · cases h
  | setStop =>
    simp only [step] at h
    split at h
    · next howner => exact Option.some.inj h ▸ .setStop howner
    · cases h
  | join =>
    simp only [step] at h
    split at h
    · cases h
    · next k howner =>
      split at h
      · next hk =>
        split at h
        · next hleft => exact Option.some.inj h ▸ .join ⟨k, hk⟩ howner hleft
        · cases h
      · cases h
  | takeOrExit i =>
    simp only [step] at h
    split at h
    · next hwaiting =>
      cases h
      obtain ⟨hempty, hstop, htake⟩ | ⟨hempty, hstop, htake⟩ | ⟨task, tasks, hqueued, htake⟩ :=
        pool.takeOrExit_cases i
      · exact htake ▸ .exit i hwaiting hstop hempty
      · rw [htake]
        exact .wait i hwaiting hstop hempty
      · exact htake ▸ .take i task tasks hwaiting hqueued
    · cases h
  | finish i =>
    simp only [step] at h
    split at h
    · next task hrunning => exact Option.some.inj h ▸ .finish i task hrunning
    · cases h

/-- No step loses a task or makes one up. -/
theorem ThreadPool.Steps.conserve {pool pool' : ThreadPool τ n} {e : PoolEvent τ n} (h : pool.Steps e pool') :
    (pool'.tasks + pool'.running + pool'.executed : Multiset τ) =
      (pool.tasks + pool.running + pool.executed : Multiset τ) + (e.enqueued.toList : Multiset τ) := by
  cases h with
  | enqueue task howner =>
    change (↑(pool.tasks ++ [task]) + pool.running + pool.executed : Multiset τ) = _ + ↑[task]
    rw [← Multiset.coe_add]
    abel
  | setStop howner => exact (add_zero _).symm
  | join i howner hleft => exact (add_zero _).symm
  | wait i hwaiting hstop hempty => exact (add_zero _).symm
  | exit i hwaiting hstop hempty =>
    have hrunning := pool.running_setWorker i .exited
    rw [hwaiting] at hrunning
    change (pool.setWorker i .exited).running + 0 = pool.running + 0 at hrunning
    change (↑pool.tasks + (pool.setWorker i .exited).running + ↑pool.executed : Multiset τ) = _ + 0
    rw [add_zero, add_zero] at hrunning
    rw [hrunning, add_zero]
  | take i task tasks hwaiting hqueued =>
    have hrunning := pool.running_setWorker i (.running task)
    rw [hwaiting] at hrunning
    change (↑tasks + (pool.setWorker i (.running task)).running + ↑pool.executed : Multiset τ) = _ + 0
    change (pool.setWorker i (.running task)).running + 0 = pool.running + {task} at hrunning
    rw [add_zero] at hrunning
    rw [hrunning, hqueued, ← Multiset.cons_coe, ← Multiset.singleton_add]
    abel
  | finish i task hrunning =>
    have hdone := pool.running_setWorker i .waiting
    rw [hrunning] at hdone
    change (pool.setWorker i .waiting).running + {task} = pool.running + 0 at hdone
    change (↑pool.tasks + (pool.setWorker i .waiting).running + ↑(pool.executed ++ [task]) : Multiset τ) = _ + 0
    rw [add_zero] at hdone
    rw [← Multiset.coe_add, ← hdone, Multiset.coe_singleton]
    abel

/-- Every step keeps the owner, the flag and the workers in order. -/
theorem ThreadPool.Steps.orderly {pool pool' : ThreadPool τ n} {e : PoolEvent τ n} (h : pool.Steps e pool')
    (ho : pool.Orderly) : pool'.Orderly := by
  cases h with
  | enqueue task howner =>
    refine ⟨ho.stopped, fun j hj => ?_, ho.joined⟩
    exact absurd howner (ho.stopped.mp (ho.exited j hj).1)
  | setStop howner =>
    refine ⟨iff_of_true rfl nofun, fun j hj => ?_, ?_⟩
    · exact absurd howner (ho.stopped.mp (ho.exited j hj).1)
    · intro k hk j hj
      cases hk
      cases hj
  | join i howner hleft =>
    refine ⟨?_, ho.exited, ?_⟩
    · refine iff_of_true (ho.stopped.mpr ?_) nofun
      rw [howner]
      exact nofun
    · intro k hk j hj
      cases hk
      rcases Nat.lt_succ_iff_lt_or_eq.mp hj with hj | hj
      · exact ho.joined i howner j hj
      · rw [Fin.ext hj]
        exact hleft
  | wait i hwaiting hstop hempty => exact ho
  | exit i hwaiting hstop hempty =>
    refine ⟨ho.stopped, fun _ _ => ⟨hstop, hempty⟩, fun k hk j hj => ?_⟩
    rw [setWorker_workers]
    split
    · rfl
    · exact ho.joined k hk j hj
  | take i task tasks hwaiting hqueued =>
    refine ⟨ho.stopped, fun j hj => ?_, fun k hk j hj => ?_⟩
    · rw [setWorker_workers] at hj
      split at hj
      · cases hj
      · have hempty := (ho.exited j hj).2
        rw [hqueued] at hempty
        cases hempty
    · have hempty := (ho.exited j (ho.joined k hk j hj)).2
      rw [hqueued] at hempty
      cases hempty
  | finish i task hrunning =>
    refine ⟨ho.stopped, fun j hj => ?_, fun k hk j hj => ?_⟩
    · change (pool.setWorker i .waiting).workers j = .exited at hj
      rw [setWorker_workers] at hj
      split at hj
      · cases hj
      · exact ho.exited j hj
    · have hleft := ho.joined k hk j hj
      have hji : j ≠ i := by
        rintro rfl
        rw [hrunning] at hleft
        cases hleft
      change (pool.setWorker i .waiting).workers j = .exited
      rw [setWorker_workers, if_neg hji]
      exact hleft

/-- A history of a pool from its construction. -/
abbrev PoolRun (trace : List (PoolEvent τ n)) (pool : ThreadPool τ n) : Prop :=
  Run ThreadPool.step ({} : ThreadPool τ n) trace pool

/-- At any time the tasks that were enqueued are those queued, being executed and executed. -/
theorem PoolRun.conserved {trace : List (PoolEvent τ n)} {pool : ThreadPool τ n} (run : PoolRun trace pool) :
    (enqueuedTasks trace : Multiset τ) = pool.tasks + pool.running + pool.executed := by
  apply run.invariant fun trace pool => (enqueuedTasks trace : Multiset τ) = pool.tasks + pool.running + pool.executed
  · simp [enqueuedTasks, ThreadPool.running, Worker.task]
  · intro trace pool e pool' _ ih htaken
    rw [(ThreadPool.steps_of_step htaken).conserve, ← ih, enqueuedTasks, List.filterMap_append, ← Multiset.coe_add]
    cases h : e.enqueued <;> simp [enqueuedTasks, h]

/-- The owner, the flag and the workers are always in order. -/
theorem PoolRun.orderly {trace : List (PoolEvent τ n)} {pool : ThreadPool τ n} (run : PoolRun trace pool) :
    pool.Orderly := by
  apply run.invariant fun _ pool => pool.Orderly
  · exact ⟨iff_of_false Bool.false_ne_true (fun h => h rfl), fun _ => nofun, fun _ => nofun⟩
  · exact fun _ _ _ _ _ ih htaken => (ThreadPool.steps_of_step htaken).orderly ih

/-- A worker leaves only a stopped pool without queued tasks. -/
theorem ThreadPool.Steps.leaves {pool pool' : ThreadPool τ n} {e : PoolEvent τ n} (h : pool.Steps e pool')
    {i : Fin n} (hbefore : pool.workers i ≠ .exited) (hafter : pool'.workers i = .exited) :
    pool.stop = true ∧ pool.tasks = [] := by
  cases h with
  | enqueue | setStop | join | wait => exact absurd hafter hbefore
  | exit j hwaiting hstop hempty => exact ⟨hstop, hempty⟩
  | take j task tasks hwaiting hqueued =>
    rw [setWorker_workers] at hafter
    split at hafter
    · cases hafter
    · exact absurd hafter hbefore
  | finish j task hrunning =>
    change (pool.setWorker j .waiting).workers i = .exited at hafter
    rw [setWorker_workers] at hafter
    split at hafter
    · cases hafter
    · exact absurd hafter hbefore

/-- The pool executes every task exactly once. -/
theorem threadPool_executes_once (hn : 0 < n) {trace : List (PoolEvent τ n)} {pool : ThreadPool τ n}
    (run : PoolRun trace pool) :
    (enqueuedTasks trace : Multiset τ) = pool.tasks + pool.running + pool.executed ∧
      (∀ e pool' i, pool.step e = some pool' → pool.workers i ≠ .exited → pool'.workers i = .exited →
        pool.stop = true ∧ pool.tasks = []) ∧
      (pool.owner = .joining n → pool.executed.Perm (enqueuedTasks trace)) := by
  refine ⟨run.conserved, fun e pool' i htaken => (ThreadPool.steps_of_step htaken).leaves, fun howner => ?_⟩
  have hleft : ∀ i, pool.workers i = .exited := fun i => run.orderly.joined n howner i i.isLt
  have hempty : pool.tasks = [] := (run.orderly.exited ⟨0, hn⟩ (hleft _)).2
  have hidle : pool.running = 0 := by
    apply Finset.sum_eq_zero
    intro i _
    rw [hleft i]
    rfl
  have hconserved := run.conserved
  rw [hempty, hidle, Multiset.coe_nil, zero_add, zero_add] at hconserved
  exact (Multiset.coe_eq_coe.mp hconserved).symm

/-- Two threads, three tasks. -/
theorem threadPool_executes_once_two : ∃ trace pool, @PoolRun String 2 trace pool ∧
    pool.owner = .joining 2 ∧ pool.executed.Perm (enqueuedTasks trace) ∧ enqueuedTasks trace = ["a", "b", "c"] := by
  have hrun : ∃ pool, @PoolRun String 2 [.enqueue "a", .takeOrExit 0, .takeOrExit 1, .enqueue "b", .enqueue "c",
      .setStop, .takeOrExit 1, .finish 1, .finish 0, .takeOrExit 0, .takeOrExit 1, .finish 0, .takeOrExit 0,
      .join, .join] pool ∧ pool.owner = .joining 2 :=
    ⟨_, Run.iff_foldlM.mpr rfl, rfl⟩
  obtain ⟨pool, hrun, howner⟩ := hrun
  exact ⟨_, pool, hrun, howner, (threadPool_executes_once (by decide) hrun).2.2 howner, rfl⟩

end ZeroTrust
