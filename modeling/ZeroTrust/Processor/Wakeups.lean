import ZeroTrust.Processor.ThreadPool
import Mathlib.Algebra.Order.BigOperators.Group.Finset

/-!
# The condition variable of the thread pool

The pool with its condition variable. A thread looks at the queue under the mutex and either takes a task, leaves
or falls asleep; the owner notifies behind the section that it notifies about, and a thread may wake up for no
reason. The pool of `worker_loop` and the mutex alone is what is left when sleeping is forgotten. No wakeup is
lost, and the destructor returns however the threads are scheduled.
-/

namespace ZeroTrust

/-- Where a thread stands: in front of the predicate of `condition.wait`, asleep in it, in a task, or gone. -/
inductive PoolThread (τ : Type)
  | looking
  | asleep
  | running (task : τ)
  | exited

/-- Where the owner stands: outside, in front of the `notify_one` of `enqueue`, or in the destructor in front of
`notify_all` or of a `join`. -/
inductive PoolCaller
  | enqueuing
  | notifying
  | stopping
  | joining (joined : ℕ)

/-- The pool, its threads and the task bodies that have been executed. -/
structure WakingPool (τ : Type) (n : ℕ) where
  tasks : List τ := []
  stop : Bool := false
  threads : Fin n → PoolThread τ := fun _ => .looking
  caller : PoolCaller := .enqueuing
  executed : List τ := []

/-- The steps of the owner and of the threads. `notify_one` wakes a thread, if one is asleep. -/
inductive WakingEvent (τ : Type) (n : ℕ)
  | enqueue (task : τ)
  | notifyOne (woken : Option (Fin n))
  | setStop
  | notifyAll
  | join
  | look (i : Fin n)
  | wakeUp (i : Fin n)
  | finish (i : Fin n)

variable {τ : Type} {n : ℕ}

/-- A thread that is waiting for a notification. -/
def PoolThread.isAsleep : PoolThread τ → Bool
  | .asleep => true
  | _ => false

/-- A thread after `notify_all`. -/
def PoolThread.notified : PoolThread τ → PoolThread τ
  | .asleep => .looking
  | thread => thread

namespace WakingPool

/-- A thread moves on. -/
def setThread (pool : WakingPool τ n) (i : Fin n) (thread : PoolThread τ) : WakingPool τ n :=
  { pool with threads := Function.update pool.threads i thread }

/-- `worker_loop` from the lock to the task: the predicate decides whether the thread sleeps. -/
def look (pool : WakingPool τ n) (i : Fin n) : WakingPool τ n :=
  match pool.tasks with
  | [] => pool.setThread i (if pool.stop then .exited else .asleep)
  | task :: tasks => { pool with tasks := tasks }.setThread i (.running task)

/-- A step of the pool, if it is possible. -/
def step (pool : WakingPool τ n) : WakingEvent τ n → Option (WakingPool τ n)
  | .enqueue task =>
    match pool.caller with
    | .enqueuing => some { pool with tasks := pool.tasks ++ [task], caller := .notifying }
    | _ => none
  | .notifyOne none =>
    match pool.caller with
    | .notifying => if ∀ i, (pool.threads i).isAsleep = false then some { pool with caller := .enqueuing } else none
    | _ => none
  | .notifyOne (some i) =>
    match pool.caller, pool.threads i with
    | .notifying, .asleep => some { pool.setThread i .looking with caller := .enqueuing }
    | _, _ => none
  | .setStop =>
    match pool.caller with
    | .enqueuing => some { pool with stop := true, caller := .stopping }
    | _ => none
  | .notifyAll =>
    match pool.caller with
    | .stopping => some { pool with threads := fun i => (pool.threads i).notified, caller := .joining 0 }
    | _ => none
  | .join =>
    match pool.caller with
    | .joining joined =>
      if h : joined < n then
        match pool.threads ⟨joined, h⟩ with
        | .exited => some { pool with caller := .joining (joined + 1) }
        | _ => none
      else none
    | _ => none
  | .look i =>
    match pool.threads i with
    | .looking => some (pool.look i)
    | _ => none
  | .wakeUp i =>
    match pool.threads i with
    | .asleep => some (pool.setThread i .looking)
    | _ => none
  | .finish i =>
    match pool.threads i with
    | .running task => some { pool.setThread i .looking with executed := pool.executed ++ [task] }
    | _ => none

/-- What a step of the pool does. -/
inductive Steps (pool : WakingPool τ n) : WakingEvent τ n → WakingPool τ n → Prop
  | enqueue (task : τ) (caller : pool.caller = .enqueuing) :
    Steps pool (.enqueue task) { pool with tasks := pool.tasks ++ [task], caller := .notifying }
  | notifyNone (caller : pool.caller = .notifying) (awake : ∀ i, pool.threads i ≠ .asleep) :
    Steps pool (.notifyOne none) { pool with caller := .enqueuing }
  | notifyOne (i : Fin n) (caller : pool.caller = .notifying) (asleep : pool.threads i = .asleep) :
    Steps pool (.notifyOne (some i)) { pool.setThread i .looking with caller := .enqueuing }
  | setStop (caller : pool.caller = .enqueuing) :
    Steps pool .setStop { pool with stop := true, caller := .stopping }
  | notifyAll (caller : pool.caller = .stopping) :
    Steps pool .notifyAll { pool with threads := fun i => (pool.threads i).notified, caller := .joining 0 }
  | join (i : Fin n) (caller : pool.caller = .joining i) (left : pool.threads i = .exited) :
    Steps pool .join { pool with caller := .joining (i + 1) }
  | take (i : Fin n) (task : τ) (tasks : List τ) (looking : pool.threads i = .looking)
    (queued : pool.tasks = task :: tasks) :
    Steps pool (.look i) ({ pool with tasks := tasks }.setThread i (.running task))
  | exit (i : Fin n) (looking : pool.threads i = .looking) (stop : pool.stop = true) (empty : pool.tasks = []) :
    Steps pool (.look i) (pool.setThread i .exited)
  | sleep (i : Fin n) (looking : pool.threads i = .looking) (stop : pool.stop = false) (empty : pool.tasks = []) :
    Steps pool (.look i) (pool.setThread i .asleep)
  | wakeUp (i : Fin n) (asleep : pool.threads i = .asleep) : Steps pool (.wakeUp i) (pool.setThread i .looking)
  | finish (i : Fin n) (task : τ) (running : pool.threads i = .running task) :
    Steps pool (.finish i) { pool.setThread i .looking with executed := pool.executed ++ [task] }

variable {pool pool' : WakingPool τ n} {e : WakingEvent τ n}

/-- A step does one of these. -/
theorem steps_of_step (h : pool.step e = some pool') : pool.Steps e pool' := by
  cases e with
  | enqueue task =>
    simp only [step] at h
    split at h
    · next hcaller => exact Option.some.inj h ▸ .enqueue task hcaller
    · cases h
  | notifyOne woken =>
    cases woken with
    | none =>
      simp only [step] at h
      split at h
      · next hcaller =>
        split at h
        · next hawake =>
          refine Option.some.inj h ▸ .notifyNone hcaller fun i hi => ?_
          have hfalse := hawake i
          rw [hi] at hfalse
          cases hfalse
        · cases h
      · cases h
    | some i =>
      simp only [step] at h
      split at h
      · next hcaller hasleep => exact Option.some.inj h ▸ .notifyOne i hcaller hasleep
      · cases h
  | setStop =>
    simp only [step] at h
    split at h
    · next hcaller => exact Option.some.inj h ▸ .setStop hcaller
    · cases h
  | notifyAll =>
    simp only [step] at h
    split at h
    · next hcaller => exact Option.some.inj h ▸ .notifyAll hcaller
    · cases h
  | join =>
    simp only [step] at h
    split at h
    · next k hcaller =>
      split at h
      · next hk =>
        split at h
        · next hleft => exact Option.some.inj h ▸ .join ⟨k, hk⟩ hcaller hleft
        · cases h
      · cases h
    · cases h
  | look i =>
    simp only [step] at h
    split at h
    · next hlooking =>
      cases h
      unfold look
      cases htasks : pool.tasks with
      | nil =>
        cases hstop : pool.stop with
        | true => exact .exit i hlooking hstop htasks
        | false => exact .sleep i hlooking hstop htasks
      | cons task tasks => exact .take i task tasks hlooking htasks
    · cases h
  | wakeUp i =>
    simp only [step] at h
    split at h
    · next hasleep => exact Option.some.inj h ▸ .wakeUp i hasleep
    · cases h
  | finish i =>
    simp only [step] at h
    split at h
    · next task hrunning => exact Option.some.inj h ▸ .finish i task hrunning
    · cases h

end WakingPool

/-- A thread that looks or sleeps waits. -/
def PoolThread.worker : PoolThread τ → Worker τ
  | .looking | .asleep => .waiting
  | .running task => .running task
  | .exited => .exited

/-- The owner without its notifications. -/
def PoolCaller.owner : PoolCaller → PoolOwner
  | .enqueuing | .notifying => .enqueuing
  | .stopping => .joining 0
  | .joining joined => .joining joined

/-- The step of the pool without its condition variable. -/
def WakingEvent.forget : WakingEvent τ n → Option (PoolEvent τ n)
  | .enqueue task => some (.enqueue task)
  | .setStop => some .setStop
  | .join => some .join
  | .look i => some (.takeOrExit i)
  | .finish i => some (.finish i)
  | .notifyOne _ | .notifyAll | .wakeUp _ => none

/-- A thread that is about to look counts. -/
def PoolThread.looks : PoolThread τ → ℕ
  | .looking => 1
  | _ => 0

/-- A `notify_one` that is to come counts. -/
def PoolCaller.notifies : PoolCaller → ℕ
  | .notifying => 1
  | _ => 0

/-- What a thread has in front of it once the pool is stopped, apart from the tasks in the queue. -/
def PoolThread.ahead : PoolThread τ → ℕ
  | .exited => 0
  | .looking => 1
  | .asleep | .running _ => 2

/-- What the destructor of a pool of some size has in front of it. -/
def PoolCaller.ahead (size : ℕ) : PoolCaller → ℕ
  | .joining joined => size - joined
  | _ => size + 1

namespace WakingPool

variable {pool pool' : WakingPool τ n} {e : WakingEvent τ n} {events : List (WakingEvent τ n)}

/-- The pool without its condition variable. -/
def forget (pool : WakingPool τ n) : ThreadPool τ n where
  tasks := pool.tasks
  stop := pool.stop
  workers i := (pool.threads i).worker
  owner := pool.caller.owner
  executed := pool.executed

/-- Forgetting goes along with a thread that moves on. -/
theorem forget_setThread (pool : WakingPool τ n) (i : Fin n) (thread : PoolThread τ) :
    (pool.setThread i thread).forget = pool.forget.setWorker i thread.worker := by
  have hworkers : (fun j => ((pool.setThread i thread).threads j).worker) =
      Function.update pool.forget.workers i thread.worker :=
    Function.comp_update PoolThread.worker pool.threads i thread
  exact congrArg (fun workers => { pool.forget with workers := workers }) hworkers

/-- A thread that falls asleep or wakes up goes on waiting. -/
theorem forget_setThread_of_waiting {i : Fin n} {thread : PoolThread τ}
    (h : (pool.threads i).worker = .waiting) (hthread : thread.worker = .waiting) :
    (pool.setThread i thread).forget = pool.forget := by
  have hsame := Function.update_eq_self i pool.forget.workers
  rw [forget_setThread, hthread, ← h]
  exact congrArg (fun workers => { pool.forget with workers := workers }) hsame

/-- A thread that is notified goes on waiting, if it was. -/
theorem worker_notified (thread : PoolThread τ) : thread.notified.worker = thread.worker := by
  cases thread <;> rfl

/-- A step of the pool is a step without the condition variable, or none. -/
theorem Steps.forget (h : pool.Steps e pool') : Run ThreadPool.step pool.forget e.forget.toList pool'.forget := by
  have hone {e' : PoolEvent τ n} (he : pool.forget.step e' = some pool'.forget) :
      Run ThreadPool.step pool.forget [e'] pool'.forget := .next .nil he
  cases h with
  | enqueue task caller =>
    apply hone
    simp only [ThreadPool.step, WakingPool.forget, caller, PoolCaller.owner]
  | notifyNone caller awake =>
    have hsame : (WakingPool.forget { pool with caller := .enqueuing }) = pool.forget := by
      simp only [WakingPool.forget, caller, PoolCaller.owner]
    exact hsame ▸ .nil
  | notifyOne i caller asleep =>
    have hsame : (WakingPool.forget { pool.setThread i .looking with caller := .enqueuing }) = pool.forget := by
      have hthread : (pool.setThread i .looking).forget = pool.forget :=
        forget_setThread_of_waiting (congrArg PoolThread.worker asleep) rfl
      rw [← hthread]
      simp only [WakingPool.forget, setThread, caller, PoolCaller.owner]
    exact hsame ▸ .nil
  | setStop caller =>
    apply hone
    simp only [ThreadPool.step, WakingPool.forget, caller, PoolCaller.owner]
  | notifyAll caller =>
    have hsame : (WakingPool.forget { pool with
        threads := fun i => (pool.threads i).notified, caller := .joining 0 }) = pool.forget := by
      simp only [WakingPool.forget, worker_notified, caller, PoolCaller.owner]
    exact hsame ▸ .nil
  | join i caller left =>
    apply hone
    simp only [ThreadPool.step, WakingPool.forget, caller, PoolCaller.owner, i.isLt, dif_pos, left, PoolThread.worker]
  | take i task tasks looking queued =>
    apply hone
    have hwaiting : pool.forget.workers i = .waiting := congrArg PoolThread.worker looking
    simp only [ThreadPool.step, hwaiting]
    rw [forget_setThread, ThreadPool.takeOrExit, show pool.forget.tasks = task :: tasks from queued]
    rfl
  | exit i looking stop empty =>
    apply hone
    have hwaiting : pool.forget.workers i = .waiting := congrArg PoolThread.worker looking
    simp only [ThreadPool.step, hwaiting]
    rw [forget_setThread, ThreadPool.takeOrExit, show pool.forget.tasks = [] from empty,
      show pool.forget.stop = true from stop]
    rfl
  | sleep i looking stop empty =>
    apply hone
    have hwaiting : pool.forget.workers i = .waiting := congrArg PoolThread.worker looking
    simp only [ThreadPool.step, hwaiting]
    rw [forget_setThread_of_waiting hwaiting rfl, ThreadPool.takeOrExit, show pool.forget.tasks = [] from empty,
      show pool.forget.stop = false from stop]
    rfl
  | wakeUp i asleep =>
    have hsame : (pool.setThread i .looking).forget = pool.forget :=
      forget_setThread_of_waiting (congrArg PoolThread.worker asleep) rfl
    exact hsame ▸ .nil
  | finish i task running =>
    apply hone
    have hrunning : pool.forget.workers i = .running task := congrArg PoolThread.worker running
    simp only [ThreadPool.step, hrunning]
    rw [show WakingPool.forget { pool.setThread i .looking with executed := pool.executed ++ [task] } =
      { (pool.setThread i .looking).forget with executed := pool.executed ++ [task] } from rfl, forget_setThread]
    rfl

/-- A history of a pool from its construction. -/
abbrev WakingRun (events : List (WakingEvent τ n)) (pool : WakingPool τ n) : Prop :=
  Run WakingPool.step ({} : WakingPool τ n) events pool

/-- Every history is one of the pool without its condition variable. -/
theorem WakingRun.forget (run : WakingRun events pool) :
    PoolRun (events.flatMap fun e => e.forget.toList) pool.forget := by
  induction run with
  | nil => exact .nil
  | next run taken ih =>
    rw [List.flatMap_append, List.flatMap_singleton]
    exact ih.append (steps_of_step taken).forget

/-- What the threads weigh together. -/
def total (pool : WakingPool τ n) (weight : PoolThread τ → ℕ) : ℕ := ∑ i, weight (pool.threads i)

/-- A thread that moves on brings its new weight and takes its old one away. -/
theorem total_setThread (pool : WakingPool τ n) (i : Fin n) (thread : PoolThread τ) (weight : PoolThread τ → ℕ) :
    (pool.setThread i thread).total weight + weight (pool.threads i) = pool.total weight + weight thread := by
  have hupdate : ∀ j, weight ((pool.setThread i thread).threads j) =
      Function.update (fun j => weight (pool.threads j)) i (weight thread) j :=
    fun j => congrFun (Function.comp_update weight pool.threads i thread) j
  unfold total
  simp only [hupdate]
  rw [Finset.sum_update_of_mem (Finset.mem_univ i),
    ← Finset.sum_sdiff (Finset.singleton_subset_iff.mpr (Finset.mem_univ i))]
  simp [add_comm, add_left_comm]

/-- While a thread sleeps, every queued task has somebody who is going to see to it, and the pool has not been
stopped for good. -/
structure Alert (pool : WakingPool τ n) : Prop where
  queued : ∀ i, pool.threads i = .asleep → pool.tasks.length ≤ pool.total PoolThread.looks + pool.caller.notifies
  stopping : ∀ i, pool.threads i = .asleep → pool.stop = true → pool.caller = .stopping

/-- One thread moves on. -/
theorem threads_setThread (pool : WakingPool τ n) (i j : Fin n) (thread : PoolThread τ) :
    (pool.setThread i thread).threads j = if j = i then thread else pool.threads j :=
  Function.update_apply pool.threads i thread j

/-- The other threads sleep on. -/
theorem asleep_of_setThread {i j : Fin n} {thread : PoolThread τ} (hthread : thread ≠ .asleep)
    (h : (pool.setThread i thread).threads j = .asleep) : pool.threads j = .asleep := by
  rw [threads_setThread] at h
  split at h
  · exact absurd h hthread
  · exact h

/-- A notified thread does not sleep. -/
theorem notified_ne_asleep (thread : PoolThread τ) : thread.notified ≠ .asleep := by
  cases thread <;> intro h <;> cases h

/-- A step keeps the pool alert. -/
theorem Steps.alert (h : pool.Steps e pool') (ha : pool.Alert) : pool'.Alert := by
  cases h with
  | enqueue task caller =>
    refine ⟨fun i hi => ?_, fun i hi hstop => ?_⟩
    · have hqueued := ha.queued i hi
      rw [caller] at hqueued
      show (pool.tasks ++ [task]).length ≤ pool.total PoolThread.looks + 1
      rw [List.length_append, List.length_singleton]
      exact Nat.succ_le_succ hqueued
    · cases caller.symm.trans (ha.stopping i hi hstop)
  | notifyNone caller awake => exact ⟨fun i hi => absurd hi (awake i), fun i hi => absurd hi (awake i)⟩
  | notifyOne i caller asleep =>
    have hlooks : (pool.setThread i .looking).total PoolThread.looks = pool.total PoolThread.looks + 1 := by
      have htotal := pool.total_setThread i .looking PoolThread.looks
      rw [asleep] at htotal
      exact htotal
    refine ⟨fun j hj => ?_, fun j hj hstop => ?_⟩
    · have hqueued := ha.queued i asleep
      rw [caller] at hqueued
      show pool.tasks.length ≤ (pool.setThread i .looking).total PoolThread.looks + 0
      rw [hlooks]
      exact hqueued
    · cases caller.symm.trans (ha.stopping i asleep hstop)
  | setStop caller =>
    refine ⟨fun i hi => ?_, fun i hi _ => rfl⟩
    have hqueued := ha.queued i hi
    rw [caller] at hqueued
    exact hqueued
  | notifyAll caller =>
    exact ⟨fun i hi => absurd hi (notified_ne_asleep _), fun i hi => absurd hi (notified_ne_asleep _)⟩
  | join i caller left =>
    refine ⟨fun j hj => ?_, fun j hj hstop => ?_⟩
    · have hqueued := ha.queued j hj
      rw [caller] at hqueued
      exact hqueued
    · cases caller.symm.trans (ha.stopping j hj hstop)
  | take i task tasks looking queued =>
    have hlooks := pool.total_setThread i (.running task) PoolThread.looks
    rw [looking] at hlooks
    change (pool.setThread i (.running task)).total PoolThread.looks + 1 = pool.total PoolThread.looks + 0 at hlooks
    refine ⟨fun j hj => ?_, fun j hj hstop => ?_⟩
    · have hqueued := ha.queued j (asleep_of_setThread (fun h => by cases h) hj)
      rw [queued, List.length_cons] at hqueued
      show tasks.length ≤ (pool.setThread i (.running task)).total PoolThread.looks + pool.caller.notifies
      omega
    · exact ha.stopping j (asleep_of_setThread (fun h => by cases h) hj) hstop
  | exit i looking stop empty =>
    refine ⟨fun j _ => ?_, fun j hj _ => ha.stopping j (asleep_of_setThread (fun h => by cases h) hj) stop⟩
    show pool.tasks.length ≤ _
    rw [empty]
    exact Nat.zero_le _
  | sleep i looking stop empty =>
    refine ⟨fun j _ => ?_, fun j _ hstop => ?_⟩
    · show pool.tasks.length ≤ _
      rw [empty]
      exact Nat.zero_le _
    · cases stop.symm.trans hstop
  | wakeUp i asleep =>
    have hlooks := pool.total_setThread i .looking PoolThread.looks
    rw [asleep] at hlooks
    change (pool.setThread i .looking).total PoolThread.looks + 0 = pool.total PoolThread.looks + 1 at hlooks
    refine ⟨fun j _ => ?_, fun j _ hstop => ha.stopping i asleep hstop⟩
    have hqueued := ha.queued i asleep
    show pool.tasks.length ≤ (pool.setThread i .looking).total PoolThread.looks + pool.caller.notifies
    omega
  | finish i task running =>
    have hlooks := pool.total_setThread i .looking PoolThread.looks
    rw [running] at hlooks
    change (pool.setThread i .looking).total PoolThread.looks + 0 = pool.total PoolThread.looks + 1 at hlooks
    refine ⟨fun j hj => ?_, fun j hj hstop => ?_⟩
    · have hqueued := ha.queued j (asleep_of_setThread (fun h => by cases h) hj)
      show pool.tasks.length ≤ (pool.setThread i .looking).total PoolThread.looks + pool.caller.notifies
      omega
    · exact ha.stopping j (asleep_of_setThread (fun h => by cases h) hj) hstop

/-- A pool is alert from its construction on. -/
theorem WakingRun.alert (run : WakingRun events pool) : pool.Alert := by
  induction run with
  | nil => exact ⟨fun i hi => (by cases hi), fun i hi => (by cases hi)⟩
  | next run taken ih => exact (steps_of_step taken).alert ih

/-- No wakeup is lost: while a thread sleeps, there are at least as many threads about to look at the queue as
there are tasks in it, counting the one that the owner is about to notify; and none sleeps behind `notify_all`. -/
theorem no_lost_wakeup (run : WakingRun events pool) {i : Fin n} (hasleep : pool.threads i = .asleep) :
    pool.tasks.length ≤ pool.total PoolThread.looks + pool.caller.notifies ∧
      ∀ joined, pool.caller ≠ .joining joined := by
  refine ⟨run.alert.queued i hasleep, fun joined hcaller => ?_⟩
  have hstop : pool.forget.stop = true :=
    run.forget.orderly.stopped.mpr (by rw [WakingPool.forget, hcaller]; exact fun h => by cases h)
  cases hcaller.symm.trans (run.alert.stopping i hasleep hstop)

/-- A task for two sleeping threads. -/
theorem no_lost_wakeup_sample : ∃ pool : WakingPool ℕ 2, WakingRun [.look 0, .look 1, .enqueue 7] pool ∧
    pool.tasks.length ≤ pool.total PoolThread.looks + pool.caller.notifies := by
  have run : WakingRun (n := 2) [.look 0, .look 1, .enqueue 7] _ := Run.iff_foldlM.mpr rfl
  exact ⟨_, run, (no_lost_wakeup run (i := 0) rfl).1⟩

/-- The owner is in the destructor. -/
structure Closing (pool : WakingPool τ n) : Prop where
  stop : pool.stop = true
  caller : pool.caller = .stopping ∨ ∃ joined ≤ n, pool.caller = .joining joined

/-- How many steps are left at most in the destructor. -/
def ahead (pool : WakingPool τ n) : ℕ := 2 * pool.tasks.length + pool.total PoolThread.ahead + pool.caller.ahead n

/-- In the destructor nothing is enqueued any more. -/
theorem Closing.ne_enqueuing (h : pool.Closing) : pool.caller ≠ .enqueuing := by
  rcases h.caller with hcaller | ⟨joined, -, hcaller⟩ <;> rw [hcaller] <;> intro h <;> cases h

/-- In the destructor there is no `notify_one`. -/
theorem Closing.ne_notifying (h : pool.Closing) : pool.caller ≠ .notifying := by
  rcases h.caller with hcaller | ⟨joined, -, hcaller⟩ <;> rw [hcaller] <;> intro h <;> cases h

/-- The owner does not leave the destructor. -/
theorem Steps.closing (h : pool.Steps e pool') (hc : pool.Closing) : pool'.Closing := by
  cases h with
  | enqueue task caller => exact absurd caller hc.ne_enqueuing
  | notifyNone caller awake => exact absurd caller hc.ne_notifying
  | notifyOne i caller asleep => exact absurd caller hc.ne_notifying
  | setStop caller => exact absurd caller hc.ne_enqueuing
  | notifyAll caller => exact ⟨hc.stop, .inr ⟨0, Nat.zero_le n, rfl⟩⟩
  | join i caller left => exact ⟨hc.stop, .inr ⟨i + 1, i.isLt, rfl⟩⟩
  | take | exit | sleep | wakeUp | finish => exact ⟨hc.stop, hc.caller⟩

/-- Every step of a pool that is being destroyed brings it nearer to its end. -/
theorem Steps.ahead_lt (h : pool.Steps e pool') (hc : pool.Closing) : pool'.ahead < pool.ahead := by
  cases h with
  | enqueue task caller => exact absurd caller hc.ne_enqueuing
  | notifyNone caller awake => exact absurd caller hc.ne_notifying
  | notifyOne i caller asleep => exact absurd caller hc.ne_notifying
  | setStop caller => exact absurd caller hc.ne_enqueuing
  | notifyAll caller =>
    have hle : ∑ i, (pool.threads i).notified.ahead ≤ ∑ i, (pool.threads i).ahead := by
      refine Finset.sum_le_sum fun i _ => ?_
      cases pool.threads i <;> simp [PoolThread.notified, PoolThread.ahead]
    show 2 * pool.tasks.length + ∑ i, (pool.threads i).notified.ahead + (n - 0) <
      2 * pool.tasks.length + ∑ i, (pool.threads i).ahead + pool.caller.ahead n
    rw [caller]
    show _ < _ + (n + 1)
    omega
  | join i caller left =>
    show 2 * pool.tasks.length + pool.total PoolThread.ahead + (n - (i + 1)) <
      2 * pool.tasks.length + pool.total PoolThread.ahead + pool.caller.ahead n
    rw [caller]
    show _ < _ + (n - i)
    omega
  | take i task tasks looking queued =>
    have htotal := pool.total_setThread i (.running task) PoolThread.ahead
    rw [looking] at htotal
    change (pool.setThread i (.running task)).total PoolThread.ahead + 1 = pool.total PoolThread.ahead + 2 at htotal
    show 2 * tasks.length + (pool.setThread i (.running task)).total PoolThread.ahead + pool.caller.ahead n <
      2 * pool.tasks.length + pool.total PoolThread.ahead + pool.caller.ahead n
    rw [queued, List.length_cons]
    omega
  | exit i looking stop empty =>
    have htotal := pool.total_setThread i .exited PoolThread.ahead
    rw [looking] at htotal
    change (pool.setThread i .exited).total PoolThread.ahead + 1 = pool.total PoolThread.ahead + 0 at htotal
    show 2 * pool.tasks.length + (pool.setThread i .exited).total PoolThread.ahead + pool.caller.ahead n <
      2 * pool.tasks.length + pool.total PoolThread.ahead + pool.caller.ahead n
    omega
  | sleep i looking stop empty => cases stop.symm.trans hc.stop
  | wakeUp i asleep =>
    have htotal := pool.total_setThread i .looking PoolThread.ahead
    rw [asleep] at htotal
    change (pool.setThread i .looking).total PoolThread.ahead + 2 = pool.total PoolThread.ahead + 1 at htotal
    show 2 * pool.tasks.length + (pool.setThread i .looking).total PoolThread.ahead + pool.caller.ahead n <
      2 * pool.tasks.length + pool.total PoolThread.ahead + pool.caller.ahead n
    omega
  | finish i task running =>
    have htotal := pool.total_setThread i .looking PoolThread.ahead
    rw [running] at htotal
    change (pool.setThread i .looking).total PoolThread.ahead + 2 = pool.total PoolThread.ahead + 1 at htotal
    show 2 * pool.tasks.length + (pool.setThread i .looking).total PoolThread.ahead + pool.caller.ahead n <
      2 * pool.tasks.length + pool.total PoolThread.ahead + pool.caller.ahead n
    omega

/-- Nothing is enqueued any more. -/
theorem Steps.enqueued_of_closing (h : pool.Steps e pool') (hc : pool.Closing) :
    enqueuedTasks e.forget.toList = [] := by
  cases h with
  | enqueue task caller => exact absurd caller hc.ne_enqueuing
  | _ => rfl

/-- A run of the destructor is bounded, and enqueues nothing. -/
theorem closing_run {after : List (WakingEvent τ n)} (run : Run step pool after pool') (hc : pool.Closing) :
    pool'.Closing ∧ after.length + pool'.ahead ≤ pool.ahead ∧
      enqueuedTasks (after.flatMap fun e => e.forget.toList) = [] := by
  induction run with
  | nil => exact ⟨hc, by simp, rfl⟩
  | next run taken ih =>
    obtain ⟨hclosing, hahead, hnone⟩ := ih
    have hsteps := steps_of_step taken
    have hlt := hsteps.ahead_lt hclosing
    refine ⟨hsteps.closing hclosing, ?_, ?_⟩
    · rw [List.length_append, List.length_singleton]
      omega
    · have hlast := hsteps.enqueued_of_closing hclosing
      rw [enqueuedTasks] at hnone hlast ⊢
      rw [List.flatMap_append, List.flatMap_singleton, List.filterMap_append, hnone, hlast]
      rfl

/-- A pool that is being destroyed goes on until all threads are joined. -/
theorem Closing.exists_step (hc : pool.Closing) (ha : pool.Alert) (h : pool.caller ≠ .joining n) :
    ∃ e, pool.step e ≠ none := by
  rcases hc.caller with hcaller | ⟨joined, hle, hcaller⟩
  · refine ⟨.notifyAll, ?_⟩
    simp only [step, hcaller]
    exact Option.some_ne_none _
  · have hlt : joined < n := lt_of_le_of_ne hle fun heq => h (heq ▸ hcaller)
    cases hthread : pool.threads ⟨joined, hlt⟩ with
    | looking =>
      refine ⟨.look ⟨joined, hlt⟩, ?_⟩
      simp only [step, hthread]
      exact Option.some_ne_none _
    | asleep => cases hcaller.symm.trans (ha.stopping _ hthread hc.stop)
    | running task =>
      refine ⟨.finish ⟨joined, hlt⟩, ?_⟩
      simp only [step, hthread]
      exact Option.some_ne_none _
    | exited =>
      refine ⟨.join, ?_⟩
      simp only [step, hcaller, hlt, dif_pos, hthread]
      exact Option.some_ne_none _

/-- The numbers of joined threads make sense. -/
theorem WakingRun.joined_le (run : WakingRun events pool) {joined : ℕ} (h : pool.caller = .joining joined) :
    joined ≤ n := by
  induction run with
  | nil => cases h
  | next run taken ih =>
    cases steps_of_step taken with
    | notifyAll caller =>
      cases h
      exact Nat.zero_le n
    | join i caller left =>
      cases h
      exact i.isLt
    | take | exit | sleep | wakeUp | finish => exact ih h
    | _ => cases h

/-- A pool that has been stopped is in its destructor. -/
theorem WakingRun.closing (run : WakingRun events pool) (hstop : pool.stop = true) : pool.Closing := by
  refine ⟨hstop, ?_⟩
  have howner : pool.caller.owner ≠ .enqueuing := run.forget.orderly.stopped.mp hstop
  cases hcaller : pool.caller with
  | enqueuing =>
    rw [hcaller] at howner
    exact absurd rfl howner
  | notifying =>
    rw [hcaller] at howner
    exact absurd rfl howner
  | stopping => exact .inl rfl
  | joining joined => exact .inr ⟨joined, run.joined_le hcaller, rfl⟩

/-- When all threads are joined, every task has been executed once. -/
theorem WakingRun.executed_perm (hn : 0 < n) (run : WakingRun events pool) (hcaller : pool.caller = .joining n) :
    pool.executed.Perm (enqueuedTasks (events.flatMap fun e => e.forget.toList)) := by
  have howner : pool.forget.owner = .joining n := by rw [WakingPool.forget, hcaller]; rfl
  have hleft : ∀ i, pool.forget.workers i = .exited := fun i => run.forget.orderly.joined n howner i i.isLt
  have hempty : pool.forget.tasks = [] := (run.forget.orderly.exited ⟨0, hn⟩ (hleft _)).2
  have hidle : pool.forget.running = 0 := by
    apply Finset.sum_eq_zero
    intro i _
    rw [hleft i]
    rfl
  have hconserved := run.forget.conserved
  rw [hempty, hidle, Multiset.coe_nil, zero_add, zero_add] at hconserved
  exact (Multiset.coe_eq_coe.mp hconserved).symm

/-- The destructor returns: once the pool is stopped, whatever the scheduler does and however often threads wake
up for no reason, there is only a bounded number of steps left, and no more are possible only when all threads
are joined and every task has been executed once. -/
theorem destructor_returns (hn : 0 < n) (run : WakingRun events pool) (hstop : pool.stop = true)
    {after : List (WakingEvent τ n)} (later : Run step pool after pool') :
    after.length ≤ pool.ahead ∧
      ((∀ e, pool'.step e = none) → pool'.caller = .joining n ∧
        pool'.executed.Perm (enqueuedTasks (events.flatMap fun e => e.forget.toList))) := by
  obtain ⟨hclosing, hahead, hnone⟩ := closing_run later (run.closing hstop)
  have whole : WakingRun (events ++ after) pool' := Run.append run later
  refine ⟨by omega, fun hstuck => ?_⟩
  have hcaller : pool'.caller = .joining n := by
    by_contra hcaller
    obtain ⟨e, he⟩ := hclosing.exists_step whole.alert hcaller
    exact he (hstuck e)
  refine ⟨hcaller, ?_⟩
  have hexecuted := whole.executed_perm hn hcaller
  rw [enqueuedTasks] at hnone
  rwa [List.flatMap_append, enqueuedTasks, List.filterMap_append, hnone, List.append_nil] at hexecuted

/-- A thread that has fallen asleep over an empty queue. -/
theorem destructor_returns_sample : ∃ pool : WakingPool ℕ 1,
    WakingRun [.look 0, .enqueue 7, .notifyOne (some 0), .setStop, .notifyAll, .look 0, .finish 0, .look 0, .join]
      pool ∧ pool.caller = .joining 1 ∧ pool.executed.Perm [7] := by
  have hruns : ∃ pool : WakingPool ℕ 1, WakingRun [.look 0, .enqueue 7, .notifyOne (some 0), .setStop] pool ∧
      pool.stop = true ∧ ∃ pool', Run step pool [.notifyAll, .look 0, .finish 0, .look 0, .join] pool' ∧
        ∀ e, pool'.step e = none := by
    refine ⟨_, Run.iff_foldlM.mpr rfl, rfl, _, Run.iff_foldlM.mpr rfl, fun e => ?_⟩
    cases e with
    | notifyOne woken => cases woken <;> rfl
    | look i | wakeUp i | finish i =>
      obtain rfl : i = 0 := Subsingleton.elim _ _
      rfl
    | _ => rfl
  obtain ⟨pool, run, hstop, pool', later, hstuck⟩ := hruns
  have hreturned := (destructor_returns (by decide) run hstop later).2 hstuck
  exact ⟨pool', run.append later, hreturned.1, hreturned.2⟩

end WakingPool

end ZeroTrust
