import ZeroTrust.Lib.Runs
import ZeroTrust.Core.Finding

/-!
# Scan jobs

The worker that `start_scan` spawns: it publishes the status of its job, lets the scan append results
and count probes, and persists everything. SQLite calls succeed or fail as they like; `exec_` turns a
failure into an exception, the other calls fail silently.
-/

namespace ZeroTrust

/-- The answers of SQLite to the calls of `save_ports` or `save_findings` that can matter to the caller;
a failed execution has a message. -/
structure SaveCalls where
  begins : Option Bytes
  prepares : Bool
  rollsBack : Option Bytes
  commits : Option Bytes

/-- `Db::exec_`. -/
def dbExec (failure : Option Bytes) : Except Bytes Unit :=
  match failure with
  | none => .ok ()
  | some message => .error (str "db exec failed: " ++ message)

/-- The control flow that `save_ports` and `save_findings` share. -/
def saveRows (calls : SaveCalls) : Except Bytes Unit := do
  dbExec calls.begins
  if calls.prepares then dbExec calls.commits else dbExec calls.rollsBack

/-- `job->status`. -/
inductive JobStatus
  | queued | running | done | error
deriving DecidableEq, Repr

/-- `status_str`. -/
def JobStatus.text : JobStatus → Bytes
  | .queued => str "queued"
  | .running => str "running"
  | .done => str "done"
  | .error => str "error"

/-- The statuses at which a stream ends. -/
def JobStatus.terminal (s : JobStatus) : Bool := s == .done || s == .error

/-- `ScanJob`, as far as it changes after its creation. -/
structure ScanJob where
  status : JobStatus := .queued
  scanned : ℕ := 0
  completedAt : ℤ := 0
  ports : List Port := []
  findings : List Finding := []
  error : Bytes := []

/-- The persisted row of a job. -/
structure JobRow where
  status : JobStatus := .queued
  completedAt : ℤ := 0
  scannedPorts : ℕ := 0
  error : Bytes := []

/-- Where the worker stands. -/
inductive WorkerStage
  | spawned | started | scanning | returned | published | stamped | savingPorts | savingFindings
  | failed (what : Bytes) | recorded (what : Bytes) | errorPublished (what : Bytes) | errorStamped (what : Bytes)
  | finished
deriving DecidableEq

/-- A job, its worker and its row. Without a database, or when its insertion failed, there is no row. -/
structure JobWorker where
  job : ScanJob := {}
  stage : WorkerStage := .spawned
  row : Option JobRow := none

/-- The steps of a worker and of the scan that it runs. -/
inductive WorkerEvent
  | storeRunning
  | updateRunning (effective : Bool)
  | onPortOpen (port : Port) (findings : List Finding)
  | probed
  | scanReturns
  | scanThrows (what : Bytes)
  | storeDone
  | stamp (now : ℤ)
  | updateDone (effective : Bool)
  | savePorts (calls : SaveCalls)
  | saveFindings (calls : SaveCalls)
  | recordError
  | storeError
  | stampError (now : ℤ)
  | updateError (effective : Bool)

namespace JobWorker

/-- `update_scan_status`: the row changes if there is one and the statement works. -/
def update (worker : JobWorker) (effective : Bool) (row : JobRow) (stage : WorkerStage) : JobWorker :=
  { worker with row := if effective then worker.row.map fun _ => row else worker.row, stage := stage }

/-- An exception of the persistence layer ends up in the handler. -/
def afterSave (worker : JobWorker) (calls : SaveCalls) (next : WorkerStage) : JobWorker :=
  match saveRows calls with
  | .ok () => { worker with stage := next }
  | .error what => { worker with stage := .failed what }

/-- The worker goes on to a stage that needs the database, if there is one. -/
def toDb (db : Bool) (withDb without : WorkerStage) : WorkerStage := if db then withDb else without

/-- A step of the worker, if it is there. -/
def step (db : Bool) (worker : JobWorker) : WorkerEvent → Option JobWorker
  | .storeRunning =>
    match worker.stage with
    | .spawned => some { worker with job.status := .running, stage := toDb db .started .scanning }
    | _ => none
  | .updateRunning effective =>
    match worker.stage with
    | .started => some (worker.update effective { status := .running } .scanning)
    | _ => none
  | .onPortOpen port findings =>
    match worker.stage with
    | .scanning =>
      some { worker with
        job.ports := worker.job.ports ++ [port]
        job.findings := worker.job.findings ++ findings }
    | _ => none
  | .probed =>
    match worker.stage with
    | .scanning => some { worker with job.scanned := worker.job.scanned + 1 }
    | _ => none
  | .scanReturns =>
    match worker.stage with
    | .scanning => some { worker with stage := .returned }
    | _ => none
  | .scanThrows what =>
    match worker.stage with
    | .scanning => some { worker with stage := .failed what }
    | _ => none
  | .storeDone =>
    match worker.stage with
    | .returned => some { worker with job.status := .done, stage := .published }
    | _ => none
  | .stamp now =>
    match worker.stage with
    | .published => some { worker with job.completedAt := now, stage := toDb db .stamped .finished }
    | _ => none
  | .updateDone effective =>
    match worker.stage with
    | .stamped => some (worker.update effective ⟨.done, worker.job.completedAt, worker.job.scanned, []⟩ .savingPorts)
    | _ => none
  | .savePorts calls =>
    match worker.stage with
    | .savingPorts => some (worker.afterSave calls .savingFindings)
    | _ => none
  | .saveFindings calls =>
    match worker.stage with
    | .savingFindings => some (worker.afterSave calls .finished)
    | _ => none
  | .recordError =>
    match worker.stage with
    | .failed what => some { worker with job.error := what, stage := .recorded what }
    | _ => none
  | .storeError =>
    match worker.stage with
    | .recorded what => some { worker with job.status := .error, stage := .errorPublished what }
    | _ => none
  | .stampError now =>
    match worker.stage with
    | .errorPublished what =>
      some { worker with job.completedAt := now, stage := toDb db (.errorStamped what) .finished }
    | _ => none
  | .updateError effective =>
    match worker.stage with
    | .errorStamped what => some (worker.update effective ⟨.error, worker.job.completedAt, 0, what⟩ .finished)
    | _ => none

/-- The worker of a new job; the row is there when the database is and has accepted it. -/
def spawn (db inserted : Bool) : JobWorker where
  row := if db && inserted then some {} else none

/-- The steps, each with the stage at which it is taken. -/
inductive Steps (db : Bool) (worker : JobWorker) : WorkerEvent → JobWorker → Prop
  | storeRunning (stage : worker.stage = .spawned) :
    Steps db worker .storeRunning { worker with job.status := .running, stage := toDb db .started .scanning }
  | updateRunning (effective : Bool) (stage : worker.stage = .started) :
    Steps db worker (.updateRunning effective) (worker.update effective { status := .running } .scanning)
  | onPortOpen (port : Port) (findings : List Finding) (stage : worker.stage = .scanning) :
    Steps db worker (.onPortOpen port findings)
      { worker with job.ports := worker.job.ports ++ [port], job.findings := worker.job.findings ++ findings }
  | probed (stage : worker.stage = .scanning) :
    Steps db worker .probed { worker with job.scanned := worker.job.scanned + 1 }
  | scanReturns (stage : worker.stage = .scanning) : Steps db worker .scanReturns { worker with stage := .returned }
  | scanThrows (what : Bytes) (stage : worker.stage = .scanning) :
    Steps db worker (.scanThrows what) { worker with stage := .failed what }
  | storeDone (stage : worker.stage = .returned) :
    Steps db worker .storeDone { worker with job.status := .done, stage := .published }
  | stamp (now : ℤ) (stage : worker.stage = .published) :
    Steps db worker (.stamp now) { worker with job.completedAt := now, stage := toDb db .stamped .finished }
  | updateDone (effective : Bool) (stage : worker.stage = .stamped) :
    Steps db worker (.updateDone effective)
      (worker.update effective ⟨.done, worker.job.completedAt, worker.job.scanned, []⟩ .savingPorts)
  | savePorts (calls : SaveCalls) (stage : worker.stage = .savingPorts) :
    Steps db worker (.savePorts calls) (worker.afterSave calls .savingFindings)
  | saveFindings (calls : SaveCalls) (stage : worker.stage = .savingFindings) :
    Steps db worker (.saveFindings calls) (worker.afterSave calls .finished)
  | recordError (what : Bytes) (stage : worker.stage = .failed what) :
    Steps db worker .recordError { worker with job.error := what, stage := .recorded what }
  | storeError (what : Bytes) (stage : worker.stage = .recorded what) :
    Steps db worker .storeError { worker with job.status := .error, stage := .errorPublished what }
  | stampError (now : ℤ) (what : Bytes) (stage : worker.stage = .errorPublished what) :
    Steps db worker (.stampError now)
      { worker with job.completedAt := now, stage := toDb db (.errorStamped what) .finished }
  | updateError (effective : Bool) (what : Bytes) (stage : worker.stage = .errorStamped what) :
    Steps db worker (.updateError effective)
      (worker.update effective ⟨.error, worker.job.completedAt, 0, what⟩ .finished)

/-- A step does one of these. -/
theorem steps_of_step {db : Bool} {worker worker' : JobWorker} {e : WorkerEvent}
    (h : worker.step db e = some worker') : worker.Steps db e worker' := by
  cases e <;> simp only [step] at h <;> split at h <;> cases h <;> constructor <;> assumption

/-- The status that goes with a stage. -/
def StageStatus : WorkerStage → JobStatus → Prop
  | .spawned, s => s = .queued
  | .started, s | .scanning, s | .returned, s => s = .running
  | .published, s | .stamped, s | .savingPorts, s | .savingFindings, s => s = .done
  | .failed _, s | .recorded _, s => s = .running ∨ s = .done
  | .errorPublished _, s | .errorStamped _, s => s = .error
  | .finished, s => s.terminal = true

variable {db : Bool} {worker worker' : JobWorker} {e : WorkerEvent}

/-- An exception in the persistence layer concerns no result. -/
@[simp] theorem job_afterSave (worker : JobWorker) (calls : SaveCalls) (next : WorkerStage) :
    (worker.afterSave calls next).job = worker.job := by
  unfold afterSave
  split <;> rfl

/-- Stage and status stay together. -/
theorem Steps.stageStatus (h : worker.Steps db e worker') (hs : StageStatus worker.stage worker.job.status) :
    StageStatus worker'.stage worker'.job.status := by
  cases h with
  | storeRunning stage => cases db <;> exact rfl
  | onPortOpen port findings stage => exact hs
  | probed stage => exact hs
  | storeDone stage => exact rfl
  | storeError what stage => exact rfl
  | updateRunning effective stage | scanReturns stage | updateDone effective stage | recordError what stage =>
    rw [stage] at hs
    exact hs
  | scanThrows what stage =>
    rw [stage] at hs
    exact .inl hs
  | updateError effective what stage =>
    rw [stage] at hs
    exact congrArg JobStatus.terminal hs
  | stamp now stage | stampError now what stage =>
    rw [stage] at hs
    cases db
    · exact congrArg JobStatus.terminal hs
    · exact hs
  | savePorts calls stage =>
    rw [stage] at hs
    unfold afterSave
    split
    · exact hs
    · exact .inr hs
  | saveFindings calls stage =>
    rw [stage] at hs
    unfold afterSave
    split
    · exact congrArg JobStatus.terminal hs
    · exact .inr hs

/-- Results are appended, and only before the status is terminal. -/
structure Continues (worker worker' : JobWorker) : Prop where
  ports : worker.job.ports <+: worker'.job.ports
  findings : worker.job.findings <+: worker'.job.findings
  frozen : worker.job.status.terminal = true → worker'.job.ports = worker.job.ports ∧
    worker'.job.findings = worker.job.findings ∧ worker'.job.status.terminal = true

/-- A step that leaves the results alone and does not take back a terminal status. -/
theorem Continues.of_results (hports : worker'.job.ports = worker.job.ports)
    (hfindings : worker'.job.findings = worker.job.findings)
    (hstatus : worker.job.status.terminal = true → worker'.job.status.terminal = true) : worker.Continues worker' where
  ports := hports ▸ List.prefix_refl _
  findings := hfindings ▸ List.prefix_refl _
  frozen h := ⟨hports, hfindings, hstatus h⟩

/-- Nothing changes. -/
theorem Continues.refl (worker : JobWorker) : worker.Continues worker := .of_results rfl rfl id

/-- One step after the other. -/
theorem Continues.trans {first second third : JobWorker} (h : first.Continues second) (h' : second.Continues third) :
    first.Continues third where
  ports := h.ports.trans h'.ports
  findings := h.findings.trans h'.findings
  frozen hterminal := by
    obtain ⟨hports, hfindings, hstill⟩ := h.frozen hterminal
    obtain ⟨hports', hfindings', hstill'⟩ := h'.frozen hstill
    exact ⟨hports'.trans hports, hfindings'.trans hfindings, hstill'⟩

/-- A step continues the job. -/
theorem Steps.continues (h : worker.Steps db e worker') (hs : StageStatus worker.stage worker.job.status) :
    worker.Continues worker' := by
  cases h with
  | onPortOpen port findings stage =>
    rw [stage] at hs
    refine ⟨List.prefix_append _ _, List.prefix_append _ _, fun hterminal => ?_⟩
    rw [show worker.job.status = .running from hs] at hterminal
    cases hterminal
  | storeRunning stage =>
    rw [stage] at hs
    refine .of_results rfl rfl fun hterminal => ?_
    rw [show worker.job.status = .queued from hs] at hterminal
    cases hterminal
  | storeDone stage => exact .of_results rfl rfl fun _ => rfl
  | storeError what stage => exact .of_results rfl rfl fun _ => rfl
  | savePorts calls stage | saveFindings calls stage =>
    exact .of_results (by rw [job_afterSave]) (by rw [job_afterSave]) fun h => by rw [job_afterSave]; exact h
  | updateRunning effective stage | probed stage | scanReturns stage | scanThrows what stage | stamp now stage
  | updateDone effective stage | recordError what stage | stampError now what stage
  | updateError effective what stage =>
    exact .of_results rfl rfl id

end JobWorker

end ZeroTrust
