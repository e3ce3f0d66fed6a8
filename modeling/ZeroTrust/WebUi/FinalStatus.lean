import ZeroTrust.WebUi.Stream

/-!
# The final status of a job

The handler that reports a failed scan also catches the exceptions of the persistence layer, and by then
the job has been published as done. Where the calls that persist a job succeed, a terminal status is final
and everybody who shows it agrees.
-/

namespace ZeroTrust

/-- The status that `get_scan` shows: the live job's, or the persisted one after a restart. -/
def getScanStatus (live : Option ScanJob) (row : Option JobRow) : Option Bytes :=
  match live with
  | some job => some job.status.text
  | none => row.map (·.status.text)

/-- The status that `list_scans` shows for a persisted row. -/
def listScansStatus (live : Option ScanJob) (row : JobRow) : Bytes :=
  match live with
  | some job => job.status.text
  | none => row.status.text

/-- The status that a frame reports. -/
def Frame.status? : Frame → Option JobStatus
  | .status s => some s
  | _ => none

/-- The last status that a stream has reported. -/
def lastReported (frames : List Frame) : Option JobStatus := (frames.filterMap Frame.status?).getLast?

/-- The transaction is begun and ended. -/
def SaveCalls.Succeed (calls : SaveCalls) : Prop :=
  calls.begins = none ∧ if calls.prepares then calls.commits = none else calls.rollsBack = none

/-- A save whose calls succeed returns. -/
theorem saveRows_of_succeed {calls : SaveCalls} (h : calls.Succeed) : saveRows calls = .ok () := by
  obtain ⟨hbegins, hends⟩ := h
  unfold saveRows
  rw [hbegins]
  split at hends <;> simp_all [dbExec, bind, Except.bind]

/-- The persistence calls of a step work: the transactions do, and the final update finds its row if it has
been inserted. -/
def WorkerEvent.Persists (stored : Bool) : WorkerEvent → Prop
  | .updateDone effective | .updateError effective => stored = true → effective = true
  | .savePorts calls | .saveFindings calls => calls.Succeed
  | _ => True

namespace JobWorker

/-- What holds of a worker as long as everything is persisted. -/
structure Faithful (db inserted : Bool) (worker : JobWorker) : Prop where
  stageStatus : StageStatus worker.stage worker.job.status
  unstored : (db && inserted) = false → worker.row = none
  handler : ∀ what, worker.stage = .failed what ∨ worker.stage = .recorded what → worker.job.status = .running
  stored : worker.stage = .savingPorts ∨ worker.stage = .savingFindings ∨ worker.stage = .finished →
    ∀ row ∈ worker.row, row.status = worker.job.status

/-- A worker starts out faithful. -/
theorem faithful_spawn (db inserted : Bool) : (spawn db inserted).Faithful db inserted where
  stageStatus := rfl
  unstored h := if_neg (by simp [h])
  handler what h := by obtain h | h := h <;> cases h
  stored h := by obtain h | h | h := h <;> cases h

variable {db inserted : Bool} {worker worker' : JobWorker} {e : WorkerEvent}

/-- Behind a save that succeeds the worker goes on. -/
theorem afterSave_of_succeed {calls : SaveCalls} (h : calls.Succeed) (next : WorkerStage) :
    worker.afterSave calls next = { worker with stage := next } := by
  unfold afterSave
  rw [saveRows_of_succeed h]

/-- A row that is written is there afterwards with its new status, or there is none. -/
theorem status_of_mem_update {effective : Bool} {row row' : JobRow} {stage : WorkerStage}
    (heffective : worker.row ≠ none → effective = true) (h : row' ∈ (worker.update effective row stage).row) :
    row'.status = row.status := by
  cases hrow : worker.row with
  | none =>
    simp [update, hrow] at h
  | some old =>
    have hdone := heffective (by rw [hrow]; exact Option.some_ne_none old)
    simp only [update, hdone, hrow, if_true, Option.map_some, Option.mem_some_iff] at h
    rw [h]

/-- A step that persists keeps the worker faithful. -/
theorem Steps.faithful (h : worker.Steps db e worker') (hf : worker.Faithful db inserted)
    (hpersists : e.Persists (db && inserted)) : worker'.Faithful db inserted := by
  have hstatus := h.stageStatus hf.stageStatus
  have hstage := hf.stageStatus
  have hbacked : worker.row ≠ none → (db && inserted) = true := fun hrow =>
    Bool.eq_true_of_not_eq_false fun hunstored => hrow (hf.unstored hunstored)
  cases h with
  | storeRunning stage =>
    refine ⟨hstatus, hf.unstored, fun _ _ => rfl, ?_⟩
    cases db <;> simp [toDb]
  | updateRunning effective stage =>
    refine ⟨hstatus, fun hunstored => ?_, ?_, ?_⟩
    · simp [update, hf.unstored hunstored]
    · simp [update]
    · simp [update]
  | onPortOpen port findings stage => exact ⟨hstatus, hf.unstored, hf.handler, hf.stored⟩
  | probed stage => exact ⟨hstatus, hf.unstored, hf.handler, hf.stored⟩
  | scanReturns stage => exact ⟨hstatus, hf.unstored, by simp, by simp⟩
  | scanThrows what stage =>
    rw [stage] at hstage
    exact ⟨hstatus, hf.unstored, fun _ _ => hstage, by simp⟩
  | storeDone stage => exact ⟨hstatus, hf.unstored, by simp, by simp⟩
  | stamp now stage | stampError now what stage =>
    refine ⟨hstatus, hf.unstored, ?_, ?_⟩
    · cases db <;> simp [toDb]
    · cases db
      · simp [toDb, hf.unstored (Bool.false_and inserted)]
      · simp [toDb]
  | updateDone effective stage | updateError effective what stage =>
    rw [stage] at hstage
    refine ⟨hstatus, fun hunstored => ?_, by simp [update], fun _ row hrow => ?_⟩
    · simp [update, hf.unstored hunstored]
    · exact (status_of_mem_update (fun hsome => hpersists (hbacked hsome)) hrow).trans (Eq.symm hstage)
  | savePorts calls stage =>
    rw [afterSave_of_succeed hpersists] at hstatus ⊢
    exact ⟨hstatus, hf.unstored, by simp, fun _ => hf.stored (.inl stage)⟩
  | saveFindings calls stage =>
    rw [afterSave_of_succeed hpersists] at hstatus ⊢
    exact ⟨hstatus, hf.unstored, by simp, fun _ => hf.stored (.inr (.inl stage))⟩
  | recordError what stage => exact ⟨hstatus, hf.unstored, fun _ _ => hf.handler what (.inl stage), by simp⟩
  | storeError what stage => exact ⟨hstatus, hf.unstored, by simp, by simp⟩

/-- A terminal status is final. -/
theorem Steps.status_of_terminal (h : worker.Steps db e worker') (hf : worker.Faithful db inserted)
    (hterminal : worker.job.status.terminal = true) : worker'.job.status = worker.job.status := by
  have hstage := hf.stageStatus
  cases h with
  | storeRunning stage =>
    rw [stage] at hstage
    rw [show worker.job.status = .queued from hstage] at hterminal
    cases hterminal
  | storeDone stage =>
    rw [stage] at hstage
    rw [show worker.job.status = .running from hstage] at hterminal
    cases hterminal
  | storeError what stage =>
    rw [hf.handler what (.inr stage)] at hterminal
    cases hterminal
  | savePorts calls stage | saveFindings calls stage => rw [job_afterSave]
  | _ => rfl

end JobWorker

namespace EventStream

/-- How the reports of a stream follow its locals. -/
structure Reports (stream : EventStream) : Prop where
  last : lastReported stream.frames = stream.lastStatus
  pushing : ∀ status, stream.phase = .pushing status → stream.lastStatus = some status
  ended : stream.phase = .ended → ∃ status, stream.lastStatus = some status ∧ status.terminal = true ∧
    lastReported stream.written = some status

variable {job : ScanJob} {stream stream' : EventStream} {e : StreamEvent}

/-- Frames without a status do not change the last one that was reported. -/
theorem lastReported_append_of_none {l r : List Frame} (h : ∀ frame ∈ r, frame.status? = none) :
    lastReported (l ++ r) = lastReported l := by
  unfold lastReported
  rw [List.filterMap_append, List.filterMap_eq_nil_iff.mpr h, List.append_nil]

/-- A poll reports the status that it has read unless it has reported it before. -/
theorem filterMap_status_pollFrames (stream : EventStream) (status : JobStatus) (scanned : ℕ)
    (newPorts : List Port) (newFindings : List Finding) :
    (stream.pollFrames status scanned newPorts newFindings).filterMap Frame.status? =
      if some status ≠ stream.lastStatus then [status] else [] := by
  have hports : (newPorts.map Frame.port).filterMap Frame.status? = [] :=
    (List.filterMap_map ..).trans (List.filterMap_eq_nil_iff.mpr fun _ _ => rfl)
  have hfindings : (newFindings.map Frame.finding).filterMap Frame.status? = [] :=
    (List.filterMap_map ..).trans (List.filterMap_eq_nil_iff.mpr fun _ _ => rfl)
  simp only [pollFrames, List.filterMap_append, hports, hfindings]
  split_ifs <;> simp [List.filterMap_cons, Frame.status?]

/-- After a poll the last report is the status that it has read. -/
theorem lastReported_append_pollFrames {written : List Frame} (status : JobStatus) (scanned : ℕ)
    (newPorts : List Port) (newFindings : List Finding) (h : lastReported written = stream.lastStatus) :
    lastReported (written ++ stream.pollFrames status scanned newPorts newFindings) = some status := by
  unfold lastReported at h ⊢
  rw [List.filterMap_append, filterMap_status_pollFrames]
  split
  · exact List.getLast?_concat
  · next hsame =>
    rw [List.append_nil, h]
    exact (not_not.mp hsame).symm

/-- A step that frames nothing new and is not the last. -/
theorem Reports.of_frames (h : stream.Reports) (hframes : stream'.frames = stream.frames)
    (hlast : stream'.lastStatus = stream.lastStatus)
    (hpushing : ∀ status, stream'.phase = .pushing status → stream.phase = .pushing status)
    (hended : stream'.phase ≠ .ended) : stream'.Reports where
  last := by rw [hframes, hlast, h.last]
  pushing status hphase := hlast ▸ h.pushing status (hpushing status hphase)
  ended hphase := absurd hphase hended

/-- A stream that is over has reported the terminal status that it read last. -/
theorem Reports.over (h : stream.Reports) (hdelivers : stream.Delivers job) {status : JobStatus} {rest : List Frame}
    (phase : stream.phase = .pushing status) (pending : stream.pending = .endOfStream :: rest) :
    stream.lastStatus = some status ∧ status.terminal = true ∧ lastReported stream.written = some status := by
  have hlast := h.pushing status phase
  have hlaid := hdelivers.laid
  rw [Laid, phase, pending] at hlaid
  refine ⟨hlast, hlaid.mp List.mem_cons_self, ?_⟩
  rw [← hlast, ← h.last, frames, pending, hdelivers.rest_eq_nil pending]
  exact (lastReported_append_of_none (by simp [Frame.status?])).symm

/-- A step of the stream keeps its reports. -/
theorem Reports.of_steps (h : stream.Reports) (hdelivers : stream.Delivers job)
    (hstep : stream.Steps job e stream') : stream'.Reports := by
  cases hstep with
  | connect phase =>
    have hlaid := hdelivers.laid
    rw [Laid, phase] at hlaid
    obtain ⟨-, hpending⟩ := List.append_eq_nil_iff.mp hlaid
    refine ⟨?_, fun _ => StreamPhase.noConfusion, StreamPhase.noConfusion⟩
    rw [← h.last, hlaid, frames, hpending]
    rfl
  | take status scanned phase =>
    have hlaid := hdelivers.laid
    rw [Laid, phase] at hlaid
    have hlast := h.last
    rw [frames, hlaid, List.append_nil] at hlast
    refine ⟨lastReported_append_pollFrames status scanned _ _ hlast, fun t hphase => ?_, StreamPhase.noConfusion⟩
    cases hphase
    rfl
  | push status frame rest phase pending inner =>
    refine h.of_frames ?_ rfl (fun _ hphase => hphase) (by rw [phase]; exact StreamPhase.noConfusion)
    simp [frames, pending]
  | pushEnd status rest phase pending =>
    obtain ⟨hlast, hterminal, hwritten⟩ := h.over hdelivers phase pending
    refine ⟨?_, fun _ => StreamPhase.noConfusion, fun _ => ⟨status, hlast, hterminal, ?_⟩⟩
    · rw [← h.last]
      simp [frames, pending]
    · rw [lastReported_append_of_none (by simp [Frame.status?]), hwritten]
  | lostEnd status rest phase pending =>
    exact ⟨h.last, fun _ => StreamPhase.noConfusion, fun _ => ⟨status, h.over hdelivers phase pending⟩⟩
  | refused phase | readStatus phase | readScanned status phase | lost status frame rest phase pending inner
  | sleep status phase pending =>
    exact h.of_frames rfl rfl (fun _ => StreamPhase.noConfusion) StreamPhase.noConfusion

end EventStream

namespace LiveJob

variable {db inserted : Bool} {live live' : LiveJob} {events more : List LiveEvent}

/-- In every state of a run the reports of every stream follow its locals. -/
theorem reports_of_run (run : Run (step db) (spawn db inserted) events live) (k : ℕ) : (live.streams k).Reports := by
  induction run with
  | nil => exact ⟨rfl, nofun, nofun⟩
  | next run h ih =>
    obtain ⟨we, -, -, hsame⟩ | ⟨se, -, hstep, -⟩ | ⟨-, -, hsame⟩ := step_cases_at h k
    · exact hsame ▸ ih
    · exact ih.of_steps (delivers_of_run run k) hstep
    · exact hsame ▸ ih

/-- All persistence calls of a run work. -/
def AllPersist (stored : Bool) (events : List LiveEvent) : Prop := ∀ e, .worker e ∈ events → e.Persists stored

/-- The worker is faithful in every run that persists. -/
theorem faithful_of_run (run : Run (step db) (spawn db inserted) events live)
    (hpersist : AllPersist (db && inserted) events) : live.worker.Faithful db inserted := by
  induction run with
  | nil => exact JobWorker.faithful_spawn db inserted
  | next run h ih =>
    have hfaithful := ih fun e he => hpersist e (List.mem_append_left _ he)
    obtain ⟨we, worker, rfl, hstep, rfl⟩ | ⟨k, se, stream, -, -, rfl⟩ := step_cases h
    · exact hstep.faithful hfaithful (hpersist we (by simp))
    · exact hfaithful

/-- When everything is persisted a terminal status is final. -/
theorem status_of_run (first : Run (step db) (spawn db inserted) events live) (second : Run (step db) live more live')
    (hpersist : AllPersist (db && inserted) (events ++ more)) (hterminal : live.worker.job.status.terminal = true) :
    live'.worker.job.status = live.worker.job.status := by
  induction second with
  | nil => rfl
  | @next more mid live' e second h ih =>
    have hpersists : AllPersist (db && inserted) (events ++ more) := fun e he => hpersist e (by
      rw [← List.append_assoc]
      exact List.mem_append_left _ he)
    have hsame := ih hpersists
    obtain ⟨we, worker, -, hstep, rfl⟩ | ⟨k, se, stream, -, -, rfl⟩ := step_cases h
    · exact (hstep.status_of_terminal (faithful_of_run (first.append second) hpersists) (hsame ▸ hterminal)).trans hsame
    · exact hsame

end LiveJob

open LiveJob in
/-- In a run in which everything is persisted a finished job stays finished, a stream that is over has
reported its final status, and once the worker is through the persisted status is that one too. -/
theorem finished_stays_finished (db inserted : Bool) {events more : List LiveEvent} {live live' : LiveJob}
    (first : Run (LiveJob.step db) (spawn db inserted) events live) (second : Run (LiveJob.step db) live more live')
    (persist : AllPersist (db && inserted) (events ++ more)) :
    (live.worker.job.status.terminal = true → live'.worker.job.status = live.worker.job.status) ∧
      (∀ k, (live.streams k).phase = .ended →
        lastReported (live.streams k).written = some live'.worker.job.status) ∧
      ∀ row ∈ live'.worker.row, live'.worker.stage = .finished → ∀ shown ∈ [none, some live'.worker.job],
        getScanStatus shown (some row) = some live'.worker.job.status.text ∧
          listScansStatus shown row = live'.worker.job.status.text := by
  refine ⟨status_of_run first second persist, fun k hended => ?_, fun row hrow hfinished shown hshown => ?_⟩
  · obtain ⟨status, hlast, hterminal, hreported⟩ := (reports_of_run first k).ended hended
    obtain ⟨before, after, mid, rfl, hbefore, hmid, hafter⟩ := hasRead_of_run first (.inr (.inr hlast))
    rw [List.append_assoc] at persist
    rw [status_of_run hbefore (hafter.append second) persist (hmid ▸ hterminal), hmid, hreported]
  · have hstatus := (faithful_of_run (first.append second) persist).stored (.inr (.inr hfinished)) row hrow
    obtain rfl | rfl : shown = none ∨ shown = some live'.worker.job := by simpa using hshown
    · exact ⟨congrArg (some ∘ JobStatus.text) hstatus, congrArg JobStatus.text hstatus⟩
    · exact ⟨rfl, rfl⟩

/-- A scan that is done, and a stream that follows it to its end. -/
def demoDone : List LiveEvent :=
  [.worker .storeRunning, .worker (.updateRunning true), .worker .scanReturns, .worker .storeDone,
    .stream 0 (.connect true), .stream 0 .readStatus, .stream 0 .readScanned, .stream 0 .take, .stream 0 (.push true),
    .stream 0 (.push true), .stream 0 (.push true)]

/-- The worker persists its job, with these answers to the final update and to the saving of the ports. -/
def demoPersist (effective : Bool) (calls : SaveCalls) (rest : List LiveEvent) : List LiveEvent :=
  [.worker (.stamp 1700000000), .worker (.updateDone effective), .worker (.savePorts calls)] ++ rest

/-- A transaction that works. -/
def demoCalls : SaveCalls := ⟨none, true, none, none⟩

open LiveJob in
/-- The ordinary run: the row says in the end what the stream has said. -/
theorem finished_stays_finished_ordinary :
    ∃ live live', Run (LiveJob.step true) (spawn true true) demoDone live ∧
      Run (LiveJob.step true) live
        (demoPersist true demoCalls [.worker (.saveFindings demoCalls)]) live' ∧
      live.worker.job.status.terminal = true ∧ live'.worker.job.status = live.worker.job.status := by
  have hpersist : AllPersist (true && true) (demoDone ++
      (demoPersist true demoCalls [.worker (.saveFindings demoCalls)])) := by
    intro e he
    simp only [demoDone, demoPersist, demoCalls, List.cons_append, List.nil_append, List.mem_cons,
      LiveEvent.worker.injEq, reduceCtorEq, false_or, or_false, List.not_mem_nil] at he
    obtain rfl | rfl | rfl | rfl | rfl | rfl | rfl | rfl := he <;>
      simp [WorkerEvent.Persists, SaveCalls.Succeed]
  obtain ⟨live, first, hlive⟩ := Run.exists_of_any (show
    ((demoDone.foldlM (LiveJob.step true) (spawn true true)).any fun live =>
      live.worker.job.status.terminal &&
        ((demoPersist true demoCalls [.worker (.saveFindings demoCalls)]).foldlM
          (LiveJob.step true) live).any fun _ => true) = true by decide +kernel)
  obtain ⟨hterminal, hgoes⟩ := Bool.and_eq_true_iff.mp hlive
  obtain ⟨live', second, -⟩ := Run.exists_of_any hgoes
  exact ⟨live, live', first, second, hterminal, (finished_stays_finished true true first second hpersist).1 hterminal⟩

open LiveJob in
/-- When the transaction of `save_ports` cannot begin, a job that has been reported as done turns into a
failed one. When the final update fails silently, the row stays at `running`. -/
theorem reported_done_becomes_error :
    (∃ live live', Run (LiveJob.step true) (spawn true true) demoDone live ∧
      Run (LiveJob.step true) live (demoPersist true ⟨some (str "database is locked"), true, none, none⟩
        [.worker .recordError, .worker .storeError]) live' ∧
      live.worker.job.status = .done ∧ (live.streams 0).phase = .ended ∧
      lastReported (live.streams 0).written = some .done ∧ live'.worker.job.status = .error) ∧
    ∃ live, Run (LiveJob.step true) (spawn true true)
        (demoDone ++ demoPersist false demoCalls [.worker (.saveFindings demoCalls)]) live ∧
      live.worker.stage = .finished ∧ live.worker.job.status = .done ∧
      (live.worker.row.map (·.status)) = some .running := by
  constructor
  · obtain ⟨live, first, hlive⟩ := Run.exists_of_any (show
      ((demoDone.foldlM (LiveJob.step true) (spawn true true)).any fun live =>
        decide (live.worker.job.status = .done) && decide ((live.streams 0).phase = .ended) &&
          decide (lastReported (live.streams 0).written = some .done) &&
          ((demoPersist true ⟨some (str "database is locked"), true, none, none⟩
            [.worker .recordError, .worker .storeError]).foldlM (LiveJob.step true) live).any fun live =>
              decide (live.worker.job.status = .error)) = true by decide +kernel)
    simp only [Bool.and_eq_true, decide_eq_true_eq] at hlive
    obtain ⟨⟨⟨hdone, hended⟩, hreported⟩, hgoes⟩ := hlive
    obtain ⟨live', second, herror⟩ := Run.exists_of_any hgoes
    exact ⟨live, live', first, second, hdone, hended, hreported, of_decide_eq_true herror⟩
  · obtain ⟨live, run, hlive⟩ := Run.exists_of_any (show
      (((demoDone ++ demoPersist false demoCalls [.worker (.saveFindings demoCalls)]).foldlM (LiveJob.step true)
          (spawn true true)).any fun live =>
          decide (live.worker.stage = .finished) && decide (live.worker.job.status = .done) &&
            decide (live.worker.row.map (·.status) = some .running)) = true by decide +kernel)
    simp only [Bool.and_eq_true, decide_eq_true_eq] at hlive
    exact ⟨live, run, hlive.1.1, hlive.1.2, hlive.2⟩

end ZeroTrust
