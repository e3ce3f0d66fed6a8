import ZeroTrust.WebUi.Job

/-!
# The event stream of a job

The loop of `stream_scan`, one step for each access to the shared job and for each write. Any number of
streams follow one worker. A stream is complete because it reads the status before it takes the results
and because no result is appended once the status is terminal.
-/

namespace ZeroTrust

/-- The events that a stream sends. -/
inductive Frame
  | hello
  | progress (scanned : ℕ)
  | port (port : Port)
  | finding (finding : Finding)
  | status (status : JobStatus)
  | endOfStream

/-- The port that a frame carries. -/
def Frame.port? : Frame → Option Port
  | .port p => some p
  | _ => none

/-- The finding that a frame carries. -/
def Frame.finding? : Frame → Option Finding
  | .finding f => some f
  | _ => none

/-- Whether a frame is the `end` event. -/
def Frame.isEnd : Frame → Bool
  | .endOfStream => true
  | _ => false

/-- Where the handler of a stream stands. -/
inductive StreamPhase
  | connecting
  | polling
  | statusRead (status : JobStatus)
  | scannedRead (status : JobStatus) (scanned : ℕ)
  | pushing (status : JobStatus)
  | ended
  | broken
deriving DecidableEq

/-- The locals of a stream, what it still has to push and what has been written. -/
structure EventStream where
  phase : StreamPhase := .connecting
  sentPorts : ℕ := 0
  sentFindings : ℕ := 0
  lastScanned : ℤ := -1
  lastStatus : Option JobStatus := none
  pending : List Frame := []
  written : List Frame := []

/-- The steps of a stream. A write succeeds or fails. -/
inductive StreamEvent
  | connect (writes : Bool)
  | readStatus
  | readScanned
  | take
  | push (writes : Bool)
  | sleep
deriving DecidableEq

/-- Whether the write of an event succeeds, if there is one. -/
def StreamEvent.writes : StreamEvent → Bool
  | .connect writes | .push writes => writes
  | _ => true

/-- The unsent suffix of a vector and the new cursor. -/
def takeUnsent {α : Type} (rows : List α) (sent : ℕ) : List α × ℕ :=
  if sent < rows.length then (rows.drop sent, rows.length) else ([], sent)

namespace EventStream

/-- What a poll pushes, in this order. -/
def pollFrames (stream : EventStream) (status : JobStatus) (scanned : ℕ) (newPorts : List Port)
    (newFindings : List Finding) : List Frame :=
  (if (scanned : ℤ) ≠ stream.lastScanned then [.progress scanned] else []) ++
    newPorts.map .port ++ newFindings.map .finding ++
    (if some status ≠ stream.lastStatus then [.status status] else []) ++
    (if status.terminal then [.endOfStream] else [])

/-- The section that holds the lock; the frames that follow from it are laid out for pushing. -/
def takeResults (stream : EventStream) (job : ScanJob) (status : JobStatus) (scanned : ℕ) : EventStream :=
  let (newPorts, sentPorts) := takeUnsent job.ports stream.sentPorts
  let (newFindings, sentFindings) := takeUnsent job.findings stream.sentFindings
  { stream with
    phase := .pushing status
    sentPorts := sentPorts
    sentFindings := sentFindings
    lastScanned := scanned
    lastStatus := some status
    pending := stream.pollFrames status scanned newPorts newFindings }

/-- A push: a failed write gives up the stream, but after the `end` event it is over in any case. -/
def pushFrame (stream : EventStream) (frame : Frame) (rest : List Frame) (writes : Bool) : EventStream :=
  match frame.isEnd, writes with
  | false, true => { stream with pending := rest, written := stream.written ++ [frame] }
  | false, false => { stream with phase := .broken }
  | true, true => { stream with phase := .ended, pending := rest, written := stream.written ++ [frame] }
  | true, false => { stream with phase := .ended }

/-- A step of a stream, if it is there. -/
def step (job : ScanJob) (stream : EventStream) : StreamEvent → Option EventStream
  | .connect writes =>
    match stream.phase with
    | .connecting =>
      if writes then some { stream with phase := .polling, written := [.hello] }
      else some { stream with phase := .broken }
    | _ => none
  | .readStatus =>
    match stream.phase with
    | .polling => some { stream with phase := .statusRead job.status }
    | _ => none
  | .readScanned =>
    match stream.phase with
    | .statusRead status => some { stream with phase := .scannedRead status job.scanned }
    | _ => none
  | .take =>
    match stream.phase with
    | .scannedRead status scanned => some (stream.takeResults job status scanned)
    | _ => none
  | .push writes =>
    match stream.phase, stream.pending with
    | .pushing _, frame :: rest => some (stream.pushFrame frame rest writes)
    | _, _ => none
  | .sleep =>
    match stream.phase, stream.pending with
    | .pushing _, [] => some { stream with phase := .polling }
    | _, _ => none

/-- What a step does. -/
inductive Steps (job : ScanJob) (stream : EventStream) : StreamEvent → EventStream → Prop
  | connect (phase : stream.phase = .connecting) :
    Steps job stream (.connect true) { stream with phase := .polling, written := [.hello] }
  | refused (phase : stream.phase = .connecting) :
    Steps job stream (.connect false) { stream with phase := .broken }
  | readStatus (phase : stream.phase = .polling) :
    Steps job stream .readStatus { stream with phase := .statusRead job.status }
  | readScanned (status : JobStatus) (phase : stream.phase = .statusRead status) :
    Steps job stream .readScanned { stream with phase := .scannedRead status job.scanned }
  | take (status : JobStatus) (scanned : ℕ) (phase : stream.phase = .scannedRead status scanned) :
    Steps job stream .take (stream.takeResults job status scanned)
  | push (status : JobStatus) (frame : Frame) (rest : List Frame) (phase : stream.phase = .pushing status)
    (pending : stream.pending = frame :: rest) (inner : frame ≠ .endOfStream) :
    Steps job stream (.push true) { stream with pending := rest, written := stream.written ++ [frame] }
  | lost (status : JobStatus) (frame : Frame) (rest : List Frame) (phase : stream.phase = .pushing status)
    (pending : stream.pending = frame :: rest) (inner : frame ≠ .endOfStream) :
    Steps job stream (.push false) { stream with phase := .broken }
  | pushEnd (status : JobStatus) (rest : List Frame) (phase : stream.phase = .pushing status)
    (pending : stream.pending = .endOfStream :: rest) :
    Steps job stream (.push true)
      { stream with phase := .ended, pending := rest, written := stream.written ++ [.endOfStream] }
  | lostEnd (status : JobStatus) (rest : List Frame) (phase : stream.phase = .pushing status)
    (pending : stream.pending = .endOfStream :: rest) :
    Steps job stream (.push false) { stream with phase := .ended }
  | sleep (status : JobStatus) (phase : stream.phase = .pushing status) (pending : stream.pending = []) :
    Steps job stream .sleep { stream with phase := .polling }

/-- One step is a run of one step. -/
theorem steps_of_step {job : ScanJob} {stream stream' : EventStream} {e : StreamEvent}
    (h : stream.step job e = some stream') : stream.Steps job e stream' := by
  cases e with
  | connect writes =>
    simp only [step] at h
    split at h
    · next hphase =>
      split at h <;> cases h
      · next hwrites => exact hwrites ▸ .connect hphase
      · next hwrites => exact Bool.eq_false_of_not_eq_true hwrites ▸ .refused hphase
    · cases h
  | push writes =>
    simp only [step] at h
    split at h
    · next status frame rest hphase hpending =>
      cases h
      cases frame <;> cases writes <;>
        first
        | exact .lostEnd status rest hphase hpending
        | exact .pushEnd status rest hphase hpending
        | exact .lost status _ rest hphase hpending Frame.noConfusion
        | exact .push status _ rest hphase hpending Frame.noConfusion
    · cases h
  | readStatus | readScanned | take | sleep =>
    simp only [step] at h
    split at h <;> cases h
    constructor <;> assumption

end EventStream

/-- A worker and the streams that follow its job. -/
structure LiveJob where
  worker : JobWorker
  streams : ℕ → EventStream := fun _ => {}

/-- The steps of the parties. -/
inductive LiveEvent
  | worker (e : WorkerEvent)
  | stream (k : ℕ) (e : StreamEvent)

/-- Whether an event is a step of the stream `k`. -/
def LiveEvent.isOf (k : ℕ) : LiveEvent → Bool
  | .worker _ => false
  | .stream j _ => j == k

namespace LiveJob

/-- A step of one of the parties. -/
def step (db : Bool) (live : LiveJob) : LiveEvent → Option LiveJob
  | .worker e => (live.worker.step db e).map fun worker => { live with worker := worker }
  | .stream k e =>
    ((live.streams k).step live.worker.job e).map fun stream =>
      { live with streams := Function.update live.streams k stream }

/-- A job that has just been created, with nobody connected. -/
def spawn (db inserted : Bool) : LiveJob where
  worker := .spawn db inserted

end LiveJob

namespace EventStream

/-- All frames so far, written or not. -/
def frames (stream : EventStream) : List Frame := stream.written ++ stream.pending

/-- The ports among some frames. -/
def framePorts (frames : List Frame) : List Port := frames.filterMap Frame.port?

/-- The findings among some frames. -/
def frameFindings (frames : List Frame) : List Finding := frames.filterMap Frame.finding?

/-- The ports of two stretches of frames are those of the first, then those of the second. -/
@[simp] theorem framePorts_append (l r : List Frame) : framePorts (l ++ r) = framePorts l ++ framePorts r :=
  List.filterMap_append

/-- The findings of two stretches of frames are those of the first, then those of the second. -/
@[simp] theorem frameFindings_append (l r : List Frame) :
    frameFindings (l ++ r) = frameFindings l ++ frameFindings r :=
  List.filterMap_append

/-- The cursor stands behind what has been taken. -/
theorem takeUnsent_spec {α : Type} (rows : List α) (sent : ℕ) (h : sent ≤ rows.length) :
    takeUnsent rows sent = (rows.drop sent, rows.length) := by
  unfold takeUnsent
  split
  · rfl
  · next hsent =>
    have hall : sent = rows.length := le_antisymm h (Nat.le_of_not_lt hsent)
    rw [hall, List.drop_length]

/-- Port frames announce their ports. -/
@[simp] theorem framePorts_map_port (ports : List Port) : framePorts (ports.map .port) = ports :=
  (List.filterMap_map ..).trans List.filterMap_some

/-- Finding frames announce no port. -/
@[simp] theorem framePorts_map_finding (findings : List Finding) : framePorts (findings.map .finding) = [] :=
  (List.filterMap_map ..).trans (List.filterMap_eq_nil_iff.mpr fun _ _ => rfl)

/-- Finding frames announce their findings. -/
@[simp] theorem frameFindings_map_finding (findings : List Finding) :
    frameFindings (findings.map .finding) = findings :=
  (List.filterMap_map ..).trans List.filterMap_some

/-- Port frames announce no finding. -/
@[simp] theorem frameFindings_map_port (ports : List Port) : frameFindings (ports.map .port) = [] :=
  (List.filterMap_map ..).trans (List.filterMap_eq_nil_iff.mpr fun _ _ => rfl)

/-- One poll announces its new ports. -/
@[simp] theorem framePorts_pollFrames (stream : EventStream) (status : JobStatus) (scanned : ℕ)
    (newPorts : List Port) (newFindings : List Finding) :
    framePorts (stream.pollFrames status scanned newPorts newFindings) = newPorts := by
  simp only [pollFrames, framePorts_append, framePorts_map_port, framePorts_map_finding]
  split_ifs <;> simp [framePorts, List.filterMap_cons, Frame.port?]

/-- One poll announces its new findings. -/
@[simp] theorem frameFindings_pollFrames (stream : EventStream) (status : JobStatus) (scanned : ℕ)
    (newPorts : List Port) (newFindings : List Finding) :
    frameFindings (stream.pollFrames status scanned newPorts newFindings) = newFindings := by
  simp only [pollFrames, frameFindings_append, frameFindings_map_port, frameFindings_map_finding]
  split_ifs <;> simp [frameFindings, List.filterMap_cons, Frame.finding?]

/-- A poll pushes the `end` event last, and only when it has read a terminal status. -/
theorem pollFrames_end (stream : EventStream) (status : JobStatus) (scanned : ℕ) (newPorts : List Port)
    (newFindings : List Finding) :
    ∃ body, Frame.endOfStream ∉ body ∧
      stream.pollFrames status scanned newPorts newFindings =
        body ++ if status.terminal then [.endOfStream] else [] := by
  refine ⟨_, ?_, rfl⟩
  split_ifs <;> simp

end EventStream

namespace LiveJob

variable {db : Bool} {live live' : LiveJob}

/-- A step is one of the worker or one of a stream. -/
theorem step_cases {e : LiveEvent} (h : live.step db e = some live') :
    (∃ we worker, e = .worker we ∧ live.worker.Steps db we worker ∧ live' = { live with worker := worker }) ∨
      ∃ k se stream, e = .stream k se ∧ (live.streams k).Steps live.worker.job se stream ∧
        live' = { live with streams := Function.update live.streams k stream } := by
  cases e with
  | worker we =>
    obtain ⟨worker, hstep, rfl⟩ := Option.map_eq_some_iff.mp h
    exact .inl ⟨we, worker, rfl, JobWorker.steps_of_step hstep, rfl⟩
  | stream k se =>
    obtain ⟨stream, hstep, rfl⟩ := Option.map_eq_some_iff.mp h
    exact .inr ⟨k, se, stream, rfl, EventStream.steps_of_step hstep, rfl⟩

/-- What a step is for the stream `k`: one of the worker, one of its own, or one of another stream. -/
theorem step_cases_at {e : LiveEvent} (h : live.step db e = some live') (k : ℕ) :
    (∃ we, e = .worker we ∧ live.worker.Steps db we live'.worker ∧ live'.streams k = live.streams k) ∨
      (∃ se, e = .stream k se ∧ (live.streams k).Steps live.worker.job se (live'.streams k) ∧
        live'.worker = live.worker) ∨
      (∃ j se, e = .stream j se ∧ j ≠ k) ∧ live'.worker = live.worker ∧ live'.streams k = live.streams k := by
  obtain ⟨we, worker, rfl, hstep, rfl⟩ | ⟨j, se, stream, rfl, hstep, rfl⟩ := step_cases h
  · exact .inl ⟨we, rfl, hstep, rfl⟩
  · by_cases hj : k = j
    · subst hj
      refine .inr (.inl ⟨se, rfl, ?_, rfl⟩)
      simpa using hstep
    · exact .inr (.inr ⟨⟨j, se, rfl, Ne.symm hj⟩, rfl, Function.update_of_ne hj _ _⟩)

/-- Stage and status belong together in every state of a run. -/
theorem stageStatus_of_run {inserted : Bool} {events : List LiveEvent}
    (run : Run (step db) (spawn db inserted) events live) :
    JobWorker.StageStatus live.worker.stage live.worker.job.status := by
  apply run.invariant fun _ live => JobWorker.StageStatus live.worker.stage live.worker.job.status
  · exact rfl
  · intro events live e live' _ ih h
    obtain ⟨we, worker, -, hstep, rfl⟩ | ⟨k, se, stream, -, -, rfl⟩ := step_cases h
    · exact hstep.stageStatus ih
    · exact ih

/-- Results are only appended from one state of a run to a later one, and none once the status is terminal. -/
theorem continues_of_run {inserted : Bool} {before after : List LiveEvent}
    (first : Run (step db) (spawn db inserted) before live) (second : Run (step db) live after live') :
    live.worker.Continues live'.worker := by
  induction second with
  | nil => exact .refl _
  | next second h ih =>
    obtain ⟨we, worker, -, hstep, rfl⟩ | ⟨k, se, stream, -, -, rfl⟩ := step_cases h
    · exact ih.trans (hstep.continues (stageStatus_of_run (first.append second)))
    · exact ih

end LiveJob

namespace EventStream

/-- The stream has read a status, in this poll or for its last report. -/
def HasRead (stream : EventStream) (status : JobStatus) : Prop :=
  stream.phase = .statusRead status ∨ (∃ scanned, stream.phase = .scannedRead status scanned) ∨
    stream.lastStatus = some status

/-- A step of a stream reads the current status or keeps to what it knows. -/
theorem Steps.hasRead {job : ScanJob} {stream stream' : EventStream} {e : StreamEvent} {status : JobStatus}
    (h : stream.Steps job e stream') (hread : stream'.HasRead status) :
    stream.HasRead status ∨ job.status = status := by
  obtain hphase | ⟨scanned, hphase⟩ | hlast := hread
  · cases h with
    | readStatus phase => exact .inr (StreamPhase.statusRead.inj hphase)
    | push t frame rest phase pending inner => exact .inl (.inl hphase)
    | _ => cases hphase
  · cases h with
    | readScanned t phase =>
      cases hphase
      exact .inl (.inl phase)
    | push t frame rest phase pending inner => exact .inl (.inr (.inl ⟨scanned, hphase⟩))
    | _ => cases hphase
  · cases h with
    | take t scanned phase =>
      cases hlast
      exact .inl (.inr (.inl ⟨scanned, phase⟩))
    | _ => exact .inl (.inr (.inr hlast))

end EventStream

/-- Whatever status a stream has read was the status of the job at some earlier point. -/
theorem LiveJob.hasRead_of_run {db inserted : Bool} {events : List LiveEvent} {live : LiveJob} {k : ℕ}
    {status : JobStatus} (run : Run (step db) (spawn db inserted) events live)
    (hread : (live.streams k).HasRead status) :
    ∃ before after mid, events = before ++ after ∧ Run (step db) (spawn db inserted) before mid ∧
      mid.worker.job.status = status ∧ Run (step db) mid after live := by
  induction run with
  | nil => obtain hphase | ⟨scanned, hphase⟩ | hlast := hread <;> contradiction
  | @next events live live' e run h ih =>
    have hearlier : (live.streams k).HasRead status →
        ∃ before after mid, events ++ [e] = before ++ after ∧ Run (step db) (spawn db inserted) before mid ∧
          mid.worker.job.status = status ∧ Run (step db) mid after live' := fun hread => by
      obtain ⟨before, after, mid, rfl, hbefore, hmid, hafter⟩ := ih hread
      exact ⟨before, after ++ [e], mid, List.append_assoc _ _ _, hbefore, hmid, hafter.next h⟩
    obtain ⟨we, -, -, hsame⟩ | ⟨se, -, hstep, -⟩ | ⟨-, -, hsame⟩ := step_cases_at h k
    · exact hearlier (hsame ▸ hread)
    · obtain hread | hnow := hstep.hasRead hread
      · exact hearlier hread
      · exact ⟨events, [e], live, rfl, run, hnow, Run.nil.next h⟩
    · exact hearlier (hsame ▸ hread)

/-- A terminal status that a stream has read is terminal for good. -/
theorem LiveJob.terminal_of_hasRead {db inserted : Bool} {events : List LiveEvent} {live : LiveJob} {k : ℕ}
    {status : JobStatus} (run : Run (step db) (spawn db inserted) events live)
    (hread : (live.streams k).HasRead status) (hterminal : status.terminal = true) :
    live.worker.job.status.terminal = true := by
  obtain ⟨before, after, mid, -, hbefore, hmid, hafter⟩ := hasRead_of_run run hread
  exact ((continues_of_run hbefore hafter).frozen (hmid ▸ hterminal)).2.2

/-- The phase says what is left to push. -/
def EventStream.Laid (stream : EventStream) : Prop :=
  match stream.phase with
  | .connecting => stream.frames = []
  | .pushing status => .endOfStream ∈ stream.pending ↔ status.terminal = true
  | .ended => .endOfStream ∈ stream.frames
  | .broken => True
  | _ => stream.pending = []

/-- How the frames of a stream and the results of its job belong together. -/
structure EventStream.Delivers (job : ScanJob) (stream : EventStream) : Prop where
  sentPorts_le : stream.sentPorts ≤ job.ports.length
  sentFindings_le : stream.sentFindings ≤ job.findings.length
  ports : framePorts stream.frames = job.ports.take stream.sentPorts
  findings : frameFindings stream.frames = job.findings.take stream.sentFindings
  unended : stream.phase ≠ .ended → .endOfStream ∉ stream.written
  laid : stream.Laid
  closing : .endOfStream ∈ stream.frames → job.status.terminal = true ∧
    stream.sentPorts = job.ports.length ∧ stream.sentFindings = job.findings.length ∧
    ∃ body, stream.frames = body ++ [.endOfStream] ∧ .endOfStream ∉ body

namespace EventStream

variable {job : ScanJob} {stream stream' : EventStream}

/-- Appended results do not concern what has been taken. -/
theorem Delivers.continues {worker worker' : JobWorker} (h : stream.Delivers worker.job)
    (hc : worker.Continues worker') : stream.Delivers worker'.job where
  sentPorts_le := h.sentPorts_le.trans hc.ports.length_le
  sentFindings_le := h.sentFindings_le.trans hc.findings.length_le
  ports := by
    obtain ⟨more, hmore⟩ := hc.ports
    rw [h.ports, ← hmore, List.take_append_of_le_length h.sentPorts_le]
  findings := by
    obtain ⟨more, hmore⟩ := hc.findings
    rw [h.findings, ← hmore, List.take_append_of_le_length h.sentFindings_le]
  unended := h.unended
  laid := h.laid
  closing hend := by
    obtain ⟨hterminal, hports, hfindings, hbody⟩ := h.closing hend
    obtain ⟨hports', hfindings', hstill⟩ := hc.frozen hterminal
    exact ⟨hstill, hports'.symm ▸ hports, hfindings'.symm ▸ hfindings, hbody⟩

/-- A step that frames nothing new. -/
theorem Delivers.of_frames (h : stream.Delivers job) (hframes : stream'.frames = stream.frames)
    (hports : stream'.sentPorts = stream.sentPorts) (hfindings : stream'.sentFindings = stream.sentFindings)
    (unended : stream'.phase ≠ .ended → .endOfStream ∉ stream'.written) (laid : stream'.Laid) :
    stream'.Delivers job where
  sentPorts_le := hports ▸ h.sentPorts_le
  sentFindings_le := hfindings ▸ h.sentFindings_le
  ports := by rw [hframes, hports, h.ports]
  findings := by rw [hframes, hfindings, h.findings]
  unended := unended
  laid := laid
  closing := by
    rw [hframes, hports, hfindings]
    exact h.closing

/-- A poll takes everything that is there. -/
theorem Delivers.takeResults (h : stream.Delivers job) {status : JobStatus} {scanned : ℕ}
    (phase : stream.phase = .scannedRead status scanned)
    (hread : status.terminal = true → job.status.terminal = true) :
    (stream.takeResults job status scanned).Delivers job := by
  have hpending : stream.pending = [] := by simpa [Laid, phase] using h.laid
  have hwritten : .endOfStream ∉ stream.written := h.unended (by rw [phase]; exact StreamPhase.noConfusion)
  have hports := h.ports
  have hfindings := h.findings
  rw [frames, hpending, List.append_nil] at hports hfindings
  obtain ⟨body, hbody, hpoll⟩ := stream.pollFrames_end status scanned (job.ports.drop stream.sentPorts)
    (job.findings.drop stream.sentFindings)
  have htaken : stream.takeResults job status scanned =
      { stream with
        phase := .pushing status
        sentPorts := job.ports.length
        sentFindings := job.findings.length
        lastScanned := scanned
        lastStatus := some status
        pending := stream.pollFrames status scanned (job.ports.drop stream.sentPorts)
          (job.findings.drop stream.sentFindings) } := by
    unfold EventStream.takeResults
    rw [takeUnsent_spec _ _ h.sentPorts_le, takeUnsent_spec _ _ h.sentFindings_le]
  have hend : .endOfStream ∈ stream.pollFrames status scanned (job.ports.drop stream.sentPorts)
      (job.findings.drop stream.sentFindings) ↔ status.terminal = true := by
    rw [hpoll]
    cases status.terminal <;> simp [hbody]
  rw [htaken]
  constructor
  · exact le_rfl
  · exact le_rfl
  · simp [frames, hports, List.take_append_drop]
  · simp [frames, hfindings, List.take_append_drop]
  · exact fun _ => hwritten
  · exact hend
  · intro hmem
    obtain hmem | hmem := List.mem_append.mp hmem
    · exact absurd hmem hwritten
    · have hterminal := hend.mp hmem
      refine ⟨hread hterminal, rfl, rfl, stream.written ++ body, ?_, ?_⟩
      · simp [frames, hpoll, hterminal]
      · simp [hwritten, hbody]

/-- Every step of a stream keeps the account. -/
theorem Delivers.of_steps {e : StreamEvent} (h : stream.Delivers job)
    (hread : ∀ status, stream.HasRead status → status.terminal = true → job.status.terminal = true)
    (hstep : stream.Steps job e stream') : stream'.Delivers job := by
  have hlaid := h.laid
  have hunended := h.unended
  cases hstep with
  | connect phase =>
    rw [Laid, phase] at hlaid
    obtain ⟨-, hpending⟩ := List.append_eq_nil_iff.mp hlaid
    have hports := h.ports
    have hfindings := h.findings
    rw [hlaid] at hports hfindings
    constructor
    · exact h.sentPorts_le
    · exact h.sentFindings_le
    · simpa [frames, hpending, framePorts, List.filterMap_cons, Frame.port?] using hports
    · simpa [frames, hpending, frameFindings, List.filterMap_cons, Frame.finding?] using hfindings
    · simp
    · exact hpending
    · simp [frames, hpending]
  | refused phase =>
    rw [phase] at hunended
    exact h.of_frames rfl rfl rfl (fun _ => hunended StreamPhase.noConfusion) trivial
  | readStatus phase =>
    rw [Laid, phase] at hlaid
    rw [phase] at hunended
    exact h.of_frames rfl rfl rfl (fun _ => hunended StreamPhase.noConfusion) hlaid
  | readScanned status phase =>
    rw [Laid, phase] at hlaid
    rw [phase] at hunended
    exact h.of_frames rfl rfl rfl (fun _ => hunended StreamPhase.noConfusion) hlaid
  | take status scanned phase => exact h.takeResults phase (hread status (.inr (.inl ⟨scanned, phase⟩)))
  | push status frame rest phase pending inner =>
    rw [Laid, phase, pending, List.mem_cons, or_iff_right inner.symm] at hlaid
    rw [phase] at hunended
    refine h.of_frames ?_ rfl rfl (fun _ => ?_) ?_
    · simp [frames, pending]
    · simpa [inner.symm] using hunended StreamPhase.noConfusion
    · simpa [Laid, phase] using hlaid
  | lost status frame rest phase pending inner =>
    rw [phase] at hunended
    exact h.of_frames rfl rfl rfl (fun _ => hunended StreamPhase.noConfusion) trivial
  | pushEnd status rest phase pending =>
    refine h.of_frames ?_ rfl rfl (fun hphase => absurd rfl hphase) ?_
    · simp [frames, pending]
    · simp [Laid, frames]
  | lostEnd status rest phase pending =>
    refine h.of_frames rfl rfl rfl (fun hphase => absurd rfl hphase) ?_
    simp [Laid, frames, pending]
  | sleep status phase pending =>
    rw [phase] at hunended
    exact h.of_frames rfl rfl rfl (fun _ => hunended StreamPhase.noConfusion) pending

/-- An upper bound on the steps that a stream still takes once the status of its job is terminal. -/
def remaining (job : ScanJob) (stream : EventStream) : ℕ :=
  let unsent := (job.ports.length - stream.sentPorts) + (job.findings.length - stream.sentFindings)
  match stream.phase with
  | .connecting => unsent + 7
  | .polling => unsent + 6
  | .statusRead status => if status.terminal then unsent + 5 else unsent + 11
  | .scannedRead status _ => if status.terminal then unsent + 4 else unsent + 10
  | .pushing status => if status.terminal then stream.pending.length else stream.pending.length + unsent + 7
  | .ended | .broken => 0

/-- A poll frames what is unsent and at most three events more, the `end` event among them. -/
theorem length_pollFrames_le (stream : EventStream) (status : JobStatus) (scanned : ℕ) (newPorts : List Port)
    (newFindings : List Finding) :
    (stream.pollFrames status scanned newPorts newFindings).length ≤
      newPorts.length + newFindings.length + 2 + if status.terminal then 1 else 0 := by
  unfold pollFrames
  simp only [List.length_append, List.length_map]
  split_ifs <;> simp <;> omega

/-- Once the status is terminal, every step brings a stream closer to its end. -/
theorem Delivers.remaining_lt {e : StreamEvent} (h : stream.Delivers job) (hterminal : job.status.terminal = true)
    (hstep : stream.Steps job e stream') : stream'.remaining job < stream.remaining job := by
  cases hstep with
  | take status scanned phase =>
    have hlength := stream.length_pollFrames_le status scanned (job.ports.drop stream.sentPorts)
      (job.findings.drop stream.sentFindings)
    rw [List.length_drop, List.length_drop] at hlength
    simp only [remaining, EventStream.takeResults, takeUnsent_spec _ _ h.sentPorts_le,
      takeUnsent_spec _ _ h.sentFindings_le, phase]
    split at hlength <;> split <;> first | contradiction | omega
  | readStatus phase => simp [remaining, phase, hterminal]
  | sleep status phase pending =>
    have hlaid := h.laid
    rw [Laid, phase, pending] at hlaid
    have hopen : ¬status.terminal = true := fun hstatus => List.not_mem_nil (hlaid.mpr hstatus)
    simp only [remaining, phase, pending, List.length_nil, if_neg hopen]
    omega
  | connect phase | refused phase =>
    simp only [remaining, phase]
    omega
  | readScanned status phase =>
    simp only [remaining, phase]
    split_ifs <;> omega
  | push status frame rest phase pending inner | pushEnd status rest phase pending
  | lost status frame rest phase pending inner | lostEnd status rest phase pending =>
    simp only [remaining, phase, pending, List.length_cons]
    split_ifs <;> omega

/-- A stream that is neither over nor broken can go on. -/
theorem exists_step (job : ScanJob) (hended : stream.phase ≠ .ended) (hbroken : stream.phase ≠ .broken) :
    ∃ e, e.writes = true ∧ (stream.step job e).isSome := by
  cases hphase : stream.phase with
  | connecting => exact ⟨.connect true, rfl, by simp [step, hphase]⟩
  | polling => exact ⟨.readStatus, rfl, by simp [step, hphase]⟩
  | statusRead status => exact ⟨.readScanned, rfl, by simp [step, hphase]⟩
  | scannedRead status scanned => exact ⟨.take, rfl, by simp [step, hphase]⟩
  | pushing status =>
    cases hpending : stream.pending with
    | nil => exact ⟨.sleep, rfl, by simp [step, hphase, hpending]⟩
    | cons frame rest => exact ⟨.push true, rfl, by simp [step, hphase, hpending]⟩
  | ended => exact absurd hphase hended
  | broken => exact absurd hphase hbroken

/-- Without a failed write no stream breaks. -/
theorem Steps.unbroken {e : StreamEvent} (hstep : stream.Steps job e stream') (hwrites : e.writes = true)
    (h : stream.phase ≠ .broken) : stream'.phase ≠ .broken := by
  cases hstep with
  | refused phase | lost status frame rest phase pending inner => cases hwrites
  | push status frame rest phase pending inner => exact h
  | _ => exact StreamPhase.noConfusion

/-- The last frame of a stream is the `end` event. -/
theorem Delivers.rest_eq_nil (h : stream.Delivers job) {rest : List Frame}
    (pending : stream.pending = .endOfStream :: rest) : rest = [] := by
  obtain ⟨-, -, -, body, hframes, hbody⟩ := h.closing (by simp [frames, pending])
  rw [frames, pending] at hframes
  obtain rfl | ⟨front, last, rfl⟩ := rest.eq_nil_or_concat'
  · rfl
  · rw [← List.cons_append, ← List.append_assoc] at hframes
    obtain ⟨hfront, -⟩ := List.append_inj' hframes rfl
    exact absurd (by simp [← hfront]) hbody

/-- Without a failed write the `end` event of a stream that is over has been written. -/
theorem Delivers.pending_of_ended {e : StreamEvent} (h : stream.Delivers job) (hstep : stream.Steps job e stream')
    (hwrites : e.writes = true) (hended : stream'.phase = .ended) : stream'.pending = [] := by
  cases hstep with
  | pushEnd status rest phase pending => exact h.rest_eq_nil pending
  | lostEnd status rest phase pending => cases hwrites
  | push status frame rest phase pending inner =>
    rw [show stream.phase = .ended from hended] at phase
    cases phase
  | _ => cases hended

end EventStream

namespace LiveJob

variable {db inserted : Bool} {live live' : LiveJob} {events more : List LiveEvent}

/-- All writes of a stream succeed. -/
def AllWritten (k : ℕ) (events : List LiveEvent) : Prop := ∀ e, .stream k e ∈ events → e.writes = true

/-- In every state of a run every stream accounts for its frames. -/
theorem delivers_of_run (run : Run (step db) (spawn db inserted) events live) (k : ℕ) :
    (live.streams k).Delivers live.worker.job := by
  induction run with
  | nil =>
    constructor <;>
      simp [spawn, EventStream.frames, EventStream.Laid, EventStream.framePorts, EventStream.frameFindings]
  | next run h ih =>
    obtain ⟨we, -, hstep, hsame⟩ | ⟨se, -, hstep, hsame⟩ | ⟨-, hworker, hsame⟩ := step_cases_at h k
    · exact hsame ▸ ih.continues (hstep.continues (stageStatus_of_run run))
    · exact hsame ▸ ih.of_steps (fun status hread hterminal => terminal_of_hasRead run hread hterminal) hstep
    · exact hsame ▸ hworker ▸ ih

/-- Where every write of a run succeeded, every write of its first part did. -/
theorem AllWritten.of_append_left {k : ℕ} (h : AllWritten k (events ++ more)) : AllWritten k events :=
  fun e he => h e (List.mem_append_left _ he)

/-- When all writes succeed a stream never breaks, and it is over only after its last frame. -/
theorem intact_of_run (run : Run (step db) (spawn db inserted) events live) (k : ℕ) (hwritten : AllWritten k events) :
    (live.streams k).phase ≠ .broken ∧ ((live.streams k).phase = .ended → (live.streams k).pending = []) := by
  induction run with
  | nil => exact ⟨StreamPhase.noConfusion, fun h => nomatch h⟩
  | next run h ih =>
    obtain ⟨hbroken, hended⟩ := ih hwritten.of_append_left
    obtain ⟨we, -, -, hsame⟩ | ⟨se, rfl, hstep, -⟩ | ⟨-, -, hsame⟩ := step_cases_at h k
    · exact hsame ▸ ⟨hbroken, hended⟩
    · have hwrites := hwritten se (by simp)
      exact ⟨hstep.unbroken hwrites hbroken, (delivers_of_run run k).pending_of_ended hstep hwrites⟩
    · exact hsame ▸ ⟨hbroken, hended⟩

/-- Once the status is terminal, each step of a stream uses up some of its bound and nothing else adds to it. -/
theorem remaining_of_run (first : Run (step db) (spawn db inserted) events live)
    (hterminal : live.worker.job.status.terminal = true) (second : Run (step db) live more live') (k : ℕ) :
    (live'.streams k).remaining live'.worker.job + more.countP (·.isOf k) ≤
      (live.streams k).remaining live.worker.job := by
  induction second with
  | nil => exact le_rfl
  | @next more mid live' e second h ih =>
    have hmid := ((continues_of_run first second).frozen hterminal).2.2
    rw [List.countP_append]
    obtain ⟨we, rfl, hstep, hsame⟩ | ⟨se, rfl, hstep, hworker⟩ | ⟨⟨j, se, rfl, hj⟩, hworker, hsame⟩ :=
      step_cases_at h k
    · have hfrozen := (hstep.continues (stageStatus_of_run (first.append second))).frozen hmid
      have hremaining : (mid.streams k).remaining live'.worker.job = (mid.streams k).remaining mid.worker.job := by
        unfold EventStream.remaining
        rw [hfrozen.1, hfrozen.2.1]
      rw [hsame, hremaining]
      exact ih
    · have hlt := (delivers_of_run (first.append second) k).remaining_lt hmid hstep
      have hone : [LiveEvent.stream k se].countP (·.isOf k) = 1 := by simp [LiveEvent.isOf]
      rw [hworker, hone]
      omega
    · have hnone : [LiveEvent.stream j se].countP (·.isOf k) = 0 := by simp [LiveEvent.isOf, hj]
      rw [hworker, hsame, hnone]
      exact ih

/-- A stream with nothing left to do is over. -/
theorem ended_of_remaining {job : ScanJob} {stream : EventStream} (h : stream.Delivers job)
    (hbroken : stream.phase ≠ .broken) (hterminal : job.status.terminal = true)
    (hremaining : stream.remaining job = 0) : stream.phase = .ended := by
  by_contra hended
  obtain ⟨e, -, hsome⟩ := EventStream.exists_step job hended hbroken
  obtain ⟨stream', hstep⟩ := Option.isSome_iff_exists.mp hsome
  have hlt := h.remaining_lt hterminal (EventStream.steps_of_step hstep)
  omega

end LiveJob

open LiveJob EventStream in
/-- A stream whose writes succeed delivers each result of the job exactly once and in order, before a
single `end` event that comes only after the status is terminal; and then it does come, after a bounded
number of further polls. -/
theorem stream_complete (db inserted : Bool) {events : List LiveEvent} {live : LiveJob} (k : ℕ)
    (run : Run (LiveJob.step db) (spawn db inserted) events live) (writes : AllWritten k events) :
    framePorts (live.streams k).written <+: live.worker.job.ports ∧
      frameFindings (live.streams k).written <+: live.worker.job.findings ∧
      (.endOfStream ∈ (live.streams k).written → live.worker.job.status.terminal = true) ∧
      ((live.streams k).phase = .ended → ∃ body, (live.streams k).written = body ++ [.endOfStream] ∧
        .endOfStream ∉ body ∧ framePorts body = live.worker.job.ports ∧
        frameFindings body = live.worker.job.findings) ∧
      ((live.streams k).phase ≠ .ended → ∃ e, e.writes = true ∧ (live.step db (.stream k e)).isSome) ∧
      (live.worker.job.status.terminal = true → ∀ more live', Run (LiveJob.step db) live more live' →
        AllWritten k more → (live.streams k).remaining live.worker.job ≤ more.countP (·.isOf k) →
        (live'.streams k).phase = .ended) := by
  have hdelivers := delivers_of_run run k
  obtain ⟨hbroken, hpending⟩ := intact_of_run run k writes
  refine ⟨?_, ?_, ?_, ?_, ?_, ?_⟩
  · have hports := hdelivers.ports
    rw [frames, framePorts_append] at hports
    exact (hports ▸ List.prefix_append _ _).trans (List.take_prefix _ _)
  · have hfindings := hdelivers.findings
    rw [frames, frameFindings_append] at hfindings
    exact (hfindings ▸ List.prefix_append _ _).trans (List.take_prefix _ _)
  · intro hend
    exact (hdelivers.closing (List.mem_append_left _ hend)).1
  · intro hended
    have hframes : (live.streams k).frames = (live.streams k).written := by
      rw [frames, hpending hended, List.append_nil]
    have hlaid := hdelivers.laid
    rw [Laid, hended] at hlaid
    obtain ⟨-, hsentPorts, hsentFindings, body, hbody, hnone⟩ := hdelivers.closing hlaid
    have hports := hdelivers.ports
    have hfindings := hdelivers.findings
    rw [hbody, framePorts_append, hsentPorts, List.take_length] at hports
    rw [hbody, frameFindings_append, hsentFindings, List.take_length] at hfindings
    exact ⟨body, hframes ▸ hbody, hnone, (List.append_nil _).symm.trans hports,
      (List.append_nil _).symm.trans hfindings⟩
  · intro hended
    obtain ⟨e, hwrites, hsome⟩ := exists_step live.worker.job hended hbroken
    exact ⟨e, hwrites, by simpa [LiveJob.step] using hsome⟩
  · intro hterminal more live' second hmore hcount
    have hall : AllWritten k (events ++ more) := fun e he => (List.mem_append.mp he).elim (writes e) (hmore e)
    have hcontinues := continues_of_run run second
    have hremaining := remaining_of_run run hterminal second k
    exact ended_of_remaining (delivers_of_run (run.append second) k) (intact_of_run (run.append second) k hall).1
      (hcontinues.frozen hterminal).2.2 (by omega)

/-- One poll that is overtaken by the only results of the scan, after which the scan is done. -/
def demoOvertaken : List LiveEvent :=
  [.worker .storeRunning, .worker (.updateRunning true), .stream 0 (.connect true), .stream 0 .readStatus,
    .stream 0 .readScanned, .worker (.onPortOpen { number := 22 } [{ title := str "Old" }, { title := str "Weak" }]),
    .worker .probed, .stream 0 .take, .stream 0 (.push true), .stream 0 (.push true), .worker .scanReturns,
    .stream 0 (.push true), .stream 0 (.push true), .stream 0 (.push true), .stream 0 .sleep, .worker .storeDone]

/-- The poll that finds the scan done. -/
def demoClosing : List LiveEvent :=
  [.stream 0 .readStatus, .stream 0 .readScanned, .stream 0 .take, .stream 0 (.push true), .stream 0 (.push true),
    .stream 0 (.push true)]

open LiveJob EventStream in
/-- The results that the first poll was too early for arrive in the second, and then the stream is over. -/
theorem stream_complete_overtaken :
    ∃ live live', Run (LiveJob.step true) (spawn true true) demoOvertaken live ∧
      Run (LiveJob.step true) live demoClosing live' ∧ live.worker.job.ports.length = 1 ∧
      live.worker.job.findings.length = 2 ∧ framePorts (live.streams 0).written <+: live.worker.job.ports ∧
      (live'.streams 0).phase = .ended := by
  have hwrites : AllWritten 0 demoOvertaken := by
    intro e he
    simp only [demoOvertaken, List.mem_cons, LiveEvent.stream.injEq, reduceCtorEq, true_and, false_or, or_false,
      List.not_mem_nil] at he
    obtain rfl | rfl | rfl | rfl | rfl | rfl | rfl | rfl | rfl | rfl := he <;> rfl
  have hclosing : AllWritten 0 demoClosing := by
    intro e he
    simp only [demoClosing, List.mem_cons, LiveEvent.stream.injEq, true_and, or_false, List.not_mem_nil] at he
    obtain rfl | rfl | rfl | rfl | rfl | rfl := he <;> rfl
  obtain ⟨live, run, hlive⟩ := Run.exists_of_any (show
    ((demoOvertaken.foldlM (LiveJob.step true) (spawn true true)).any fun live =>
      live.worker.job.status.terminal && decide (live.worker.job.ports.length = 1) &&
        decide (live.worker.job.findings.length = 2) &&
        decide ((live.streams 0).remaining live.worker.job ≤ 6) &&
        (demoClosing.foldlM (LiveJob.step true) live).any fun _ => true) = true by decide +kernel)
  simp only [Bool.and_eq_true, decide_eq_true_eq] at hlive
  obtain ⟨⟨⟨⟨hterminal, hports⟩, hfindings⟩, hremaining⟩, hcloses⟩ := hlive
  obtain ⟨live', second, -⟩ := Run.exists_of_any hcloses
  obtain ⟨hstarts, -, -, -, -, hends⟩ := stream_complete true true 0 run hwrites
  exact ⟨live, live', run, second, hports, hfindings, hstarts, hends hterminal _ _ second hclosing hremaining⟩

end ZeroTrust
