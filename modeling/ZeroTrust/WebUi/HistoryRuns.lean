import ZeroTrust.WebUi.History

/-!
# Histories of the server

What holds of every history that starts with an empty database and never draws an identifier twice. The record
of a scan follows its worker: a scan whose own SQLite calls work and that ends as done has its results stored for
good, a scan that has not returned is never stored as done, and the list of scans shows what each scan's page
shows.
-/

namespace ZeroTrust

open Function (update update_self update_of_ne)

/-- The row says of its scan what `start_scan` knew. -/
structure ScanRow.Describes (row : ScanRow) (scan : NewScan) : Prop where
  target : row.target = beforeNul scan.target
  portStart : row.portStart = scan.portStart
  portEnd : row.portEnd = scan.portEnd
  startedAt : row.startedAt = scan.startedAt

/-- A new status leaves the description alone. -/
theorem ScanRow.Describes.withStatus {row : ScanRow} {scan : NewScan} (h : row.Describes scan) (status : Bytes)
    (completedAt scannedPorts : ℤ) (error : Bytes) :
    (row.withStatus status completedAt scannedPorts error).Describes scan :=
  ⟨h.target, h.portStart, h.portEnd, h.startedAt⟩

/-- Nothing is stored of the scan. -/
def ScanRecord.empty : ScanRecord := ⟨none, [], []⟩

/-- The SQLite calls that an event makes for a scan work. -/
def HistoryEvent.Persists (id : Bytes) : HistoryEvent → Prop
  | .start scan _ inserted => scan.id = id → inserted = true
  | .advance k (.updateDone effective) => k = id → effective = true
  | .savePorts k calls | .saveFindings k calls => k = id → calls.Faithful
  | _ => True

/-- The stages in front of the first save. -/
def WorkerStage.BeforeSaves : WorkerStage → Prop
  | .spawned | .started | .scanning | .returned | .published | .stamped | .savingPorts => True
  | _ => False

/-- The stages that a worker reaches behind its scan. -/
def WorkerStage.BehindScan : WorkerStage → Prop
  | .returned | .published | .stamped | .savingPorts | .savingFindings => True
  | _ => False

namespace HistoryServer

variable {st st' : HistoryServer} {e : HistoryEvent} {events : List HistoryEvent} {id : Bytes}

/-- No identifier is drawn twice. -/
def Fresh (events : List HistoryEvent) : Prop := events.Pairwise fun a b => ∀ id, a.Starts id → ¬b.Starts id

/-- The first process, with a new database. -/
def initial (opened : Bool) : HistoryServer := { opened := opened }

/-- What is known of every scan after a history. -/
structure Known (events : List HistoryEvent) (st : HistoryServer) : Prop where
  plainIds : st.PlainIds
  unknown : ∀ id, NulFree id → (∀ e ∈ events, ¬e.Starts id) → st.jobs id = none ∧
    st.db.stored.record id = .empty ∧ st.db.durable.record id = .empty
  gone : ∀ id, NulFree id → st.jobs id = none → st.db.stored.record id = st.db.durable.record id
  described : ∀ id live, st.jobs id = some live → ∀ row, st.db.stored.scans.getScan id = some row →
    row.Describes live.scan

/-- Nothing is known in the beginning. -/
theorem known_initial (opened : Bool) : Known [] (initial opened) where
  plainIds _ _ h := by cases h
  unknown _ _ _ := ⟨rfl, rfl, rfl⟩
  gone _ _ _ := rfl
  described _ _ h := by cases h

/-- A step of the worker keeps what it works on. -/
theorem scan_of_advance {opened : Bool} {live live' : LiveScan} {e : WorkerEvent}
    (h : live.advance opened e = some live') : live'.scan = live.scan ∧ live'.results = live.results := by
  obtain ⟨worker, -, rfl⟩ := Option.map_eq_some_iff.mp h
  exact ⟨rfl, rfl⟩

/-- The steps of a worker are those of the job. -/
theorem steps_of_advance {opened : Bool} {live live' : LiveScan} {e : WorkerEvent}
    (h : live.advance opened e = some live') : ∃ worker : JobWorker,
      JobWorker.Steps opened ⟨live.job, live.stage, none⟩ e worker ∧ live'.job = worker.job ∧
        live'.stage = worker.stage := by
  obtain ⟨worker, hstep, rfl⟩ := Option.map_eq_some_iff.mp h
  exact ⟨worker, JobWorker.steps_of_step hstep, rfl, rfl⟩

/-- Ports are saved at their stage only. -/
theorem stage_of_savePorts {opened : Bool} {live live' : LiveScan} {calls : SaveCalls}
    (h : live.advance opened (.savePorts calls) = some live') : live.stage = .savingPorts := by
  obtain ⟨worker, hworker, -, -⟩ := steps_of_advance h
  cases hworker with
  | savePorts calls stage => exact stage

/-- Findings are saved at their stage only. -/
theorem stage_of_saveFindings {opened : Bool} {live live' : LiveScan} {calls : SaveCalls}
    (h : live.advance opened (.saveFindings calls) = some live') : live.stage = .savingFindings := by
  obtain ⟨worker, hworker, -, -⟩ := steps_of_advance h
  cases hworker with
  | saveFindings calls stage => exact stage

/-- What a worker writes is the status that goes with its stage. -/
theorem statusUpdate_of_advance {opened : Bool} {live live' : LiveScan} {e : WorkerEvent} {row : JobRow}
    (h : live.advance opened e = some live') (hrow : live.statusUpdate e = some row) :
    live.stage = .started ∧ row.status = .running ∨
      live.stage = .stamped ∧ row = ⟨.done, live.job.completedAt, live.job.scanned, []⟩ ∨
      row.status = .error := by
  obtain ⟨worker, hworker, -, -⟩ := steps_of_advance h
  cases hworker with
  | updateRunning effective stage =>
    cases effective with
    | true =>
      cases hrow
      exact .inl ⟨stage, rfl⟩
    | false => cases hrow
  | updateDone effective stage =>
    cases effective with
    | true =>
      cases hrow
      exact .inr (.inl ⟨stage, rfl⟩)
    | false => cases hrow
  | updateError effective what stage =>
    have hstage : live.stage = .errorStamped what := stage
    cases effective with
    | true =>
      simp only [LiveScan.statusUpdate, hstage] at hrow
      cases hrow
      exact .inr (.inr rfl)
    | false => cases hrow
  | _ => cases hrow

/-- An event of a scan that is not its start needs the job. -/
theorem Steps.live_before (h : st.Steps e st') (hid : e.scanId = some id) (hstart : ¬e.Starts id) :
    ∃ live, st.jobs id = some live := by
  cases h with
  | start scan userSub inserted hscan => exact absurd (Option.some.inj hid) hstart
  | advance k e hlive hstep hplain => exact ⟨_, Option.some.inj hid ▸ hlive⟩
  | returns k results hlive hstep => exact ⟨_, Option.some.inj hid ▸ hlive⟩
  | savePorts k calls hlive hstep => exact ⟨_, Option.some.inj hid ▸ hlive⟩
  | saveFindings k calls hlive hstep => exact ⟨_, Option.some.inj hid ▸ hlive⟩
  | restart opened => cases hid

/-- Behind an event of a scan the process has its job. -/
theorem Steps.live_after (h : st.Steps e st') (hid : e.scanId = some id) : ∃ live, st'.jobs id = some live := by
  cases h with
  | start scan userSub inserted hscan =>
    cases hid
    exact ⟨_, enter_jobs_self ..⟩
  | advance k e hlive hstep hplain =>
    cases hid
    exact ⟨_, put_jobs_self ..⟩
  | returns k results hlive hstep =>
    cases hid
    exact ⟨_, put_jobs_self ..⟩
  | savePorts k calls hlive hstep =>
    cases hid
    exact ⟨_, put_jobs_self ..⟩
  | saveFindings k calls hlive hstep =>
    cases hid
    exact ⟨_, put_jobs_self ..⟩
  | restart opened => cases hid

/-- The row of a scan whose worker writes its status. -/
theorem getScan_updateStatus (db : HistoryDb) (id : Bytes) (row : Option JobRow) :
    (db.updateStatus id row).stored.scans.getScan id =
      match row with
      | none => db.stored.scans.getScan id
      | some row => (db.stored.scans.getScan id).map
          (·.withStatus row.status.text row.completedAt row.scannedPorts row.error) := by
  cases row with
  | none => rfl
  | some row => exact (ScanTable.find_updateScanStatus ..).trans (if_pos rfl)

/-- The row of a new scan. -/
theorem getScan_insert {scans : ScanTable} {scan : NewScan} (userSub : Bytes) (h : scans.getScan scan.id = none) :
    ∃ row, (scans.upsertScan (scan.row userSub)).getScan scan.id = some row ∧ row.Describes scan ∧
      row.status = str "queued" := by
  have hqueued : beforeNul (str "queued") = str "queued" := by decide
  exact ⟨_, ScanTable.find_upsertScan_self scans (scan.row userSub) h, ⟨rfl, rfl, rfl, rfl⟩, hqueued⟩

/-- The row in the table goes on describing its scan. -/
theorem Steps.described (h : st.Steps e st') (hk : Known events st)
    (hfresh : ∀ id, e.Starts id → ∀ a ∈ events, ¬a.Starts id) {live : LiveScan} (hlive : st'.jobs id = some live)
    {row : ScanRow} (hrow : st'.db.stored.scans.getScan id = some row) : row.Describes live.scan := by
  have hdescribed := hk.described
  by_cases hrestart : e.scanId = none
  · cases h with
    | restart opened => cases hlive
    | _ => cases hrestart
  by_cases hself : e.scanId = some id
  · cases h with
    | start scan userSub inserted hscan =>
      cases hself
      rw [enter_jobs_self] at hlive
      cases hlive
      have hnew : st.db.stored.scans.getScan scan.id = none :=
        congrArg ScanRecord.row (hk.unknown scan.id hscan (hfresh scan.id rfl)).2.1
      obtain ⟨row', hrow', hdescribes, -⟩ := getScan_insert userSub hnew
      rw [enter_db, HistoryDb.insert] at hrow
      split at hrow
      · cases hrow'.symm.trans hrow
        exact hdescribes
      · cases hnew.symm.trans hrow
    | advance k e hbefore hstep hplain =>
      cases hself
      rw [put_jobs_self] at hlive
      cases hlive
      rw [(scan_of_advance hstep).1]
      rw [put_db, getScan_updateStatus] at hrow
      split at hrow
      · exact hdescribed id _ hbefore row hrow
      · obtain ⟨old, hold, rfl⟩ := Option.map_eq_some_iff.mp hrow
        exact (hdescribed id _ hbefore old hold).withStatus ..
    | returns k results hbefore hstep =>
      cases hself
      rw [put_jobs_self] at hlive
      cases hlive
      exact (scan_of_advance hstep).1 ▸ hdescribed id _ hbefore row hrow
    | savePorts k calls hbefore hstep =>
      cases hself
      rw [put_jobs_self] at hlive
      cases hlive
      exact (scan_of_advance hstep).1 ▸ hdescribed id _ hbefore row hrow
    | saveFindings k calls hbefore hstep =>
      cases hself
      rw [put_jobs_self] at hlive
      cases hlive
      exact (scan_of_advance hstep).1 ▸ hdescribed id _ hbefore row hrow
    | restart opened => cases hself
  · obtain ⟨hjobs, hrecord⟩ := h.leaves hk.plainIds (h.plainIds hk.plainIds id live hlive) hself hrestart
    exact hdescribed id live (hjobs ▸ hlive) row ((congrArg ScanRecord.row hrecord.stored :).symm.trans hrow)

/-- A step with new identifiers keeps what is known. -/
theorem Steps.known (h : st.Steps e st') (hk : Known events st)
    (hfresh : ∀ id, e.Starts id → ∀ a ∈ events, ¬a.Starts id) : Known (events ++ [e]) st' where
  plainIds := h.plainIds hk.plainIds
  unknown id hid hnever := by
    have hbefore : ∀ a ∈ events, ¬a.Starts id := fun a ha => hnever a (List.mem_append_left _ ha)
    have hnow : ¬e.Starts id := hnever e (by simp)
    obtain ⟨hjobs, hstored, hdurable⟩ := hk.unknown id hid hbefore
    refine ⟨h.gone hjobs hnow, ?_⟩
    by_cases hrestart : e.scanId = none
    · cases h with
      | restart opened => exact ⟨hdurable, hdurable⟩
      | _ => cases hrestart
    · have hself : e.scanId ≠ some id := by
        intro hself
        obtain ⟨live, hlive⟩ := h.live_before hself hnow
        rw [hjobs] at hlive
        cases hlive
      obtain ⟨-, hrecord⟩ := h.leaves hk.plainIds hid hself hrestart
      exact ⟨hrecord.stored.trans hstored, hrecord.durable.trans hdurable⟩
  gone id hid hgone := by
    by_cases hrestart : e.scanId = none
    · cases h with
      | restart opened => rfl
      | _ => cases hrestart
    · have hself : e.scanId ≠ some id := by
        intro hself
        obtain ⟨live, hlive⟩ := h.live_after hself
        rw [hgone] at hlive
        cases hlive
      obtain ⟨hjobs, hrecord⟩ := h.leaves hk.plainIds hid hself hrestart
      rw [hrecord.stored, hrecord.durable]
      exact hk.gone id hid (hjobs ▸ hgone)
  described id live hlive row hrow := h.described hk hfresh hlive hrow

/-- The last event of a fresh history draws a new identifier. -/
theorem Fresh.last {events : List HistoryEvent} {e : HistoryEvent} (h : Fresh (events ++ [e])) (id : Bytes)
    (he : e.Starts id) : ∀ a ∈ events, ¬a.Starts id :=
  fun a ha hstarts => (List.pairwise_append.mp h).2.2 a ha e (List.mem_singleton_self e) id hstarts he

/-- The beginning of a fresh history is fresh. -/
theorem Fresh.init {events : List HistoryEvent} {e : HistoryEvent} (h : Fresh (events ++ [e])) : Fresh events :=
  (List.pairwise_append.mp h).1

/-- It is known in every run with new identifiers. -/
theorem known_run {opened : Bool} (run : Run step (initial opened) events st) (fresh : Fresh events) :
    Known events st := by
  induction run with
  | nil => exact known_initial opened
  | next run taken ih => exact (steps_of_step taken).known (ih fresh.init) fresh.last

/-- All calls of a save work. -/
def workingCalls : SavePattern := ⟨⟨none, true, none, none⟩, fun _ => true⟩

/-- A scan of one host is started and begins. -/
def sampleBeginning : List HistoryEvent :=
  [.start ⟨[97], [98], [98], 1, 1024, 7⟩ [] true, .advance [97] .storeRunning, .advance [97] (.updateRunning true)]

/-- What it finds: an open port with an old algorithm. -/
def sampleResults : ScanResults where
  ports := [{ number := 22, protocol := .tcp, state := .opened }]
  findings := [{ title := str "SHA-1", portNumber := 22, evidence := str "kex", evidenceData := { value := str "sha1" },
                 references := [str "a", str "b"] }]

/-- It returns that and ends. -/
def sampleHistory : List HistoryEvent :=
  sampleBeginning ++
    [.returns [97] sampleResults, .advance [97] .storeDone,
      .advance [97] (.stamp 9), .advance [97] (.updateDone true), .savePorts [97] workingCalls,
      .saveFindings [97] workingCalls]

/-- One identifier is drawn. -/
theorem fresh_sampleHistory : Fresh sampleHistory := by
  show List.Pairwise _ [_, _, _, _, _, _, _, _, _]
  refine .cons (fun b hb id _ hstart => ?_) ?_
  · simp only [List.mem_cons, List.not_mem_nil, or_false] at hb
    rcases hb with rfl | rfl | rfl | rfl | rfl | rfl | rfl | rfl <;> exact hstart
  · refine List.pairwise_of_forall_mem_list fun a ha b _ id hstart _ => ?_
    simp only [List.mem_cons, List.not_mem_nil, or_false] at ha
    rcases ha with rfl | rfl | rfl | rfl | rfl | rfl | rfl | rfl <;> exact hstart

/-- The process has its database. -/
theorem sampleHistory_opened : (sampleHistory.foldlM step (initial true)).any (fun st => st.opened) = true := rfl

/-- All calls of the sample work. -/
theorem persists_sampleHistory (id : Bytes) : ∀ e ∈ sampleHistory, e.Persists id := by
  have hcalls : workingCalls.Faithful := ⟨rfl, rfl, rfl, fun _ => rfl⟩
  intro e he
  simp only [sampleHistory, sampleBeginning, List.cons_append, List.nil_append, List.mem_cons, List.not_mem_nil,
    or_false] at he
  rcases he with rfl | rfl | rfl | rfl | rfl | rfl | rfl | rfl | rfl
  · exact fun _ => rfl
  · trivial
  · trivial
  · trivial
  · trivial
  · trivial
  · exact fun _ => rfl
  · exact fun _ => hcalls
  · exact fun _ => hcalls

/-- No row, nor one that a rollback would return to, says that the scan is done. -/
structure NotDone (db : HistoryDb) (id : Bytes) : Prop where
  stored : ∀ row, db.stored.scans.getScan id = some row → row.status ≠ str "done"
  durable : ∀ row, db.durable.scans.getScan id = some row → row.status ≠ str "done"

/-- The scan is nowhere said to be done. -/
structure Unfinished (st : HistoryServer) (id : Bytes) : Prop where
  db : NotDone st.db id
  live : ∀ live, st.jobs id = some live → ¬live.stage.BehindScan ∧ live.job.status ≠ .done

/-- A worker in front of its scan comes behind it only by the return of the scan. -/
theorem beforeScan_of_steps {opened : Bool} {worker worker' : JobWorker} {e : WorkerEvent}
    (h : worker.Steps opened e worker') (hstage : ¬worker.stage.BehindScan) (hstatus : worker.job.status ≠ .done)
    (he : e ≠ .scanReturns) : ¬worker'.stage.BehindScan ∧ worker'.job.status ≠ .done := by
  have hbehind {stage : WorkerStage} (h : worker.stage = stage) (hscan : stage.BehindScan) : False := hstage (h ▸ hscan)
  cases h with
  | storeRunning stage => cases opened <;> exact ⟨id, nofun⟩
  | updateRunning effective stage => exact ⟨id, hstatus⟩
  | onPortOpen port findings stage => exact ⟨hstage, hstatus⟩
  | probed stage => exact ⟨hstage, hstatus⟩
  | scanReturns stage => exact absurd rfl he
  | scanThrows what stage => exact ⟨id, hstatus⟩
  | storeDone stage => exact (hbehind stage trivial).elim
  | stamp now stage => exact (hbehind stage trivial).elim
  | updateDone effective stage => exact (hbehind stage trivial).elim
  | savePorts calls stage => exact (hbehind stage trivial).elim
  | saveFindings calls stage => exact (hbehind stage trivial).elim
  | recordError what stage => exact ⟨id, hstatus⟩
  | storeError what stage => exact ⟨id, nofun⟩
  | stampError now what stage => cases opened <;> exact ⟨id, hstatus⟩
  | updateError effective what stage => exact ⟨id, hstatus⟩

/-- A statement on the table of scans is seen by the next process, or belongs to a transaction. -/
theorem durable_changeScans (db : HistoryDb) (f : ScanTable → ScanTable) :
    (db.changeScans f).durable = (db.changeScans f).stored ∨ (db.changeScans f).durable = db.durable := by
  unfold HistoryDb.durable HistoryDb.changeScans
  cases db.transaction with
  | none => exact .inl rfl
  | some tables => exact .inr rfl

/-- The status of a row that has been inserted or written. -/
theorem status_upsertScan {scans : ScanTable} {r row : ScanRow} (h : (scans.upsertScan r).getScan r.id = some row) :
    row.status = beforeNul r.status := by
  unfold ScanTable.upsertScan ScanTable.getScan at h
  cases hrow : scans.find (beforeNul r.id) with
  | none =>
    rw [hrow, KeyedTable.find_put, if_pos rfl] at h
    cases h
    rfl
  | some old =>
    have hold : old.id = beforeNul r.id := KeyedTable.key_of_find hrow
    have hid : (old.withStatus r.status r.completedAt r.scannedPorts r.error).id = beforeNul r.id := hold
    rw [hrow, KeyedTable.find_put, if_pos hid] at h
    cases h
    rfl

/-- A statement that writes another status. -/
theorem NotDone.changeScans {db : HistoryDb} (h : NotDone db id) {f : ScanTable → ScanTable}
    (hf : ∀ row, (f db.stored.scans).getScan id = some row → row.status ≠ str "done") :
    NotDone (db.changeScans f) id := by
  refine ⟨hf, ?_⟩
  rcases durable_changeScans db f with hdurable | hdurable
  · rw [hdurable]
    exact hf
  · rw [hdurable]
    exact h.durable

/-- The row of a new scan does not say that it is done. -/
theorem NotDone.insert {db : HistoryDb} {scan : NewScan} (h : NotDone db scan.id) (effective : Bool) (userSub : Bytes) :
    NotDone (db.insert effective (scan.row userSub)) scan.id := by
  have hqueued : beforeNul (str "queued") ≠ str "done" := by decide
  unfold HistoryDb.insert
  split
  · refine h.changeScans fun row hrow => ?_
    rw [status_upsertScan hrow]
    exact hqueued
  · exact h

/-- A worker in front of the end of its scan writes other statuses. -/
theorem NotDone.updateStatus {db : HistoryDb} (h : NotDone db id) {row : Option JobRow}
    (hrow : ∀ r ∈ row, r.status ≠ .done) : NotDone (db.updateStatus id row) id := by
  cases row with
  | none => exact h
  | some r =>
    show NotDone (db.changeScans (·.updateScanStatus id _ _ _ _)) id
    refine h.changeScans fun row' hrow' => ?_
    have hfind := (ScanTable.find_updateScanStatus db.stored.scans id r.status.text r.completedAt r.scannedPorts r.error
      (beforeNul id)).symm.trans hrow'
    rw [if_pos rfl] at hfind
    obtain ⟨old, -, rfl⟩ := Option.map_eq_some_iff.mp hfind
    have hstatus := hrow r rfl
    show beforeNul r.status.text ≠ str "done"
    cases hr : r.status with
    | done => exact absurd hr hstatus
    | queued | running | error => decide

/-- A step other than the return of the scan leaves it unfinished. -/
theorem Steps.unfinished (h : st.Steps e st') (hids : st.PlainIds) (hid : NulFree id) (hu : Unfinished st id)
    (he : ∀ results, e ≠ .returns id results) : Unfinished st' id := by
  by_cases hrestart : e.scanId = none
  · cases h with
    | restart opened => exact ⟨⟨hu.db.durable, hu.db.durable⟩, fun live hlive => by cases hlive⟩
    | _ => cases hrestart
  by_cases hself : e.scanId = some id
  · cases h with
    | start scan userSub inserted hscan =>
      cases hself
      refine ⟨hu.db.insert _ userSub, fun live hlive => ?_⟩
      rw [enter_jobs_self] at hlive
      cases hlive
      exact ⟨not_false, nofun⟩
    | @advance k e live live' hlive hstep hplain =>
      cases hself
      obtain ⟨hstage, hstatus⟩ := hu.live _ hlive
      obtain ⟨worker, hworker, hjob, hstage'⟩ := steps_of_advance hstep
      have hreturns : e ≠ .scanReturns := by
        rintro rfl
        cases hplain
      have hafter := beforeScan_of_steps hworker hstage hstatus hreturns
      refine ⟨hu.db.updateStatus fun row hrow => ?_, fun live hlive' => ?_⟩
      · rcases statusUpdate_of_advance hstep hrow with ⟨-, hrunning⟩ | ⟨hstamped, -⟩ | herror
        · rw [hrunning]
          nofun
        · rw [hstamped] at hstage
          exact absurd trivial hstage
        · rw [herror]
          nofun
      · rw [put_jobs_self] at hlive'
        cases hlive'
        rwa [hjob, hstage']
    | returns k results hlive hstep =>
      cases hself
      exact absurd rfl (he results)
    | savePorts k calls hlive hstep =>
      cases hself
      obtain ⟨hstage, -⟩ := hu.live _ hlive
      rw [stage_of_savePorts hstep] at hstage
      exact absurd trivial hstage
    | saveFindings k calls hlive hstep =>
      cases hself
      obtain ⟨hstage, -⟩ := hu.live _ hlive
      rw [stage_of_saveFindings hstep] at hstage
      exact absurd trivial hstage
    | restart opened => cases hself
  · obtain ⟨hjobs, hrecord⟩ := h.leaves hids hid hself hrestart
    refine ⟨⟨fun row hrow => hu.db.stored row ?_, fun row hrow => hu.db.durable row ?_⟩,
      fun live hlive => hu.live live (hjobs ▸ hlive)⟩
    · exact (congrArg ScanRecord.row hrecord.stored :).symm.trans hrow
    · exact (congrArg ScanRecord.row hrecord.durable :).symm.trans hrow

/-- The first process knows of no scan. -/
theorem unfinished_run {opened : Bool} (run : Run step (initial opened) events st) (hid : NulFree id)
    (hnever : ∀ results, .returns id results ∉ events) : st.PlainIds ∧ Unfinished st id := by
  induction run with
  | nil =>
    refine ⟨fun k live h => ?_, ⟨fun row h => ?_, fun row h => ?_⟩, fun live h => ?_⟩ <;> cases h
  | @next trace mid st' e run taken ih =>
    obtain ⟨hids, hu⟩ := ih fun results hmem => hnever results (List.mem_append_left _ hmem)
    have hsteps := steps_of_step taken
    exact ⟨hsteps.plainIds hids, hsteps.unfinished hids hid hu fun results he => hnever results (by simp [he])⟩

/-- A scan that has not returned is shown as done nowhere: not on its page, not in the list, and not by any later
process. -/
theorem not_done_before_return {opened : Bool} (run : Run step (initial opened) events st) (hid : NulFree id)
    (hnever : ∀ results, .returns id results ∉ events) :
    (∀ answer, st.getScan id = some answer → answer.status ≠ str "done") ∧
      (∀ entries, st.ListsScans entries → ∀ entry ∈ entries, entry.id = id → entry.status ≠ str "done") ∧
      ∀ answer, storedAnswer st.db.durable id = some answer → answer.status ≠ str "done" := by
  obtain ⟨-, hu⟩ := unfinished_run run hid hnever
  have htext (s : JobStatus) (hs : s ≠ .done) : s.text ≠ str "done" := by
    cases s with
    | done => exact absurd rfl hs
    | queued | running | error => decide
  have hstored {tables : Tables} (hrows : ∀ row, tables.scans.getScan id = some row → row.status ≠ str "done")
      (answer : ScanAnswer) (h : storedAnswer tables id = some answer) : answer.status ≠ str "done" := by
    obtain ⟨row, hrow, rfl⟩ := Option.map_eq_some_iff.mp h
    exact hrows row hrow
  refine ⟨fun answer hanswer => ?_, ?_, hstored hu.db.durable⟩
  · unfold getScan at hanswer
    cases hlive : st.jobs id with
    | some live =>
      rw [hlive] at hanswer
      cases hanswer
      exact htext _ (hu.live live hlive).2
    | none =>
      rw [hlive] at hanswer
      dsimp only at hanswer
      split at hanswer
      · exact hstored hu.db.stored answer hanswer
      · cases hanswer
  · rintro _ ⟨rows, hrows, rfl⟩ entry hentry hk
    obtain ⟨row, hrow, rfl⟩ := List.mem_map.mp hentry
    have hrowId : row.id = id := hk
    cases hlive : st.jobs id with
    | some live =>
      have hstatus : (st.entryOf row).status = live.job.status.text := by simp only [entryOf, hrowId, hlive]
      rw [hstatus]
      exact htext _ (hu.live live hlive).2
    | none =>
      have hstatus : (st.entryOf row).status = row.status := by simp only [entryOf, hrowId, hlive]
      rw [hstatus]
      split at hrows
      · obtain ⟨all, hperm, -, rfl⟩ := hrows
        have hmem : row ∈ st.db.stored.scans.rows := hperm.subset (List.mem_of_mem_take hrow)
        have hfind := KeyedTable.mem_rows.mp hmem
        rw [hrowId, ← beforeNul_eq_self.mpr hid] at hfind
        exact hu.db.stored row hfind
      · rw [hrows] at hrow
        cases hrow

/-- A scan that is still running. -/
theorem not_done_before_return_sample : ∃ st, Run step (initial true) sampleBeginning st ∧
    ∀ answer, st.getScan [97] = some answer → answer.status ≠ str "done" := by
  have hruns : (sampleBeginning.foldlM step (initial true)).any (fun _ => true) = true := rfl
  obtain ⟨st, run, -⟩ := Run.exists_of_any hruns
  have hnever (results : ScanResults) : .returns [97] results ∉ sampleBeginning := fun h => by
    simp [sampleBeginning] at h
  exact ⟨st, run, (not_done_before_return run (by decide) hnever).1⟩

/-- The row says that the scan is done, and when. -/
def DoneRow (db : HistoryDb) (id : Bytes) (live : LiveScan) : Prop :=
  ∃ row, (db.stored.record id).row = some row ∧ row.status = str "done" ∧ row.completedAt = live.job.completedAt ∧
    row.error = []

/-- How the record of a scan follows its worker, in a process with a database and as long as the calls for this
scan work. -/
structure Kept (db : HistoryDb) (id : Bytes) (live : LiveScan) : Prop where
  stage : JobWorker.StageStatus live.stage live.job.status
  row : ∃ row, (db.stored.record id).row = some row
  unsaved : live.stage.BeforeSaves → (db.stored.record id).ports = [] ∧ (db.stored.record id).findings = []
  persisting : live.stage = .savingPorts ∨ live.stage = .savingFindings → DoneRow db id live
  portsSaved : live.stage = .savingFindings → OrderlyResults live.results.ports live.results.findings →
    (db.stored.record id).ports = live.results.ports.map (portRow id) ∧ (db.stored.record id).findings = []
  finished : live.stage = .finished → live.job.status = .done →
    OrderlyResults live.results.ports live.results.findings → DoneRow db id live ∧
      (db.stored.record id).ports = live.results.ports.map (portRow id) ∧
      (db.stored.record id).findings = findingRows id live.results.findings ∧
      db.stored.record id = db.durable.record id

section Kept

variable {live live' : LiveScan} {db db' : HistoryDb}

/-- A stage at which nothing is being saved and the scan is not done. -/
theorem kept_of_stage (hstage : JobWorker.StageStatus live'.stage live'.job.status)
    (hrow : ∃ row, (db'.stored.record id).row = some row)
    (hunsaved : live'.stage.BeforeSaves → (db'.stored.record id).ports = [] ∧ (db'.stored.record id).findings = [])
    (hports : live'.stage ≠ .savingPorts) (hfindings : live'.stage ≠ .savingFindings)
    (hdone : live'.stage = .finished → live'.job.status ≠ .done) : Kept db' id live' where
  stage := hstage
  row := hrow
  unsaved := hunsaved
  persisting h := (h.elim hports hfindings).elim
  portsSaved h := (hfindings h).elim
  finished h hstatus := (hdone h hstatus).elim

/-- What a worker writes leaves the results alone, and its row stays. -/
theorem record_updateStatus (db : HistoryDb) (id : Bytes) (row : Option JobRow) :
    ((db.updateStatus id row).stored.record id).ports = (db.stored.record id).ports ∧
      ((db.updateStatus id row).stored.record id).findings = (db.stored.record id).findings ∧
      ((∃ row, (db.stored.record id).row = some row) →
        ∃ row', ((db.updateStatus id row).stored.record id).row = some row') := by
  refine ⟨by cases row <;> rfl, by cases row <;> rfl, ?_⟩
  rintro ⟨old, hold⟩
  have hget : db.stored.scans.getScan id = some old := hold
  show ∃ row', (db.updateStatus id row).stored.scans.getScan id = some row'
  rw [getScan_updateStatus]
  cases row with
  | none => exact ⟨old, hget⟩
  | some row => exact ⟨_, congrArg (Option.map _) hget⟩

/-- The row of a scan that is written as done. -/
theorem doneRow_updateStatus (hrow : ∃ row, (db.stored.record id).row = some row) (completedAt : ℤ) (scanned : ℕ)
    (hlive : live.job.completedAt = completedAt) :
    DoneRow (db.updateStatus id (some ⟨.done, completedAt, scanned, []⟩)) id live := by
  obtain ⟨old, hold⟩ := hrow
  have hget : db.stored.scans.getScan id = some old := hold
  have hdone : beforeNul (str "done") = str "done" := by decide
  refine ⟨old.withStatus (str "done") completedAt scanned [], ?_, hdone, hlive.symm, rfl⟩
  · show (db.updateStatus id _).stored.scans.getScan id = _
    rw [getScan_updateStatus]
    exact congrArg (Option.map _) hget

/-- An update of the status that persists keeps the record up to date. -/
theorem Kept.advance (hk : Kept db id live) {e : WorkerEvent} (hstep : live.advance true e = some live')
    (hplain : e.isPlain = true) (hpersists : (HistoryEvent.advance id e).Persists id) :
    Kept (db.updateStatus id (live.statusUpdate e)) id live' := by
  obtain ⟨hports, hfindings, hrow⟩ := record_updateStatus db id (live.statusUpdate e)
  obtain ⟨worker, hworker, hjob, hstage⟩ := steps_of_advance hstep
  have hstatus := hworker.stageStatus hk.stage
  rw [← hjob, ← hstage] at hstatus
  -- a step between two stages in front of the saves
  have hunsaved (hbefore : live.stage.BeforeSaves) (_ : live'.stage.BeforeSaves) :
      ((db.updateStatus id (live.statusUpdate e)).stored.record id).ports = [] ∧
        ((db.updateStatus id (live.statusUpdate e)).stored.record id).findings = [] := by
    rw [hports, hfindings]
    exact hk.unsaved hbefore
  have hold : live.stage = (⟨live.job, live.stage, none⟩ : JobWorker).stage := rfl
  have hother (stage : WorkerStage) (h : live'.stage = stage) (hports : stage ≠ .savingPorts)
      (hfindings : stage ≠ .savingFindings) (hfinished : stage = .finished → live'.job.status ≠ .done)
      (hback : stage.BeforeSaves → live.stage.BeforeSaves) :
      Kept (db.updateStatus id (live.statusUpdate e)) id live' := by
    subst h
    exact kept_of_stage hstatus (hrow hk.row) (fun hbefore => hunsaved (hback hbefore) hbefore) hports hfindings
      hfinished
  cases hworker with
  | storeRunning stage =>
    exact hother .started hstage (by decide) (by decide) (fun h => by cases h) fun _ => hold ▸ stage ▸ trivial
  | updateRunning effective stage =>
    exact hother .scanning hstage (by decide) (by decide) (fun h => by cases h) fun _ => hold ▸ stage ▸ trivial
  | onPortOpen port findings stage =>
    exact hother .scanning (hstage.trans stage) (by decide) (by decide) (fun h => by cases h) fun _ =>
      hold ▸ stage ▸ trivial
  | probed stage =>
    exact hother .scanning (hstage.trans stage) (by decide) (by decide) (fun h => by cases h) fun _ =>
      hold ▸ stage ▸ trivial
  | scanReturns stage => cases hplain
  | scanThrows what stage =>
    exact hother (.failed what) hstage (by simp) (by simp) (fun h => by cases h) fun h => h.elim
  | storeDone stage =>
    exact hother .published hstage (by decide) (by decide) (fun h => by cases h) fun _ => hold ▸ stage ▸ trivial
  | stamp now stage =>
    exact hother .stamped hstage (by decide) (by decide) (fun h => by cases h) fun _ => hold ▸ stage ▸ trivial
  | updateDone effective stage =>
    have hnow : live'.stage = .savingPorts := hstage
    obtain rfl : effective = true := hpersists rfl
    exact {
      stage := hstatus
      row := hrow hk.row
      unsaved := hunsaved (hold ▸ stage ▸ trivial)
      persisting := fun _ => doneRow_updateStatus hk.row _ _ (congrArg ScanJob.completedAt hjob)
      portsSaved := fun h => by cases hnow.symm.trans h
      finished := fun h => by cases hnow.symm.trans h }
  | savePorts calls stage => cases hplain
  | saveFindings calls stage => cases hplain
  | recordError what stage =>
    exact hother (.recorded what) hstage (by simp) (by simp) (fun h => by cases h) fun h => h.elim
  | storeError what stage =>
    exact hother (.errorPublished what) hstage (by simp) (by simp) (fun h => by cases h) fun h => h.elim
  | stampError now what stage =>
    exact hother (.errorStamped what) hstage (by simp) (by simp) (fun h => by cases h) fun h => h.elim
  | updateError effective what stage =>
    refine hother .finished hstage (by decide) (by decide) (fun _ hdone => ?_) fun h => h.elim
    have herror : live.job.status = .error := by
      have := hk.stage
      rw [hold, stage] at this
      exact this
    rw [hjob] at hdone
    cases herror.symm.trans hdone

/-- A save under an open transaction sends the worker to its handler. -/
theorem callsSeen_of_open (h : db.transaction ≠ none) (calls : SaveCalls) :
    ∃ what, saveRows (db.connection.callsSeen calls) = .error what := by
  have hopen : db.connection.transaction.isSome = true := by
    rw [HistoryDb.connection, Option.isSome_map]
    exact Option.isSome_iff_ne_none.mpr h
  refine ⟨str "db exec failed: " ++ str "cannot start a transaction within a transaction", ?_⟩
  simp only [saveRows, Connection.callsSeen, hopen, if_true]
  rfl

/-- Outside of a transaction the save works. -/
theorem callsSeen_of_closed (h : db.transaction = none) {calls : SavePattern} (hcalls : calls.Faithful) :
    saveRows (db.connection.callsSeen calls.toSaveCalls) = .ok () := by
  obtain ⟨hbegin, hprepares, hcommit, -⟩ := hcalls
  simp only [saveRows, Connection.callsSeen, HistoryDb.connection, h, Option.map_none, Option.isSome_none, hbegin,
    hprepares, hcommit]
  rfl

/-- A worker in its handler. -/
theorem kept_failed (hk : Kept db id live) {what : Bytes} (hstatus : JobWorker.StageStatus live'.stage live'.job.status)
    (hstage : live'.stage = .failed what) : Kept db id live' := by
  refine kept_of_stage hstatus hk.row ?_ ?_ ?_ ?_ <;> rw [hstage]
  · exact fun h => h.elim
  · simp
  · simp
  · exact fun h => by cases h

/-- A save of the ports that works keeps the record up to date. -/
theorem Kept.savePorts (hk : Kept db id live) {calls : SavePattern} (hcalls : calls.Faithful)
    (hstep : live.advance true (.savePorts (db.connection.callsSeen calls.toSaveCalls)) = some live') :
    Kept (db.afterSave (ZeroTrust.savePorts db.connection id live.results.ports calls).2) id live' := by
  have hstage := stage_of_savePorts hstep
  obtain ⟨hscan, hresults⟩ := scan_of_advance hstep
  obtain ⟨worker, hworker, hjob, hstage'⟩ := steps_of_advance hstep
  have hstatus := hworker.stageStatus hk.stage
  rw [← hjob, ← hstage'] at hstatus
  have hafter : worker = JobWorker.afterSave ⟨live.job, live.stage, none⟩ (db.connection.callsSeen calls.toSaveCalls)
      .savingFindings := by
    cases hworker with
    | savePorts calls stage => rfl
  have hsame : live'.job = live.job := by rw [hjob, hafter, JobWorker.job_afterSave]
  by_cases hopen : db.transaction = none
  · have hnow : live'.stage = .savingFindings := by
      rw [hstage', hafter, JobWorker.afterSave, callsSeen_of_closed hopen hcalls]
    obtain ⟨hports, hfindings⟩ := hk.unsaved (by rw [hstage]; trivial)
    exact {
      stage := hstatus
      row := hk.row
      unsaved := fun h => (hnow ▸ h : WorkerStage.BeforeSaves .savingFindings).elim
      persisting := fun _ => by
        obtain ⟨row, hrow, hdone, hcompleted, herror⟩ := hk.persisting (.inl hstage)
        exact ⟨row, hrow, hdone, by rw [hcompleted, hsame], herror⟩
      portsSaved := fun _ horderly => by
        rw [hresults] at horderly ⊢
        rw [HistoryDb.record_savePorts hopen hcalls hports horderly.ports]
        exact ⟨rfl, hfindings⟩
      finished := fun h => by cases hnow.symm.trans h }
  · obtain ⟨what, hwhat⟩ := callsSeen_of_open hopen calls.toSaveCalls
    have hnow : live'.stage = .failed what := by
      rw [hstage', hafter, JobWorker.afterSave, hwhat]
    rw [ZeroTrust.savePorts, HistoryDb.afterSave_of_open hopen]
    exact kept_failed hk hstatus hnow

/-- So does a save of the findings. -/
theorem Kept.saveFindings (hk : Kept db id live) {calls : SavePattern} (hcalls : calls.Faithful)
    (hstep : live.advance true (.saveFindings (db.connection.callsSeen calls.toSaveCalls)) = some live') :
    Kept (db.afterSave (ZeroTrust.saveFindings db.connection id live.results.findings calls).2) id live' := by
  have hstage := stage_of_saveFindings hstep
  obtain ⟨hscan, hresults⟩ := scan_of_advance hstep
  obtain ⟨worker, hworker, hjob, hstage'⟩ := steps_of_advance hstep
  have hstatus := hworker.stageStatus hk.stage
  rw [← hjob, ← hstage'] at hstatus
  have hafter : worker = JobWorker.afterSave ⟨live.job, live.stage, none⟩ (db.connection.callsSeen calls.toSaveCalls)
      .finished := by
    cases hworker with
    | saveFindings calls stage => rfl
  have hsame : live'.job = live.job := by rw [hjob, hafter, JobWorker.job_afterSave]
  by_cases hopen : db.transaction = none
  · have hnow : live'.stage = .finished := by
      rw [hstage', hafter, JobWorker.afterSave, callsSeen_of_closed hopen hcalls]
    exact {
      stage := hstatus
      row := hk.row
      unsaved := fun h => (hnow ▸ h : WorkerStage.BeforeSaves .finished).elim
      persisting := fun h => by rcases h with h | h <;> cases hnow.symm.trans h
      portsSaved := fun h => by cases hnow.symm.trans h
      finished := fun _ _ horderly => by
        rw [hresults] at horderly ⊢
        obtain ⟨hports, hfindings⟩ := hk.portsSaved hstage horderly
        obtain ⟨row, hrow, hdone, hcompleted, herror⟩ := hk.persisting (.inr hstage)
        refine ⟨⟨row, hrow, hdone, by rw [hcompleted, hsame], herror⟩, ?_, ?_, ?_⟩
        · rw [HistoryDb.record_saveFindings hopen hcalls hfindings horderly.findings]
          exact hports
        · rw [HistoryDb.record_saveFindings hopen hcalls hfindings horderly.findings]
        · rw [ZeroTrust.saveFindings, HistoryDb.afterSave_faithful hopen hcalls]
          rfl }
  · obtain ⟨what, hwhat⟩ := callsSeen_of_open hopen calls.toSaveCalls
    have hnow : live'.stage = .failed what := by
      rw [hstage', hafter, JobWorker.afterSave, hwhat]
    rw [ZeroTrust.saveFindings, HistoryDb.afterSave_of_open hopen]
    exact kept_failed hk hstatus hnow

/-- Other scans do not matter. -/
theorem Kept.of_sameRecord (hk : Kept db id live) (h : HistoryDb.SameRecord db db' id) : Kept db' id live where
  stage := hk.stage
  row := h.stored.symm ▸ hk.row
  unsaved := h.stored.symm ▸ hk.unsaved
  persisting hstage := by
    rw [DoneRow, h.stored]
    exact hk.persisting hstage
  portsSaved := h.stored.symm ▸ hk.portsSaved
  finished hstage hdone horderly := by
    rw [DoneRow, h.stored, h.durable]
    exact hk.finished hstage hdone horderly

/-- A new scan with a row in the database. -/
theorem kept_insert {scan : NewScan} (userSub : Bytes) (hnew : db.stored.record scan.id = .empty) :
    Kept (db.insert true (scan.row userSub)) scan.id { scan := scan } := by
  have hgone : db.stored.scans.getScan scan.id = none := congrArg ScanRecord.row hnew
  obtain ⟨row, hrow, -, -⟩ := getScan_insert userSub hgone
  refine kept_of_stage rfl ⟨row, hrow⟩ (fun _ => ?_) (fun h => by cases h) (fun h => by cases h) fun h => by cases h
  exact ⟨congrArg ScanRecord.ports hnew, congrArg ScanRecord.findings hnew⟩

/-- The return of the scan changes nothing in the database. -/
theorem Kept.returns (hk : Kept db id live) (hstep : live.advance true .scanReturns = some live')
    (results : ScanResults) : Kept db id { live' with results := results } := by
  obtain ⟨worker, hworker, hjob, hstage⟩ := steps_of_advance hstep
  have hstatus := hworker.stageStatus hk.stage
  rw [← hjob, ← hstage] at hstatus
  cases hworker with
  | scanReturns stage =>
    have hnow : live'.stage = .returned := hstage
    have hbefore : live.stage = .scanning := stage
    refine kept_of_stage hstatus hk.row (fun _ => hk.unsaved (by rw [hbefore]; trivial)) ?_ ?_ ?_
    · show live'.stage ≠ _
      rw [hnow]
      decide
    · show live'.stage ≠ _
      rw [hnow]
      decide
    · exact fun h => by cases hnow.symm.trans h

end Kept

/-- A step that persists keeps the record up to date. -/
theorem Steps.kept (h : st.Steps e st') (hk : Known events st)
    (hfresh : ∀ id, e.Starts id → ∀ a ∈ events, ¬a.Starts id) (hpersists : e.Persists id)
    (hkept : st.opened = true → ∀ live, st.jobs id = some live → Kept st.db id live) (hopened : st'.opened = true)
    {live : LiveScan} (hlive : st'.jobs id = some live) : Kept st'.db id live := by
  by_cases hrestart : e.scanId = none
  · cases h with
    | restart opened => cases hlive
    | _ => cases hrestart
  by_cases hself : e.scanId = some id
  · cases h with
    | start scan userSub inserted hscan =>
      cases hself
      rw [enter_jobs_self] at hlive
      cases hlive
      obtain rfl : inserted = true := hpersists rfl
      have hopened' : st.opened = true := hopened
      rw [enter_db, hopened']
      exact kept_insert userSub (hk.unknown scan.id hscan (hfresh scan.id rfl)).2.1
    | advance k e hbefore hstep hplain =>
      cases hself
      rw [put_jobs_self] at hlive
      cases hlive
      have hopened' : st.opened = true := hopened
      rw [hopened'] at hstep
      exact (hkept hopened' _ hbefore).advance hstep hplain hpersists
    | returns k results hbefore hstep =>
      cases hself
      rw [put_jobs_self] at hlive
      cases hlive
      have hopened' : st.opened = true := hopened
      rw [hopened'] at hstep
      exact (hkept hopened' _ hbefore).returns hstep results
    | savePorts k calls hbefore hstep =>
      cases hself
      rw [put_jobs_self] at hlive
      cases hlive
      have hopened' : st.opened = true := hopened
      rw [hopened'] at hstep
      exact (hkept hopened' _ hbefore).savePorts (hpersists rfl) hstep
    | saveFindings k calls hbefore hstep =>
      cases hself
      rw [put_jobs_self] at hlive
      cases hlive
      have hopened' : st.opened = true := hopened
      rw [hopened'] at hstep
      exact (hkept hopened' _ hbefore).saveFindings (hpersists rfl) hstep
    | restart opened => cases hself
  · obtain ⟨hjobs, hrecord⟩ := h.leaves hk.plainIds (h.plainIds hk.plainIds id live hlive) hself hrestart
    have hopened' : st.opened = true := by
      cases h with
      | restart opened => exact absurd rfl hrestart
      | _ => exact hopened
    exact (hkept hopened' live (hjobs ▸ hlive)).of_sameRecord hrecord

/-- The record is up to date in every run whose calls for the scan work. -/
theorem kept_run {opened : Bool} (run : Run step (initial opened) events st) (fresh : Fresh events)
    (hpersists : ∀ e ∈ events, e.Persists id) (hopened : st.opened = true) {live : LiveScan}
    (hlive : st.jobs id = some live) : Kept st.db id live := by
  induction run generalizing live with
  | nil => cases hlive
  | @next trace mid st' e run taken ih =>
    refine (steps_of_step taken).kept (known_run run fresh.init) fresh.last (hpersists e (by simp)) ?_ hopened hlive
    exact fun hopened live hlive =>
      ih fresh.init (fun a ha => hpersists a (List.mem_append_left _ ha)) hopened hlive

/-- The answer of a later process for a scan that has ended as done. -/
def doneAnswer (live : LiveScan) : ScanAnswer where
  target := beforeNul live.scan.target
  portStart := live.scan.portStart
  portEnd := live.scan.portEnd
  status := str "done"
  startedAt := live.scan.startedAt
  completedAt := live.job.completedAt
  error := []
  ports := live.results.ports.map Port.reloaded
  findings := live.results.findings.map Finding.reloaded

/-- The results of a scan that ends as done, and whose own SQLite calls work, are shown by every later process with
a database, whatever other scans, their failing calls and restarts do in between. -/
theorem finished_scan_survives {opened : Bool} (run : Run step (initial opened) events st) (fresh : Fresh events)
    (hpersists : ∀ e ∈ events, e.Persists id) (hopened : st.opened = true) {live : LiveScan}
    (hlive : st.jobs id = some live) (hfinished : live.stage = .finished) (hdone : live.job.status = .done)
    (horderly : OrderlyResults live.results.ports live.results.findings) {after : List HistoryEvent}
    (later : Run step st after st') (hstart : ∀ e ∈ after, ¬e.Starts id) (hopened' : st'.opened = true)
    (hgone : st'.jobs id = none) : st'.getScan id = some (doneAnswer live) := by
  have hknown := known_run run fresh
  obtain ⟨⟨row, hrow, hrowDone, hcompleted, herror⟩, hports, hfindings, hdurable⟩ :=
    (kept_run run fresh hpersists hopened hlive).finished hfinished hdone horderly
  have hsettled : st.Settled id := ⟨fun live' hlive' => by cases hlive.symm.trans hlive'; exact hfinished, hdurable⟩
  obtain ⟨-, hsame, -⟩ := settled_run later hknown.plainIds (hknown.plainIds id live hlive) hsettled hstart
  have hdescribes := hknown.described id live hlive row hrow
  have hget : st.db.stored.scans.getScan id = some row := hrow
  unfold getScan
  rw [hgone]
  dsimp only
  rw [if_pos hopened', storedAnswer_of_record hsame, storedAnswer, hget, Option.map_some,
    loadPorts_of_rows hports horderly.ports, loadFindings_of_rows hfindings horderly.findings, hrowDone, hcompleted,
    herror, hdescribes.target, hdescribes.portStart, hdescribes.portEnd, hdescribes.startedAt]
  rfl

/-- Behind a restart the value of the evidence is the stored evidence. -/
theorem finished_scan_survives_sample : ∃ st, Run step (initial true) (sampleHistory ++ [.restart true]) st ∧
    (st.getScan [97]).map (fun answer => (answer.ports, answer.findings)) =
      some ([{ number := 22, protocol := .tcp, state := .opened }],
        [{ title := str "SHA-1", portNumber := 22, evidence := str "kex", evidenceData := { value := str "kex" },
           references := [str "a", str "b"] }]) := by
  have hruns : (sampleHistory.foldlM step (initial true)).any (fun st => st.opened && (st.jobs [97]).any fun live =>
      live.stage == .finished && live.job.status == .done && live.results.findings == sampleResults.findings &&
        live.results.ports == sampleResults.ports) = true := by
    decide +kernel
  obtain ⟨st, run, hst⟩ := Run.exists_of_any hruns
  rw [Bool.and_eq_true, Option.any_eq_true] at hst
  obtain ⟨hopened, live, hlive, hst⟩ := hst
  simp only [Bool.and_eq_true, beq_iff_eq] at hst
  obtain ⟨⟨⟨hfinished, hdone⟩, hfindings⟩, hports⟩ := hst
  have later : Run step st [.restart true] { opened := true, db := st.db.reopen } := Run.iff_foldlM.mpr rfl
  have horderly : OrderlyResults live.results.ports live.results.findings := by
    rw [hports, hfindings]
    exact ⟨List.pairwise_singleton .., by decide⟩
  have hanswer := finished_scan_survives run fresh_sampleHistory (persists_sampleHistory [97]) hopened hlive hfinished
    hdone horderly later (by simp [HistoryEvent.Starts]) rfl rfl
  refine ⟨_, run.append later, ?_⟩
  have hshown : sampleResults.ports.map Port.reloaded = sampleResults.ports ∧
      sampleResults.findings.map Finding.reloaded =
        [{ title := str "SHA-1", portNumber := 22, evidence := str "kex", evidenceData := { value := str "kex" },
           references := [str "a", str "b"] }] := by
    decide +kernel
  rw [hanswer, Option.map_some, doneAnswer, hports, hfindings, hshown.1, hshown.2]
  rfl

/-- Identifiers and targets in the table are C strings. -/
def PlainRows (scans : ScanTable) : Prop := ∀ k row, scans.find k = some row → NulFree k ∧ NulFree row.target

/-- A new row is plain. -/
theorem plainRows_upsertScan {scans : ScanTable} (h : PlainRows scans) (r : ScanRow) :
    PlainRows (scans.upsertScan r) := by
  intro k row hrow
  by_cases hk : beforeNul r.id = k
  · subst hk
    refine ⟨nulFree_beforeNul r.id, ?_⟩
    cases hold : scans.find (beforeNul r.id) with
    | none =>
      rw [scans.find_upsertScan_self r hold] at hrow
      cases hrow
      exact nulFree_beforeNul r.target
    | some old =>
      have hold' : old.id = beforeNul r.id := KeyedTable.key_of_find hold
      have hid : (old.withStatus r.status r.completedAt r.scannedPorts r.error).id = beforeNul r.id := hold'
      unfold ScanTable.upsertScan at hrow
      rw [hold, KeyedTable.find_put, if_pos hid] at hrow
      cases hrow
      exact (h _ old hold).2
  · rw [scans.find_upsertScan r k hk] at hrow
    exact h k row hrow

/-- A row with a new status is. -/
theorem plainRows_updateScanStatus {scans : ScanTable} (h : PlainRows scans) (id status : Bytes)
    (completedAt scannedPorts : ℤ) (error : Bytes) :
    PlainRows (scans.updateScanStatus id status completedAt scannedPorts error) := by
  intro k row hrow
  rw [ScanTable.find_updateScanStatus] at hrow
  split at hrow
  · obtain ⟨old, hold, rfl⟩ := Option.map_eq_some_iff.mp hrow
    exact h k old hold
  · exact h k row hrow

/-- They are C strings in what is stored and in what a rollback returns to. -/
structure PlainTables (db : HistoryDb) : Prop where
  stored : PlainRows db.stored.scans
  durable : PlainRows db.durable.scans

/-- Plain rows in place of plain rows. -/
theorem PlainTables.changeScans {db : HistoryDb} (h : PlainTables db) {f : ScanTable → ScanTable}
    (hf : PlainRows (f db.stored.scans)) : PlainTables (db.changeScans f) := by
  refine ⟨hf, ?_⟩
  rcases durable_changeScans db f with hdurable | hdurable
  · rw [hdurable]
    exact hf
  · rw [hdurable]
    exact h.durable

/-- A save leaves the scans alone. -/
theorem PlainTables.afterSave {db : HistoryDb} (h : PlainTables db) (conn : Connection) :
    PlainTables (db.afterSave conn) := by
  refine ⟨h.stored, ?_⟩
  unfold HistoryDb.durable HistoryDb.afterSave
  cases conn.transaction with
  | none => exact h.stored
  | some results => exact h.durable

/-- A step keeps the tables plain. -/
theorem Steps.plainTables (h : st.Steps e st') (hp : PlainTables st.db) : PlainTables st'.db := by
  cases h with
  | start scan userSub inserted hscan =>
    rw [enter_db, HistoryDb.insert]
    split
    · exact hp.changeScans (plainRows_upsertScan hp.stored _)
    · exact hp
  | @advance k e live live' hlive hstep hplain =>
    rw [put_db]
    cases live.statusUpdate e with
    | none => exact hp
    | some row =>
      show PlainTables (st.db.changeScans (·.updateScanStatus k _ _ _ _))
      exact hp.changeScans (plainRows_updateScanStatus hp.stored k _ _ _ _)
  | returns k results hlive hstep => exact hp
  | savePorts k calls hlive hstep => exact hp.afterSave _
  | saveFindings k calls hlive hstep => exact hp.afterSave _
  | restart opened => exact ⟨hp.durable, hp.durable⟩

/-- They are plain in every run. -/
theorem plainTables_run {opened : Bool} (run : Run step (initial opened) events st) : PlainTables st.db := by
  induction run with
  | nil => exact ⟨fun k row h => (by cases h), fun k row h => (by cases h)⟩
  | next run taken ih => exact (steps_of_step taken).plainTables ih

/-- What an entry of the list and the page of its scan have in common. -/
structure ScanEntry.Agrees (entry : ScanEntry) (answer : ScanAnswer) : Prop where
  target : entry.target = beforeNul answer.target
  portStart : entry.portStart = answer.portStart
  portEnd : entry.portEnd = answer.portEnd
  status : entry.status = answer.status
  startedAt : entry.startedAt = answer.startedAt
  openPorts : entry.openPorts = intOfSize answer.ports.length
  findings : entry.findings = intOfSize answer.findings.length

/-- The entry for a row of the table agrees with the page. -/
theorem agrees_entryOf (hk : Known events st) (hp : PlainTables st.db) (hopened : st.opened = true) {row : ScanRow}
    (hrow : row ∈ st.db.stored.scans.rows) :
    ∃ answer, st.getScan row.id = some answer ∧ (st.entryOf row).Agrees answer := by
  have hfind : st.db.stored.scans.find row.id = some row := KeyedTable.mem_rows.mp hrow
  obtain ⟨hid, htarget⟩ := hp.stored row.id row hfind
  have hget : st.db.stored.scans.getScan row.id = some row := by
    rw [ScanTable.getScan, beforeNul_eq_self.mpr hid]
    exact hfind
  unfold getScan
  cases hlive : st.jobs row.id with
  | some live =>
    have hdescribes := hk.described row.id live hlive row hget
    refine ⟨_, rfl, hdescribes.target, hdescribes.portStart, hdescribes.portEnd, ?_, hdescribes.startedAt, ?_, ?_⟩ <;>
      simp only [entryOf, hlive]
  | none =>
    refine ⟨_, by simp only [hopened, if_true, storedAnswer, hget, Option.map_some]; rfl, ?_⟩
    refine ⟨(beforeNul_eq_self.mpr htarget).symm, rfl, rfl, ?_, rfl, ?_, ?_⟩ <;> simp only [entryOf, hlive]

/-- The list of scans has at most two hundred entries for different scans, the latest first. Each agrees with the
page of its scan, and a stored scan that is missing is no later than those that are listed. -/
theorem list_agrees_with_get {opened : Bool} (run : Run step (initial opened) events st) (fresh : Fresh events)
    (hopened : st.opened = true) {entries : List ScanEntry} (h : st.ListsScans entries) :
    entries.length ≤ 200 ∧ (entries.map ScanEntry.id).Nodup ∧
      entries.Pairwise (fun a b => b.startedAt ≤ a.startedAt) ∧
      (∀ entry ∈ entries, ∃ answer, st.getScan entry.id = some answer ∧ entry.Agrees answer) ∧
      ∀ row ∈ st.db.stored.scans.rows, row.id ∈ entries.map ScanEntry.id ∨
        entries.length = 200 ∧ ∀ entry ∈ entries, row.startedAt ≤ entry.startedAt := by
  have hknown := known_run run fresh
  have hplain := plainTables_run run
  obtain ⟨rows, hrows, rfl⟩ := h
  rw [if_pos hopened] at hrows
  obtain ⟨all, hperm, hsorted, rfl⟩ := hrows
  have hids : ((all.take 200).map st.entryOf).map ScanEntry.id = (all.map ScanRow.id).take 200 := by
    rw [List.map_map, List.map_take]
    rfl
  refine ⟨by simp, ?_, ?_, ?_, ?_⟩
  · rw [hids]
    exact ((hperm.map ScanRow.id).nodup_iff.mpr st.db.stored.scans.nodup).sublist (List.take_sublist ..)
  · rw [List.pairwise_map]
    exact hsorted.sublist (List.take_sublist ..)
  · intro entry hentry
    obtain ⟨row, hrow, rfl⟩ := List.mem_map.mp hentry
    exact agrees_entryOf hknown hplain hopened (hperm.subset (List.mem_of_mem_take hrow))
  · intro row hrow
    have hmem : row ∈ all.take 200 ++ all.drop 200 := by
      rw [List.take_append_drop]
      exact hperm.symm.subset hrow
    rcases List.mem_append.mp hmem with htake | hdrop
    · exact .inl (List.mem_map_of_mem (List.mem_map_of_mem htake))
    · refine .inr ⟨?_, ?_⟩
      · have hlong : 200 < all.length := by
          by_contra hshort
          rw [List.drop_eq_nil_of_le (by omega)] at hdrop
          cases hdrop
        rw [List.length_map, List.length_take]
        omega
      · intro entry hentry
        obtain ⟨first, hfirst, rfl⟩ := List.mem_map.mp hentry
        rw [← List.take_append_drop 200 all, List.pairwise_append] at hsorted
        exact hsorted.2.2 first hfirst row hdrop

/-- The list with the scan of the sample. -/
theorem list_agrees_with_get_sample : ∃ st, Run step (initial true) sampleHistory st ∧
    ∀ entries, st.ListsScans entries → ∀ entry ∈ entries, ∃ answer, st.getScan entry.id = some answer ∧
      entry.Agrees answer := by
  obtain ⟨st, run, hopened⟩ := Run.exists_of_any sampleHistory_opened
  exact ⟨st, run, fun entries h => (list_agrees_with_get run fresh_sampleHistory hopened h).2.2.2.1⟩

end HistoryServer

end ZeroTrust
