import ZeroTrust.Db.Scans
import ZeroTrust.Lib.Runs
import ZeroTrust.WebUi.StartScan
import Mathlib.Logic.Function.Basic

/-!
# The history of scans

The server with all its scans, the database behind them and the processes that come one after the other. Every
worker takes its steps on its own, and the persistence of a scan that has returned is one critical section. A
restart forgets the jobs and whatever is in an open transaction. Other scans, whatever their SQLite calls do,
never touch what is stored of a scan: once it is stored for good it is shown as it is, and an interrupted scan
stays as it was.
-/

namespace ZeroTrust

open Function (update update_self update_of_ne)

/-- What `tcp_range_scan` returns to a worker. -/
structure ScanResults where
  ports : List Port := []
  findings : List Finding := []

/-- A job in `jobs_` and its worker, with what the scan has returned. -/
structure LiveScan where
  scan : NewScan
  job : ScanJob := {}
  stage : WorkerStage := .spawned
  results : ScanResults := {}

/-- A process with its jobs, and the database. While one worker persists its results, `db_mu_` is locked. -/
structure HistoryServer where
  opened : Bool
  db : HistoryDb := {}
  jobs : Bytes → Option LiveScan := fun _ => none
  locked : Option Bytes := none

/-- What happens: a scan is started, its worker takes a step, or another process takes over. -/
inductive HistoryEvent
  | start (scan : NewScan) (userSub : Bytes) (inserted : Bool)
  | advance (id : Bytes) (e : WorkerEvent)
  | returns (id : Bytes) (results : ScanResults)
  | savePorts (id : Bytes) (calls : SavePattern)
  | saveFindings (id : Bytes) (calls : SavePattern)
  | restart (opened : Bool)

/-- The scan that an event concerns. -/
def HistoryEvent.scanId : HistoryEvent → Option Bytes
  | .start scan _ _ => some scan.id
  | .advance id _ | .returns id _ | .savePorts id _ | .saveFindings id _ => some id
  | .restart _ => none

/-- The event starts the scan. -/
def HistoryEvent.Starts (id : Bytes) : HistoryEvent → Prop
  | .start scan _ _ => scan.id = id
  | _ => False

/-- The row that `start_scan` inserts. -/
def NewScan.row (scan : NewScan) (userSub : Bytes) : ScanRow where
  id := scan.id
  userSub := userSub
  target := scan.target
  portStart := scan.portStart
  portEnd := scan.portEnd
  status := str "queued"
  startedAt := scan.startedAt

/-- What the caller of a save sees of the answers of SQLite, which knows about an open transaction. -/
def Connection.callsSeen (conn : Connection) (calls : SaveCalls) : SaveCalls where
  begins := if conn.transaction.isSome then some (str "cannot start a transaction within a transaction")
    else calls.begins
  prepares := calls.prepares
  rollsBack := calls.rollsBack
  commits := calls.commits

/-- The steps that have an event of their own are the others. -/
def WorkerEvent.isPlain : WorkerEvent → Bool
  | .scanReturns | .savePorts _ | .saveFindings _ => false
  | _ => true

/-- The step waits for `db_mu_`. -/
def WorkerEvent.usesDb : WorkerEvent → Bool
  | .updateRunning _ | .updateDone _ | .updateError _ => true
  | _ => false

namespace LiveScan

/-- A step of the worker; its row is in the database. -/
def advance (opened : Bool) (live : LiveScan) (e : WorkerEvent) : Option LiveScan :=
  (JobWorker.step opened ⟨live.job, live.stage, none⟩ e).map fun worker =>
    { live with job := worker.job, stage := worker.stage }

/-- What a worker writes by `update_scan_status`, if the statement works. -/
def statusUpdate (live : LiveScan) : WorkerEvent → Option JobRow
  | .updateRunning true => some { status := .running }
  | .updateDone true => some ⟨.done, live.job.completedAt, live.job.scanned, []⟩
  | .updateError true =>
    match live.stage with
    | .errorStamped what => some ⟨.error, live.job.completedAt, 0, what⟩
    | _ => none
  | _ => none

/-- Whether the worker holds `db_mu_`. -/
def holds (live : LiveScan) : Bool := live.stage == .savingPorts || live.stage == .savingFindings

end LiveScan

namespace HistoryDb

/-- `upsert_scan`, if there is a database and the statement works. -/
def insert (db : HistoryDb) (effective : Bool) (row : ScanRow) : HistoryDb :=
  if effective then db.changeScans (·.upsertScan row) else db

/-- `update_scan_status` with what a worker writes. -/
def updateStatus (db : HistoryDb) (id : Bytes) : Option JobRow → HistoryDb
  | none => db
  | some row => db.changeScans (·.updateScanStatus id row.status.text row.completedAt row.scannedPorts row.error)

end HistoryDb

namespace HistoryServer

/-- `db_mu_` is free for a scan. -/
def free (st : HistoryServer) (id : Bytes) : Bool := st.locked == none || st.locked == some id

/-- A worker has taken a step. -/
def put (st : HistoryServer) (id : Bytes) (live : LiveScan) (db : HistoryDb) : HistoryServer :=
  { st with
    db := db
    jobs := update st.jobs id (some live)
    locked := if live.holds then some id else if st.locked = some id then none else st.locked }

/-- A job is there. -/
def enter (st : HistoryServer) (scan : NewScan) (db : HistoryDb) : HistoryServer :=
  { st with db := db, jobs := update st.jobs scan.id (some { scan := scan }) }

/-- The steps of the server. Identifiers come from `random_urlsafe`. -/
def step (st : HistoryServer) : HistoryEvent → Option HistoryServer
  | .start scan userSub inserted =>
    if NulFree scan.id ∧ (st.opened → st.free scan.id) then
      some (st.enter scan (st.db.insert (st.opened && inserted) (scan.row userSub)))
    else none
  | .advance id e => do
    let live ← st.jobs id
    let live' ← live.advance st.opened e
    if e.isPlain && (!e.usesDb || st.free id) then
      some (st.put id live' (st.db.updateStatus id (live.statusUpdate e)))
    else none
  | .returns id results => do
    let live ← st.jobs id
    let live' ← live.advance st.opened .scanReturns
    some (st.put id { live' with results := results } st.db)
  | .savePorts id calls => do
    let live ← st.jobs id
    let conn := st.db.connection
    let live' ← live.advance st.opened (.savePorts (conn.callsSeen calls.toSaveCalls))
    some (st.put id live' (st.db.afterSave (savePorts conn id live.results.ports calls).2))
  | .saveFindings id calls => do
    let live ← st.jobs id
    let conn := st.db.connection
    let live' ← live.advance st.opened (.saveFindings (conn.callsSeen calls.toSaveCalls))
    some (st.put id live' (st.db.afterSave (saveFindings conn id live.results.findings calls).2))
  | .restart opened => some { opened := opened, db := st.db.reopen }

/-- The data of an answer of `get_scan`. -/
structure ScanAnswer where
  target : Bytes
  portStart : ℤ
  portEnd : ℤ
  status : Bytes
  startedAt : ℤ
  completedAt : ℤ
  error : Bytes
  ports : List Port
  findings : List Finding

/-- An answer from the database. -/
def storedAnswer (tables : Tables) (id : Bytes) : Option ScanAnswer :=
  (tables.scans.getScan id).map fun row =>
    { target := row.target
      portStart := row.portStart
      portEnd := row.portEnd
      status := row.status
      startedAt := row.startedAt
      completedAt := row.completedAt
      error := row.error
      ports := loadPorts tables.results id
      findings := loadFindings tables.results id }

/-- `get_scan`: the job if the process has it, else what is stored. -/
def getScan (st : HistoryServer) (id : Bytes) : Option ScanAnswer :=
  match st.jobs id with
  | some live => some
      { target := live.scan.target
        portStart := live.scan.portStart
        portEnd := live.scan.portEnd
        status := live.job.status.text
        startedAt := live.scan.startedAt
        completedAt := live.job.completedAt
        error := live.job.error
        ports := live.job.ports
        findings := live.job.findings }
  | none => if st.opened then storedAnswer st.db.stored id else none

/-- An entry of `list_scans`. -/
structure ScanEntry where
  id : Bytes
  target : Bytes
  portStart : ℤ
  portEnd : ℤ
  status : Bytes
  openPorts : ℤ
  findings : ℤ
  scannedPorts : ℤ
  startedAt : ℤ
  completedAt : ℤ

/-- The entry for a row: status and counts of the job if the process has it. -/
def entryOf (st : HistoryServer) (row : ScanRow) : ScanEntry where
  id := row.id
  target := row.target
  portStart := row.portStart
  portEnd := row.portEnd
  status := match st.jobs row.id with
    | some live => live.job.status.text
    | none => row.status
  openPorts := match st.jobs row.id with
    | some live => intOfSize live.job.ports.length
    | none => intOfSize (loadPorts st.db.stored.results row.id).length
  findings := match st.jobs row.id with
    | some live => intOfSize live.job.findings.length
    | none => intOfSize (loadFindings st.db.stored.results row.id).length
  scannedPorts := match st.jobs row.id with
    | some live => live.job.scanned
    | none => row.scannedPorts
  startedAt := row.startedAt
  completedAt := row.completedAt

/-- What `list_scans` may answer when nothing else happens meanwhile. -/
def ListsScans (st : HistoryServer) (entries : List ScanEntry) : Prop :=
  ∃ rows : List ScanRow, (if st.opened then st.db.stored.scans.Lists 200 rows else rows = []) ∧
    entries = rows.map st.entryOf

/-- The steps, each with what it needs. -/
inductive Steps (st : HistoryServer) : HistoryEvent → HistoryServer → Prop
  | start (scan : NewScan) (userSub : Bytes) (inserted : Bool) (hid : NulFree scan.id) :
    Steps st (.start scan userSub inserted)
      (st.enter scan (st.db.insert (st.opened && inserted) (scan.row userSub)))
  | advance (id : Bytes) (e : WorkerEvent) {live live' : LiveScan} (hlive : st.jobs id = some live)
    (hstep : live.advance st.opened e = some live') (hplain : e.isPlain = true) :
    Steps st (.advance id e) (st.put id live' (st.db.updateStatus id (live.statusUpdate e)))
  | returns (id : Bytes) (results : ScanResults) {live live' : LiveScan} (hlive : st.jobs id = some live)
    (hstep : live.advance st.opened .scanReturns = some live') :
    Steps st (.returns id results) (st.put id { live' with results := results } st.db)
  | savePorts (id : Bytes) (calls : SavePattern) {live live' : LiveScan} (hlive : st.jobs id = some live)
    (hstep : live.advance st.opened (.savePorts (st.db.connection.callsSeen calls.toSaveCalls)) = some live') :
    Steps st (.savePorts id calls)
      (st.put id live' (st.db.afterSave (ZeroTrust.savePorts st.db.connection id live.results.ports calls).2))
  | saveFindings (id : Bytes) (calls : SavePattern) {live live' : LiveScan} (hlive : st.jobs id = some live)
    (hstep : live.advance st.opened (.saveFindings (st.db.connection.callsSeen calls.toSaveCalls)) = some live') :
    Steps st (.saveFindings id calls)
      (st.put id live' (st.db.afterSave (ZeroTrust.saveFindings st.db.connection id live.results.findings calls).2))
  | restart (opened : Bool) : Steps st (.restart opened) { opened := opened, db := st.db.reopen }

variable {st st' : HistoryServer} {e : HistoryEvent}

/-- A step does one of these. -/
theorem steps_of_step (h : st.step e = some st') : st.Steps e st' := by
  cases e with
  | start scan userSub inserted =>
    simp only [step] at h
    split at h
    · next hguard =>
      cases h
      exact .start scan userSub inserted hguard.1
    · cases h
  | advance id e =>
    obtain ⟨live, hlive, h⟩ := Option.bind_eq_some_iff.mp h
    obtain ⟨live', hstep, h⟩ := Option.bind_eq_some_iff.mp h
    split at h
    · next hguard =>
      cases h
      rw [Bool.and_eq_true] at hguard
      exact .advance id e hlive hstep hguard.1
    · cases h
  | returns id results =>
    obtain ⟨live, hlive, h⟩ := Option.bind_eq_some_iff.mp h
    obtain ⟨live', hstep, h⟩ := Option.bind_eq_some_iff.mp h
    cases h
    exact .returns id results hlive hstep
  | savePorts id calls =>
    obtain ⟨live, hlive, h⟩ := Option.bind_eq_some_iff.mp h
    obtain ⟨live', hstep, h⟩ := Option.bind_eq_some_iff.mp h
    cases h
    exact .savePorts id calls hlive hstep
  | saveFindings id calls =>
    obtain ⟨live, hlive, h⟩ := Option.bind_eq_some_iff.mp h
    obtain ⟨live', hstep, h⟩ := Option.bind_eq_some_iff.mp h
    cases h
    exact .saveFindings id calls hlive hstep
  | restart opened =>
    cases h
    exact .restart opened

section Frame

variable {id other : Bytes}

/-- The database of the server is replaced. -/
@[simp] theorem put_db (st : HistoryServer) (id : Bytes) (live : LiveScan) (db : HistoryDb) :
    (st.put id live db).db = db := rfl

/-- The scan is replaced. -/
@[simp] theorem put_jobs_self (st : HistoryServer) (id : Bytes) (live : LiveScan) (db : HistoryDb) :
    (st.put id live db).jobs id = some live := update_self ..

/-- No other scan is. -/
theorem put_jobs_of_ne (h : other ≠ id) (st : HistoryServer) (live : LiveScan) (db : HistoryDb) :
    (st.put id live db).jobs other = st.jobs other := update_of_ne h ..

/-- The database of the server is replaced. -/
@[simp] theorem enter_db (st : HistoryServer) (scan : NewScan) (db : HistoryDb) : (st.enter scan db).db = db := rfl

/-- The new scan is in memory. -/
@[simp] theorem enter_jobs_self (st : HistoryServer) (scan : NewScan) (db : HistoryDb) :
    (st.enter scan db).jobs scan.id = some { scan := scan } := update_self ..

/-- The other scans are left alone. -/
theorem enter_jobs_of_ne {scan : NewScan} (h : other ≠ scan.id) (st : HistoryServer) (db : HistoryDb) :
    (st.enter scan db).jobs other = st.jobs other := update_of_ne h ..

/-- The identifiers of jobs are C strings. -/
def PlainIds (st : HistoryServer) : Prop := ∀ id live, st.jobs id = some live → NulFree id

/-- A step keeps the identifiers plain. -/
theorem Steps.plainIds (h : st.Steps e st') (hids : st.PlainIds) : st'.PlainIds := by
  have hput {id : Bytes} {live live' : LiveScan} (hlive : st.jobs id = some live) (db : HistoryDb) :
      (st.put id live' db).PlainIds := by
    intro k found hk
    by_cases hkid : k = id
    · subst hkid
      exact hids k live hlive
    · rw [put_jobs_of_ne hkid] at hk
      exact hids k found hk
  cases h with
  | start scan userSub inserted hid =>
    intro k found hk
    by_cases hkid : k = scan.id
    · subst hkid
      exact hid
    · rw [enter_jobs_of_ne hkid] at hk
      exact hids k found hk
  | advance id e hlive hstep hplain => exact hput hlive _
  | returns id results hlive hstep => exact hput hlive _
  | savePorts id calls hlive hstep => exact hput hlive _
  | saveFindings id calls hlive hstep => exact hput hlive _
  | restart opened =>
    intro k found hk
    cases hk

/-- Plain identifiers have different keys. -/
theorem beforeNul_ne (hid : NulFree id) (hother : NulFree other) (h : other ≠ id) : beforeNul other ≠ beforeNul id := by
  rwa [beforeNul_eq_self.mpr hid, beforeNul_eq_self.mpr hother]

/-- What a worker writes of its status concerns its scan. -/
theorem sameRecord_updateStatus (h : beforeNul other ≠ beforeNul id) (db : HistoryDb) (row : Option JobRow) :
    HistoryDb.SameRecord db (db.updateStatus id row) other := by
  cases row with
  | none => exact .refl db other
  | some row =>
    show HistoryDb.SameRecord db (db.changeScans (·.updateScanStatus id _ _ _ _)) other
    exact HistoryDb.sameRecord_changeScans fun scans => (scans.find_updateScanStatus ..).trans (if_neg (Ne.symm h))

/-- An event of one scan changes neither the job nor the record of another. -/
theorem Steps.leaves (h : st.Steps e st') (hids : st.PlainIds) (hother : NulFree other) (hid : e.scanId ≠ some other)
    (hrestart : e.scanId ≠ none) : st'.jobs other = st.jobs other ∧ HistoryDb.SameRecord st.db st'.db other := by
  cases h with
  | start scan userSub inserted hscan =>
    have hne : other ≠ scan.id := fun h => hid (congrArg some h.symm)
    refine ⟨enter_jobs_of_ne hne .., ?_⟩
    rw [enter_db, HistoryDb.insert]
    split
    · exact HistoryDb.sameRecord_changeScans fun scans =>
        scans.find_upsertScan _ _ (Ne.symm (beforeNul_ne hscan hother hne))
    · exact .refl _ _
  | advance id e hlive hstep hplain =>
    have hne : other ≠ id := fun h => hid (congrArg some h.symm)
    exact ⟨put_jobs_of_ne hne .., sameRecord_updateStatus (beforeNul_ne (hids id _ hlive) hother hne) ..⟩
  | returns id results hlive hstep =>
    have hne : other ≠ id := fun h => hid (congrArg some h.symm)
    exact ⟨put_jobs_of_ne hne .., .refl _ _⟩
  | @savePorts id calls live live' hlive hstep =>
    have hne : other ≠ id := fun h => hid (congrArg some h.symm)
    have hof : ∀ row ∈ live.results.ports.map (portRow id), row.Of .scanPorts id := by
      intro row hrow
      obtain ⟨p, -, rfl⟩ := List.mem_map.mp hrow
      exact of_portRow p
    exact ⟨put_jobs_of_ne hne .., HistoryDb.sameRecord_save hof calls (beforeNul_ne (hids id _ hlive) hother hne)⟩
  | @saveFindings id calls live live' hlive hstep =>
    have hne : other ≠ id := fun h => hid (congrArg some h.symm)
    have hof : ∀ row ∈ findingRows id live.results.findings, row.Of .scanFindings id := by
      intro row hrow
      obtain ⟨f, i, rfl⟩ := exists_of_mem_findingRows hrow
      exact of_findingRow f i
    exact ⟨put_jobs_of_ne hne .., HistoryDb.sameRecord_save hof calls (beforeNul_ne (hids id _ hlive) hother hne)⟩
  | restart opened => exact absurd rfl hrestart

end Frame

/-- Nothing of the scan is going to change: its worker is through or gone, and its record is durable. -/
structure Settled (st : HistoryServer) (id : Bytes) : Prop where
  through : ∀ live, st.jobs id = some live → live.stage = .finished
  durable : st.db.stored.record id = st.db.durable.record id

/-- A worker that is through takes no step. -/
theorem advance_finished {live : LiveScan} (h : live.stage = .finished) (opened : Bool) (e : WorkerEvent) :
    live.advance opened e = none := by
  unfold LiveScan.advance
  rw [h]
  cases e <;> rfl

/-- No step changes the record of a settled scan. -/
theorem Steps.settled {id : Bytes} (h : st.Steps e st') (hids : st.PlainIds) (hid : NulFree id) (hs : st.Settled id)
    (hstart : ¬e.Starts id) : st'.Settled id ∧ st'.db.stored.record id = st.db.stored.record id := by
  by_cases hrestart : e.scanId = none
  · cases h with
    | restart opened =>
      have hrecord : st.db.reopen.stored.record id = st.db.stored.record id := hs.durable.symm
      exact ⟨⟨fun live hlive => (Option.some_ne_none live hlive.symm).elim, rfl⟩, hrecord⟩
    | _ => cases hrestart
  · by_cases hself : e.scanId = some id
    · -- only the worker could have done this, and it is through
      have himpossible {live live' : LiveScan} {e : WorkerEvent} (hlive : st.jobs id = some live)
          (hstep : live.advance st.opened e = some live') : False := by
        rw [advance_finished (hs.through live hlive)] at hstep
        cases hstep
      cases h with
      | start scan userSub inserted hscan => exact absurd (Option.some.inj hself) hstart
      | advance k e hlive hstep hplain =>
        cases hself
        exact (himpossible hlive hstep).elim
      | returns k results hlive hstep =>
        cases hself
        exact (himpossible hlive hstep).elim
      | savePorts k calls hlive hstep =>
        cases hself
        exact (himpossible hlive hstep).elim
      | saveFindings k calls hlive hstep =>
        cases hself
        exact (himpossible hlive hstep).elim
      | restart opened => exact absurd rfl hrestart
    · obtain ⟨hjobs, hrecord⟩ := h.leaves hids hid hself hrestart
      refine ⟨⟨fun live hlive => hs.through live (hjobs ▸ hlive), ?_⟩, hrecord.stored⟩
      rw [hrecord.stored, hrecord.durable, hs.durable]

/-- What is stored of a settled scan is stored ever after. -/
theorem settled_run {id : Bytes} {after : List HistoryEvent} (run : Run step st after st') (hids : st.PlainIds)
    (hid : NulFree id) (hs : st.Settled id) (hstart : ∀ e ∈ after, ¬e.Starts id) :
    st'.Settled id ∧ st'.db.stored.record id = st.db.stored.record id ∧ st'.PlainIds := by
  induction run with
  | nil => exact ⟨hs, rfl, hids⟩
  | @next trace mid st' e run taken ih =>
    obtain ⟨hmid, hsame, hplain⟩ := ih fun e he => hstart e (List.mem_append_left _ he)
    have hsteps := steps_of_step taken
    obtain ⟨hnext, hrecord⟩ := hsteps.settled hplain hid hmid (hstart e (by simp))
    exact ⟨hnext, hrecord.trans hsame, hsteps.plainIds hplain⟩

/-- A process knows a scan only if it has started it. -/
theorem Steps.gone {id : Bytes} (h : st.Steps e st') (hgone : st.jobs id = none) (hstart : ¬e.Starts id) :
    st'.jobs id = none := by
  have hput {k : Bytes} {live live' : LiveScan} (hlive : st.jobs k = some live) (db : HistoryDb) :
      (st.put k live' db).jobs id = none := by
    have hne : id ≠ k := by
      rintro rfl
      rw [hgone] at hlive
      cases hlive
    rw [put_jobs_of_ne hne, hgone]
  cases h with
  | start scan userSub inserted hid => exact (enter_jobs_of_ne (Ne.symm hstart) ..).trans hgone
  | advance k e hlive hstep hplain => exact hput hlive _
  | returns k results hlive hstep => exact hput hlive _
  | savePorts k calls hlive hstep => exact hput hlive _
  | saveFindings k calls hlive hstep => exact hput hlive _
  | restart opened => rfl

/-- A scan that is gone does not come back by itself. -/
theorem gone_run {id : Bytes} {after : List HistoryEvent} (run : Run step st after st') (hgone : st.jobs id = none)
    (hstart : ∀ e ∈ after, ¬e.Starts id) : st'.jobs id = none := by
  induction run with
  | nil => exact hgone
  | next run taken ih =>
    exact (steps_of_step taken).gone (ih fun e he => hstart e (List.mem_append_left _ he)) (hstart _ (by simp))

/-- An answer from the database is made of the record of the scan. -/
theorem storedAnswer_of_record {tables tables' : Tables} {id : Bytes} (h : tables.record id = tables'.record id) :
    storedAnswer tables id = storedAnswer tables' id := by
  have hrow : tables.scans.getScan id = tables'.scans.getScan id := congrArg ScanRecord.row h
  have hports : tables.results.scanRows .scanPorts id = tables'.results.scanRows .scanPorts id :=
    congrArg ScanRecord.ports h
  have hfindings : tables.results.scanRows .scanFindings id = tables'.results.scanRows .scanFindings id :=
    congrArg ScanRecord.findings h
  have hload : loadPorts tables.results id = loadPorts tables'.results id := by
    unfold loadPorts
    rw [hports]
  have hload' : loadFindings tables.results id = loadFindings tables'.results id := by
    unfold Database.scanRows at hfindings
    unfold loadFindings
    rw [hfindings]
  simp only [storedAnswer, hrow, hload, hload']

/-- Once a process has ended, a scan that is not started again is shown as the database had it then, through all
that other scans do and all later restarts; an interrupted scan stays as it was. -/
theorem history_after_restart {id : Bytes} (hid : NulFree id) {opened : Bool} {after : List HistoryEvent}
    (run : Run step st (.restart opened :: after) st') (hstart : ∀ e ∈ after, ¬e.Starts id) :
    st'.getScan id = if st'.opened then storedAnswer st.db.durable id else none := by
  have hrun : Run step st ([.restart opened] ++ after) st' := run
  obtain ⟨mid, first, later⟩ := hrun.split
  have hmid : mid = { opened := opened, db := st.db.reopen } :=
    (Option.some.inj (Run.iff_foldlM.mp first)).symm
  have hsettled : mid.Settled id := by
    subst hmid
    exact ⟨fun live hlive => (Option.some_ne_none live hlive.symm).elim, rfl⟩
  have hplain : mid.PlainIds := by
    subst hmid
    exact fun k live hlive => (Option.some_ne_none live hlive.symm).elim
  have hgone : mid.jobs id = none := by
    subst hmid
    rfl
  have hrecord : mid.db.stored.record id = st.db.durable.record id := by
    subst hmid
    rfl
  obtain ⟨-, hsame, -⟩ := settled_run later hplain hid hsettled hstart
  have hjobs : st'.jobs id = none := gone_run later hgone hstart
  unfold getScan
  rw [hjobs]
  dsimp only
  rw [storedAnswer_of_record (hsame.trans hrecord)]

/-- A scan is started, and the process ends. -/
theorem history_after_restart_sample : ∃ st st' : HistoryServer,
    Run step { opened := true } [.start ⟨[97], [98], [98], 1, 9, 7⟩ [] true] st ∧ Run step st [.restart true] st' ∧
      st'.getScan [97] = storedAnswer st.db.durable [97] ∧
      (st'.getScan [97]).map ScanAnswer.status = some (str "queued") := by
  have first : Run step { opened := true } [.start ⟨[97], [98], [98], 1, 9, 7⟩ [] true] _ := Run.iff_foldlM.mpr rfl
  have restarted (st : HistoryServer) : Run step st [.restart true] { opened := true, db := st.db.reopen } :=
    Run.iff_foldlM.mpr rfl
  refine ⟨_, _, first, restarted _, ?_, by decide⟩
  exact history_after_restart (by decide) (restarted _) fun e he => absurd he List.not_mem_nil

end HistoryServer

end ZeroTrust
