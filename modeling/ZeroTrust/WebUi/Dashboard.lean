import ZeroTrust.WebUi.Stream
import Mathlib.Data.List.Sort

/-!
# The live view of the dashboard

`openScan` seeds its state with the answer of `get_scan` and then follows the stream of the scan. The
stream starts from the beginning, so whatever the seed already has arrives a second time.
-/

namespace ZeroTrust

/-- Where the script stands: before the request, in the handler of `get_scan`, and afterwards. -/
inductive ViewPhase
  | closed
  | statusRead (status : JobStatus)
  | settled
  | following
  | finished
deriving DecidableEq

/-- `liveState`, and how many events have been handled. -/
structure LiveView where
  phase : ViewPhase := .closed
  status : JobStatus := .queued
  scanned : ℕ := 0
  ports : List Port := []
  findings : List Finding := []
  handled : ℕ := 0

namespace LiveView

/-- `liveState.ports.sort`. -/
def sortPorts (ports : List Port) : List Port := ports.insertionSort fun a b => a.number ≤ b.number

/-- `liveState.findings.sort`. -/
def sortFindings (findings : List Finding) : List Finding :=
  findings.insertionSort fun a b => a.portNumber ≤ b.portNumber

/-- The section of `get_scan` that holds the lock, and what `openScan` makes of the answer. -/
def seed (view : LiveView) (total : ℕ) (status : JobStatus) (job : ScanJob) : LiveView :=
  { view with
    phase := if status = .running ∨ status = .queued then .following else .settled
    status := status
    scanned := if status = .done then total else 0
    ports := job.ports
    findings := job.findings
    handled := 0 }

/-- The listeners. -/
def handle (view : LiveView) : Frame → LiveView
  | .hello => { view with handled := view.handled + 1 }
  | .progress scanned => { view with scanned := scanned, handled := view.handled + 1 }
  | .port p => { view with ports := sortPorts (view.ports ++ [p]), handled := view.handled + 1 }
  | .finding f => { view with findings := sortFindings (view.findings ++ [f]), handled := view.handled + 1 }
  | .status status => { view with status := status, handled := view.handled + 1 }
  | .endOfStream => { view with phase := .finished, handled := view.handled + 1 }

end LiveView

/-- A job, its streams and the script that opens one of them. -/
structure Dashboard where
  live : LiveJob
  view : LiveView := {}

/-- The steps of the parties. -/
inductive DashboardEvent
  | live (e : LiveEvent)
  | readStatus
  | seed
  | handle

namespace Dashboard

/-- A step; the stream `k` is the one that the script opens. -/
def step (db : Bool) (total k : ℕ) (dashboard : Dashboard) : DashboardEvent → Option Dashboard
  | .live e =>
    if e.isOf k ∧ dashboard.view.phase ≠ .following ∧ dashboard.view.phase ≠ .finished then none
    else (dashboard.live.step db e).map fun live => { dashboard with live := live }
  | .readStatus =>
    match dashboard.view.phase with
    | .closed =>
      some { dashboard with view := { dashboard.view with phase := .statusRead dashboard.live.worker.job.status } }
    | _ => none
  | .seed =>
    match dashboard.view.phase with
    | .statusRead status =>
      some { dashboard with view := dashboard.view.seed total status dashboard.live.worker.job }
    | _ => none
  | .handle =>
    match dashboard.view.phase, (dashboard.live.streams k).written[dashboard.view.handled]? with
    | .following, some frame => some { dashboard with view := dashboard.view.handle frame }
    | _, _ => none

/-- A job that has just been created. -/
def spawn (db inserted : Bool) : Dashboard where
  live := .spawn db inserted

variable {db inserted : Bool} {total k : ℕ} {dashboard dashboard' : Dashboard} {events : List DashboardEvent}

/-- The job and its streams go through a run of their own. -/
theorem exists_live_run (run : Run (step db total k) (spawn db inserted) events dashboard) :
    ∃ events', Run (LiveJob.step db) (.spawn db inserted) events' dashboard.live := by
  induction run with
  | nil => exact ⟨[], .nil⟩
  | @next events dashboard dashboard' e run h ih =>
    obtain ⟨events', hlive⟩ := ih
    cases e with
    | live e =>
      simp only [step] at h
      split at h
      · cases h
      · obtain ⟨live, hstep, rfl⟩ := Option.map_eq_some_iff.mp h
        exact ⟨events' ++ [e], hlive.next hstep⟩
    | readStatus | seed =>
      simp only [step] at h
      split at h <;> cases h
      exact ⟨events', hlive⟩
    | handle =>
      simp only [step] at h
      split at h <;> cases h
      exact ⟨events', hlive⟩

/-- The view of a seed and of the events that it has handled. -/
structure Follows (ports : List Port) (findings : List Finding) (written : List Frame) (view : LiveView) : Prop where
  ports : view.ports.Perm (ports ++ EventStream.framePorts (written.take view.handled))
  findings : view.findings.Perm (findings ++ EventStream.frameFindings (written.take view.handled))
  handled_le : view.handled ≤ written.length
  phase : view.phase = .following ∨ view.phase = .finished
  finished : view.phase = .finished → .endOfStream ∈ written.take view.handled

variable {ports : List Port} {findings : List Finding} {written written' : List Frame} {view : LiveView}

/-- What follows a prefix follows what continues it. -/
theorem Follows.of_prefix (h : Follows ports findings written view) (hmore : written <+: written') :
    Follows ports findings written' view := by
  obtain ⟨more, rfl⟩ := hmore
  have htake : (written ++ more).take view.handled = written.take view.handled :=
    List.take_append_of_le_length h.handled_le
  refine ⟨?_, ?_, h.handled_le.trans (List.prefix_append _ _).length_le, h.phase, ?_⟩
  · rw [htake]
    exact h.ports
  · rw [htake]
    exact h.findings
  · rw [htake]
    exact h.finished

/-- An event that is no result changes neither list. -/
theorem Follows.skip (h : Follows ports findings written view) {frame : Frame} {view' : LiveView}
    (hframe : written[view.handled]? = some frame) (hport : frame.port? = none) (hfinding : frame.finding? = none)
    (hports : view'.ports = view.ports) (hfindings : view'.findings = view.findings)
    (hhandled : view'.handled = view.handled + 1) (hphase : view'.phase = .following ∨ view'.phase = .finished)
    (hover : view'.phase = .finished → frame = .endOfStream) : Follows ports findings written view' := by
  have htake : written.take view'.handled = written.take view.handled ++ [frame] := by
    rw [hhandled, List.take_add_one, hframe, Option.toList_some]
  refine ⟨?_, ?_, ?_, hphase, fun h => ?_⟩
  · rw [hports, htake, EventStream.framePorts_append]
    simpa [EventStream.framePorts, List.filterMap_cons, hport] using h.ports
  · rw [hfindings, htake, EventStream.frameFindings_append]
    simpa [EventStream.frameFindings, List.filterMap_cons, hfinding] using h.findings
  · rw [hhandled]
    exact (List.getElem?_eq_some_iff.mp hframe).1
  · rw [htake, hover h]
    simp

/-- Handling an event adds what it carries. -/
theorem Follows.handle (h : Follows ports findings written view) {frame : Frame}
    (hfollowing : view.phase = .following) (hframe : written[view.handled]? = some frame) :
    Follows ports findings written (view.handle frame) := by
  have htake : written.take (view.handled + 1) = written.take view.handled ++ [frame] := by
    rw [List.take_add_one, hframe, Option.toList_some]
  have hlength := (List.getElem?_eq_some_iff.mp hframe).1
  have hopen : view.phase ≠ .finished := by
    rw [hfollowing]
    exact ViewPhase.noConfusion
  cases frame with
  | port p =>
    refine ⟨?_, ?_, hlength, h.phase, fun hover => absurd hover hopen⟩
    · change (LiveView.sortPorts _).Perm (_ ++ EventStream.framePorts (written.take (view.handled + 1)))
      rw [htake, EventStream.framePorts_append, ← List.append_assoc]
      exact (List.perm_insertionSort _ _).trans (h.ports.append_right [p])
    · change view.findings.Perm (_ ++ EventStream.frameFindings (written.take (view.handled + 1)))
      rw [htake, EventStream.frameFindings_append]
      exact (List.append_nil (EventStream.frameFindings _)).symm ▸ h.findings
  | finding f =>
    refine ⟨?_, ?_, hlength, h.phase, fun hover => absurd hover hopen⟩
    · change view.ports.Perm (_ ++ EventStream.framePorts (written.take (view.handled + 1)))
      rw [htake, EventStream.framePorts_append]
      exact (List.append_nil (EventStream.framePorts _)).symm ▸ h.ports
    · change (LiveView.sortFindings _).Perm (_ ++ EventStream.frameFindings (written.take (view.handled + 1)))
      rw [htake, EventStream.frameFindings_append, ← List.append_assoc]
      exact (List.perm_insertionSort _ _).trans (h.findings.append_right [f])
  | endOfStream => exact h.skip hframe rfl rfl rfl rfl rfl (.inr rfl) fun _ => rfl
  | hello | progress scanned | status status =>
    exact h.skip hframe rfl rfl rfl rfl rfl (.inl hfollowing) fun hover => absurd hover hopen

/-- Written events stay written. -/
theorem written_grows {live live' : LiveJob} {e : LiveEvent} (hdelivers : (live.streams k).Delivers live.worker.job)
    (h : live.step db e = some live') : (live.streams k).written <+: (live'.streams k).written := by
  obtain ⟨we, -, -, hsame⟩ | ⟨se, -, hstep, -⟩ | ⟨-, -, hsame⟩ := LiveJob.step_cases_at h k
  · exact hsame ▸ List.prefix_refl _
  · have hlaid := hdelivers.laid
    generalize live'.streams k = stream' at hstep ⊢
    cases hstep with
    | connect phase =>
      rw [EventStream.Laid, phase] at hlaid
      rw [(List.append_eq_nil_iff.mp hlaid).1]
      exact List.nil_prefix
    | push status frame rest phase pending inner | pushEnd status rest phase pending => exact List.prefix_append _ _
    | _ => exact List.prefix_refl _
  · exact hsame ▸ List.prefix_refl _

/-- From its seed on the view is the seed and what it has handled. -/
theorem follows_of_run {before after : List DashboardEvent} {opened seeded final : Dashboard}
    (first : Run (step db total k) (spawn db inserted) before opened)
    (hseed : opened.step db total k .seed = some seeded) (hfollowing : seeded.view.phase = .following)
    (rest : Run (step db total k) seeded after final) :
    Follows opened.live.worker.job.ports opened.live.worker.job.findings (final.live.streams k).written final.view := by
  induction rest with
  | nil =>
    simp only [step] at hseed
    split at hseed <;> cases hseed
    refine ⟨?_, ?_, Nat.zero_le _, .inl hfollowing, fun hover => ?_⟩
    · exact .of_eq (List.append_nil _).symm
    · exact .of_eq (List.append_nil _).symm
    · rw [hfollowing] at hover
      cases hover
  | @next after mid final e rest h ih =>
    obtain ⟨events, hlive⟩ := exists_live_run ((first.next hseed).append rest)
    cases e with
    | live e =>
      simp only [step] at h
      split at h
      · cases h
      · obtain ⟨live, hstep, rfl⟩ := Option.map_eq_some_iff.mp h
        exact ih.of_prefix (written_grows (LiveJob.delivers_of_run hlive k) hstep)
    | readStatus | seed =>
      simp only [step] at h
      obtain hphase | hphase := ih.phase <;> rw [hphase] at h <;> cases h
    | handle =>
      simp only [step] at h
      split at h
      · next frame hphase hframe =>
        cases h
        exact ih.handle hphase hframe
      · cases h

/-- A list of results that is taken up twice is the list itself only when it is empty. -/
theorem perm_twice_iff {α : Type} {seen all taken : List α} (h : taken.Perm (seen ++ all)) :
    taken.Perm all ↔ seen = [] := by
  constructor
  · intro hall
    have hlength := h.length_eq.symm.trans hall.length_eq
    rw [List.length_append] at hlength
    exact List.length_eq_zero_iff.mp (by omega)
  · rintro rfl
    exact h

/-- A view that has found the scan over opens no stream. -/
theorem settled_of_run {after : List DashboardEvent} {seeded final : Dashboard}
    (rest : Run (step db total k) seeded after final) (hsettled : seeded.view.phase = .settled) :
    final.view.phase = .settled := by
  induction rest with
  | nil => exact hsettled
  | @next after mid final e rest h ih =>
    cases e with
    | live e =>
      simp only [step] at h
      split at h
      · cases h
      · obtain ⟨live, hstep, rfl⟩ := Option.map_eq_some_iff.mp h
        exact ih
    | readStatus | seed | handle =>
      simp only [step, ih] at h
      cases h

/-- The `end` event is the last, and by then the stream has sent all results. -/
theorem handled_all {job : ScanJob} {stream : EventStream} {n : ℕ} (h : stream.Delivers job)
    (hend : .endOfStream ∈ stream.written.take n) :
    EventStream.framePorts (stream.written.take n) = job.ports ∧
      EventStream.frameFindings (stream.written.take n) = job.findings := by
  have hstarts : stream.written.take n <+: stream.frames :=
    (List.take_prefix _ _).trans (List.prefix_append _ _)
  obtain ⟨-, hports, hfindings, body, hframes, hbody⟩ := h.closing (hstarts.subset hend)
  have hall : stream.written.take n = stream.frames := by
    rw [hframes] at hstarts ⊢
    obtain hall | hless := List.prefix_concat_iff.mp hstarts
    · exact hall
    · exact absurd (hless.subset hend) hbody
  rw [hall, h.ports, h.findings, hports, hfindings]
  exact ⟨List.take_length, List.take_length⟩

end Dashboard

open Dashboard in
/-- Once the `end` event has been handled, the live view shows each result of the job once exactly when
the seed was empty. -/
theorem liveView_once_iff (db inserted : Bool) (total k : ℕ) {before after : List DashboardEvent}
    {opened seeded final : Dashboard} (first : Run (Dashboard.step db total k) (.spawn db inserted) before opened)
    (seed : opened.step db total k .seed = some seeded) (rest : Run (Dashboard.step db total k) seeded after final)
    (finished : final.view.phase = .finished) :
    (final.view.ports.Perm final.live.worker.job.ports ∧ final.view.findings.Perm final.live.worker.job.findings) ↔
      opened.live.worker.job.ports = [] ∧ opened.live.worker.job.findings = [] := by
  have hfollowing : seeded.view.phase = .following := by
    by_contra hnot
    have hsettled : seeded.view.phase = .settled := by
      simp only [Dashboard.step] at seed
      split at seed <;> cases seed
      exact if_neg fun hstatus => hnot (if_pos hstatus)
    rw [settled_of_run rest hsettled] at finished
    cases finished
  have hfollows := follows_of_run first seed hfollowing rest
  obtain ⟨events, hlive⟩ := exists_live_run ((first.next seed).append rest)
  obtain ⟨hports, hfindings⟩ := handled_all (LiveJob.delivers_of_run hlive k) (hfollows.finished finished)
  rw [perm_twice_iff (hports ▸ hfollows.ports), perm_twice_iff (hfindings ▸ hfollows.findings)]

/-- A scan with one open port, which is opened in the dashboard after that. -/
def demoOpened : List DashboardEvent :=
  [.live (.worker .storeRunning), .live (.worker (.onPortOpen { number := 22 } [])), .readStatus]

/-- A scan that is opened in the dashboard before its first result. -/
def demoOpenedEarly : List DashboardEvent :=
  [.live (.worker .storeRunning), .readStatus]

/-- The scan ends, its stream is followed to the end, and every event of it is handled. -/
def demoFollowed (results : List WorkerEvent) (pushes : ℕ) : List DashboardEvent :=
  (results ++ [WorkerEvent.scanReturns, .storeDone]).map (fun e => .live (.worker e)) ++
    [.live (.stream 0 (.connect true)), .live (.stream 0 .readStatus), .live (.stream 0 .readScanned),
      .live (.stream 0 .take)] ++
    List.replicate pushes (.live (.stream 0 (.push true))) ++ List.replicate (pushes + 1) .handle

/-- Whether the view has handled the `end` event with a port for each port of the job, or with more. -/
def demoShows (final : Dashboard) (extra : ℕ) : Bool :=
  decide (final.view.phase = .finished) &&
    decide (final.view.ports.length = final.live.worker.job.ports.length + extra)

open Dashboard in
/-- A view that is opened in time shows the one port once. -/
theorem liveView_once_early :
    ∃ opened seeded final, Run (Dashboard.step false 1024 0) (.spawn false false) demoOpenedEarly opened ∧
      opened.step false 1024 0 .seed = some seeded ∧
      Run (Dashboard.step false 1024 0) seeded (demoFollowed [.onPortOpen { number := 22 } []] 4) final ∧
      final.view.ports.Perm final.live.worker.job.ports := by
  obtain ⟨opened, first, hopened⟩ := Run.exists_of_any (show
    ((demoOpenedEarly.foldlM (Dashboard.step false 1024 0) (.spawn false false)).any fun opened =>
      decide (opened.live.worker.job.ports = []) && decide (opened.live.worker.job.findings = []) &&
        (opened.step false 1024 0 .seed).any fun seeded =>
          ((demoFollowed [.onPortOpen { number := 22 } []] 4).foldlM (Dashboard.step false 1024 0) seeded).any
            fun final => demoShows final 0) = true by decide +kernel)
  simp only [Bool.and_eq_true, decide_eq_true_eq] at hopened
  obtain ⟨hempty, hseeds⟩ := hopened
  obtain ⟨seeded, hseed, hgoes⟩ := (Option.any_eq_true _ _).mp hseeds
  obtain ⟨final, rest, hshows⟩ := Run.exists_of_any hgoes
  obtain ⟨hover, -⟩ := Bool.and_eq_true_iff.mp hshows
  exact ⟨opened, seeded, final, first, hseed, rest,
    ((liveView_once_iff false false 1024 0 first hseed rest (of_decide_eq_true hover)).mpr hempty).1⟩

open Dashboard in
/-- A view that is opened when the first port is already there shows it twice. -/
theorem liveView_shows_port_twice :
    ∃ opened seeded final, Run (Dashboard.step false 1024 0) (.spawn false false) demoOpened opened ∧
      opened.step false 1024 0 .seed = some seeded ∧
      Run (Dashboard.step false 1024 0) seeded (demoFollowed [] 4) final ∧ final.view.phase = .finished ∧
      ¬final.view.ports.Perm final.live.worker.job.ports := by
  obtain ⟨opened, first, hopened⟩ := Run.exists_of_any (show
    ((demoOpened.foldlM (Dashboard.step false 1024 0) (.spawn false false)).any fun opened =>
      (opened.step false 1024 0 .seed).any fun seeded =>
        ((demoFollowed [] 4).foldlM (Dashboard.step false 1024 0) seeded).any
          fun final => demoShows final 1) = true by decide +kernel)
  obtain ⟨seeded, hseed, hgoes⟩ := (Option.any_eq_true _ _).mp hopened
  obtain ⟨final, rest, hshows⟩ := Run.exists_of_any hgoes
  obtain ⟨hover, hlength⟩ := Bool.and_eq_true_iff.mp hshows
  refine ⟨opened, seeded, final, first, hseed, rest, of_decide_eq_true hover, fun hperm => ?_⟩
  have htwice := of_decide_eq_true hlength
  rw [hperm.length_eq] at htwice
  omega

end ZeroTrust
