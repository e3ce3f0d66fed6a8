import ZeroTrust.Lib.Components
import ZeroTrust.Ztl.Runner

/-!
# The two schedulers

What `run_all` does on a set of ports is what it does on each of them alone (`runAll_splits`): one
port sees a scheduler of its own, `viewRun`. `run_for_port` is almost the same scheduler; the two
part company when a second-pass plugin claims a service, which only `run_for_port` notes.
-/

namespace ZeroTrust.Ztl

open Function (update)

/-- The part of `run_all` that belongs to one port. -/
structure PortView where
  service : Bytes := []
  store : Store := {}
  calls : List RunCall := []

/-- The calls made on a port. -/
def AllRun.callsOn (st : AllRun) (port : ℤ) : List RunCall :=
  (st.calls.filter (·.1 = port)).map Prod.snd

/-- The component of a port. -/
def AllRun.view (port : ℤ) (st : AllRun) : PortView where
  service := st.serviceOf port
  store := st.stores port
  calls := st.callsOn port

/-- A run on the port, with the service that is noted after it. -/
def PortView.step (w : World) (host : Bytes) (port : ℤ) (note : RunOutcome → Bytes → Bytes) (p : LoadedPlugin)
    (t : PortView) : Option PortView :=
  (callRun w host port p t.service t.store).map fun call =>
    { service := note call.outcome t.service, store := call.after, calls := t.calls ++ [call] }

/-- The first pass notes claims. -/
def PortView.discover (w : World) (host : Bytes) (port : ℤ) (t : PortView) (p : LoadedPlugin) : Option PortView :=
  if p.previewMeta.filterAny then t.step w host port (fun r svc => claimed svc r.detectedService) p else some t

/-- The second pass does not. -/
def PortView.check (w : World) (host : Bytes) (port : ℤ) (t : PortView) (p : LoadedPlugin) : Option PortView :=
  if p.previewMeta.filterAny then some t
  else if p.admits t.service then t.step w host port (fun _ svc => svc) p
  else some t

/-- The scheduler that a single port sees. -/
def viewRun (w : World) (plugins : List LoadedPlugin) (host : Bytes) (port : ℤ) (t : PortView) : Option PortView :=
  plugins.foldlM (PortView.discover w host port) t >>= fun t =>
    plugins.foldlM (PortView.check w host port) t

section Views

variable {w : ℤ → World} {host : Bytes} {p : LoadedPlugin}

/-- The body of the first loop works on its port. -/
theorem AllRun.discoverPort_self (st : AllRun) (port : ℤ) :
    (st.discoverPort w host p port).map (AllRun.view port) =
      (st.view port).step (w port) host port (fun r svc => claimed svc r.detectedService) p := by
  unfold AllRun.discoverPort PortView.step
  rw [Option.map_map]
  refine congrArg (Option.map · _) (funext fun call => ?_)
  simp [AllRun.view, AllRun.record, AllRun.callsOn, List.filter_append]

/-- Discovery on one port leaves the view of every other. -/
theorem AllRun.discoverPort_other {st st' : AllRun} {port : ℤ} (h : st.discoverPort w host p port = some st')
    {j : ℤ} (hj : j ≠ port) : st'.view j = st.view j := by
  obtain ⟨call, -, rfl⟩ := Option.map_eq_some_iff.mp h
  simp [AllRun.view, AllRun.record, AllRun.callsOn, List.filter_append, Function.update_of_ne hj, Ne.symm hj]

/-- The body of the second loop works on its port. -/
theorem AllRun.checkPort_self (st : AllRun) (port : ℤ) :
    (st.checkPort w host p port).map (AllRun.view port) =
      if p.admits (st.view port).service then (st.view port).step (w port) host port (fun _ svc => svc) p
      else some (st.view port) := by
  unfold AllRun.checkPort
  show Option.map _ (if p.admits (st.serviceOf port) then _ else _) =
    if p.admits (st.serviceOf port) then _ else _
  split
  · unfold PortView.step
    rw [Option.map_map]
    refine congrArg (Option.map · _) (funext fun call => ?_)
    simp [AllRun.view, AllRun.record, AllRun.callsOn, List.filter_append]
  · rfl

/-- A check on one port leaves the view of every other. -/
theorem AllRun.checkPort_other {st st' : AllRun} {port : ℤ} (h : st.checkPort w host p port = some st')
    {j : ℤ} (hj : j ≠ port) : st'.view j = st.view j := by
  unfold AllRun.checkPort at h
  split at h
  · obtain ⟨call, -, rfl⟩ := Option.map_eq_some_iff.mp h
    simp [AllRun.view, AllRun.record, AllRun.callsOn, List.filter_append, Function.update_of_ne hj, Ne.symm hj]
  · rw [Option.some.inj h]

variable (w host)

/-- `run_all` acts on every port by itself. -/
theorem runAll_splits (plugins : List LoadedPlugin) {ports : List ℤ} (h : ports.Nodup) :
    Splits ports AllRun.view
      (fun st => plugins.foldlM (AllRun.discover w host ports) st >>= fun st =>
        plugins.foldlM (AllRun.check w host ports) st)
      fun port t => viewRun (w port) plugins host port t := by
  refine Splits.bind (splits_foldlM plugins fun p _ => ?_) (splits_foldlM plugins fun p _ => ?_)
  · unfold AllRun.discover PortView.discover
    split
    · exact splits_keys h (fun st port => st.discoverPort_self port) fun _ _ _ h _ hj => AllRun.discoverPort_other h hj
    · exact splits_some
  · unfold AllRun.check PortView.check
    split
    · exact splits_some
    · exact splits_keys h (fun st port => st.checkPort_self port) fun _ _ _ h _ hj => AllRun.checkPort_other h hj

end Views

/-- The findings made of calls. -/
def findingsOf (calls : List RunCall) : List FindingOut := calls.flatMap (·.outcome.findings)

/-- The findings are those of the calls, in order, and the calls were made on the given ports. -/
structure AllRun.Accounted (ports : List ℤ) (st : AllRun) : Prop where
  findings : st.findings = st.calls.flatMap (·.2.outcome.findings)
  ports : ∀ c ∈ st.calls, c.1 ∈ ports

/-- A call on one of the ports keeps the calls accounted for. -/
theorem AllRun.Accounted.record {ports : List ℤ} {st : AllRun} (h : st.Accounted ports) {port : ℤ}
    (hport : port ∈ ports) (call : RunCall) (serviceOf : ℤ → Bytes) :
    AllRun.Accounted ports { st.record port call with serviceOf := serviceOf } where
  findings := by simp [AllRun.record, h.findings]
  ports c hc := by
    rcases List.mem_append.mp hc with hc | hc
    · exact h.ports c hc
    · rw [List.mem_singleton.mp hc]
      exact hport

/-- `run_all` accounts for its findings. -/
theorem runAll_accounted {w : ℤ → World} {plugins : List LoadedPlugin} {host : Bytes} {ports : List ℤ}
    {st : AllRun} (h : runAll w plugins host ports = some st) : st.Accounted ports := by
  obtain ⟨st₁, hfirst, hsecond⟩ := Option.bind_eq_some_iff.mp h
  have hst₁ : st₁.Accounted ports := by
    refine foldlM_invariant (fun st p _ st' hst hstep => ?_) ⟨rfl, by simp⟩ hfirst
    unfold AllRun.discover at hstep
    split at hstep
    · refine foldlM_invariant (fun st port hport st' hst hbody => ?_) hst hstep
      obtain ⟨call, -, rfl⟩ := Option.map_eq_some_iff.mp hbody
      exact hst.record hport call _
    · exact Option.some.inj hstep ▸ hst
  refine foldlM_invariant (fun st p _ st' hst hstep => ?_) hst₁ hsecond
  unfold AllRun.check at hstep
  split at hstep
  · exact Option.some.inj hstep ▸ hst
  · refine foldlM_invariant (fun st port hport st' hst hbody => ?_) hst hstep
    unfold AllRun.checkPort at hbody
    split at hbody
    · obtain ⟨call, -, rfl⟩ := Option.map_eq_some_iff.mp hbody
      exact hst.record hport call _
    · exact Option.some.inj hbody ▸ hst

/-- On a single port, the findings are those of the port. -/
theorem AllRun.Accounted.findings_single {port : ℤ} {st : AllRun} (h : st.Accounted [port]) :
    st.findings = findingsOf (st.callsOn port) := by
  have hall : st.calls.filter (·.1 = port) = st.calls := by
    refine List.filter_eq_self.mpr fun c hc => ?_
    simpa using h.ports c hc
  rw [h.findings, findingsOf, AllRun.callsOn, hall, List.flatMap_map]

/-- Ports are isolated: a joint run exists when the runs on the single ports do, and on every port it
makes the same calls, from the same KB and service and with the same results, as a run on that port
alone; the findings of the port are the findings of that run. -/
theorem runAll_isolated (w : ℤ → World) (plugins : List LoadedPlugin) (host : Bytes) {ports : List ℤ}
    (h : ports.Nodup) :
    ((runAll w plugins host ports).isSome ↔ ∀ port ∈ ports, (runAll w plugins host [port]).isSome) ∧
    ∀ st, runAll w plugins host ports = some st →
      st.findings = st.calls.flatMap (·.2.outcome.findings) ∧
      ∀ port ∈ ports, ∃ st', runAll w plugins host [port] = some st' ∧
        st.view port = st'.view port ∧ findingsOf (st.callsOn port) = st'.findings := by
  have hjoint := runAll_splits w host plugins h
  have hsingle : ∀ port : ℤ, Splits [port] AllRun.view _ _ := fun port =>
    runAll_splits w host plugins (List.nodup_singleton port)
  have hsome : ∀ port : ℤ, (runAll w plugins host [port]).isSome ↔
      (viewRun (w port) plugins host port (AllRun.view port {})).isSome := by
    intro port
    exact ((hsingle port).isSome_iff {}).trans (by simp)
  refine ⟨?_, fun st hst => ⟨(runAll_accounted hst).findings, fun port hport => ?_⟩⟩
  · simp only [hsome]
    exact hjoint.isSome_iff {}
  · have hview := hjoint.of_some hst port hport
    have hreturns : (runAll w plugins host [port]).isSome := by
      rw [hsome, hview]
      rfl
    obtain ⟨st', hst'⟩ := Option.isSome_iff_exists.mp hreturns
    have hview' := (hsingle port).of_some hst' port (List.mem_singleton_self port)
    have hsame : st.view port = st'.view port := Option.some.inj (hview.symm.trans hview')
    refine ⟨st', hst', hsame, ?_⟩
    rw [(runAll_accounted hst').findings_single]
    exact congrArg findingsOf (congrArg PortView.calls hsame)

/-- A network on which every connection is accepted. -/
def openNetwork : Network := { silentNetwork with connect := fun _ => true }

/-- A plugin that reports a port that accepts connections. -/
def reportOpen : List (Bytes × Bytes) :=
  [(str "open.ztl", str "plugin.filter(any: true); plugin.run \x7b
    c = net::tcp(host: target.host, port: target.port); if (c.connected()) \x7b finding(); \x7d \x7d")]

/-- A host on which port 80 is open and port 21 is not. -/
def webHost (port : ℤ) : World := ⟨if port = 80 then openNetwork else silentNetwork, []⟩

/-- The findings of port 80 are those of a run on port 80 alone. -/
theorem runAll_isolated_webHost : ∃ plugins st st',
    loadPluginsDir (webHost 80) (str "plugins") reportOpen = some plugins ∧
    runAll webHost plugins (str "10.0.0.1") [21, 80] = some st ∧
    runAll webHost plugins (str "10.0.0.1") [80] = some st' ∧
    findingsOf (st.callsOn 80) = st'.findings := by
  have hruns : ((loadPluginsDir (webHost 80) (str "plugins") reportOpen).bind fun plugins =>
      runAll webHost plugins (str "10.0.0.1") [21, 80]).isSome = true := by decide +kernel
  obtain ⟨st, hst⟩ := Option.isSome_iff_exists.mp hruns
  obtain ⟨plugins, hload, hrun⟩ := Option.bind_eq_some_iff.mp hst
  have hnodup : [(21 : ℤ), 80].Nodup := by decide
  obtain ⟨st', hst', -, hfindings⟩ :=
    ((runAll_isolated webHost plugins (str "10.0.0.1") hnodup).2 st hrun).2 80 (by decide)
  exact ⟨plugins, st, st', hload, hrun, hst', hfindings⟩

section Claims

variable (w : World) (host : Bytes) (port : ℤ)

/-- The discovery plugins, run one after the other: the service they leave, and what they leave behind. -/
def firstPass : List LoadedPlugin → Bytes → Store → Option (Bytes × Store)
  | [], svc, s => some (svc, s)
  | p :: plugins, svc, s =>
    if p.previewMeta.filterAny then do
      let (r, s) ← runPlugin w p host port svc true s
      firstPass plugins (claimed svc r.detectedService) s
    else firstPass plugins svc s

/-- Whether a plugin belongs to the second pass and is admitted under a service. -/
def LoadedPlugin.waitsFor (p : LoadedPlugin) (svc : Bytes) : Bool := !p.previewMeta.filterAny && p.admits svc

/-- The plugins of the second pass that the service admits are run under it, one after the other; none of
them claims another service that matters, because a later plugin waits for one of the two. -/
def ClaimsSettled (svc : Bytes) : List LoadedPlugin → Store → Prop
  | [], _ => True
  | p :: plugins, s =>
    if p.waitsFor svc then
      ∀ r s', runPlugin w p host port svc true s = some (r, s') →
        (claimed svc r.detectedService = svc ∨
          ∀ q ∈ plugins, q.waitsFor svc = false ∧ q.waitsFor r.detectedService = false) ∧
        ClaimsSettled svc plugins s'
    else ClaimsSettled svc plugins s

/-- No second-pass plugin claims another service that a later one waits for. -/
def SecondPassSettled (plugins : List LoadedPlugin) : Prop :=
  ∀ svc s, firstPass w host port plugins [] {} = some (svc, s) → ClaimsSettled w host port svc plugins s

variable (plugins : List LoadedPlugin)

/-- The schedulers agree on one port: they return the same findings, or neither returns. -/
def SchedulersAgree : Prop :=
  (runAll (fun _ => w) plugins host [port]).map (·.findings) =
    (runForPort w plugins host port []).map (·.findings)

variable {w host port plugins}

/-- The two schedulers before a step at which they have made the same calls. -/
structure PortRun.Tracks (st : PortRun) (t : PortView) : Prop where
  store : st.store = t.store
  calls : st.calls = t.calls

/-- In the first pass the services stay the same. -/
theorem PortRun.discover_rel {st : PortRun} {t : PortView} (h : st.Tracks t ∧ st.info.service = t.service)
    (p : LoadedPlugin) :
    Option.Rel (fun st t => PortRun.Tracks st t ∧ st.info.service = t.service)
      (st.discover w host port p) (t.discover w host port p) := by
  unfold PortRun.discover PortView.discover
  split
  · unfold PortRun.step PortView.step
    rw [h.2, h.1.store]
    cases callRun w host port p t.service t.store with
    | none => exact .none
    | some call => exact .some ⟨⟨rfl, by rw [h.1.calls]⟩, by simp [DetectedInfo.absorb, h.2]⟩
  · exact .some h

/-- The second pass of one port never changes its service. -/
theorem PortView.check_service {t t' : PortView} {p : LoadedPlugin} (h : t.check w host port p = some t') :
    t'.service = t.service := by
  unfold PortView.check at h
  split at h
  · rw [Option.some.inj h]
  · split at h
    · obtain ⟨call, -, rfl⟩ := Option.map_eq_some_iff.mp h
      rfl
    · rw [Option.some.inj h]

/-- A plugin of the second pass that is not admitted is skipped. -/
theorem PortRun.check_of_not_waitsFor {st : PortRun} {q : LoadedPlugin} (h : q.waitsFor st.info.service = false) :
    st.check w host port q = some st := by
  unfold PortRun.check
  unfold LoadedPlugin.waitsFor at h
  cases hany : q.previewMeta.filterAny with
  | true => rfl
  | false =>
    rw [hany, Bool.not_false, Bool.true_and] at h
    rw [if_neg Bool.false_ne_true, h, if_neg Bool.false_ne_true]

/-- So it is on one port of `run_all`. -/
theorem PortView.check_of_not_waitsFor {t : PortView} {q : LoadedPlugin} (h : q.waitsFor t.service = false) :
    t.check w host port q = some t := by
  unfold PortView.check
  unfold LoadedPlugin.waitsFor at h
  cases hany : q.previewMeta.filterAny with
  | true => rfl
  | false =>
    rw [hany, Bool.not_false, Bool.true_and] at h
    rw [if_neg Bool.false_ne_true, h, if_neg Bool.false_ne_true]

/-- A plugin that is admitted is run. -/
theorem PortRun.check_of_waitsFor {st : PortRun} {q : LoadedPlugin} (h : q.waitsFor st.info.service = true) :
    st.check w host port q = st.step w host port q := by
  obtain ⟨hany, hadmits⟩ := Bool.and_eq_true_iff.mp h
  rw [PortRun.check, if_neg (by simpa using hany), if_pos hadmits]

/-- A plugin that waits for the service of the port runs. -/
theorem PortView.check_of_waitsFor {t : PortView} {q : LoadedPlugin} (h : q.waitsFor t.service = true) :
    t.check w host port q = t.step w host port (fun _ svc => svc) q := by
  obtain ⟨hany, hadmits⟩ := Bool.and_eq_true_iff.mp h
  rw [PortView.check, if_neg (by simpa using hany), if_pos hadmits]

/-- A pass that admits nothing does nothing. -/
theorem PortRun.checks_of_not_waitsFor {l : List LoadedPlugin} {st : PortRun}
    (h : ∀ q ∈ l, q.waitsFor st.info.service = false) : l.foldlM (PortRun.check w host port) st = some st :=
  foldlM_fixed fun q hq => PortRun.check_of_not_waitsFor (h q hq)

/-- Plugins that do not wait for the service are passed over. -/
theorem PortView.checks_of_not_waitsFor {l : List LoadedPlugin} {t : PortView}
    (h : ∀ q ∈ l, q.waitsFor t.service = false) : l.foldlM (PortView.check w host port) t = some t :=
  foldlM_fixed fun q hq => PortView.check_of_not_waitsFor (h q hq)

/-- Where no plugin waits for the service, no claim is open. -/
theorem claimsSettled_of_not_waitsFor {svc : Bytes} {l : List LoadedPlugin} (h : ∀ q ∈ l, q.waitsFor svc = false)
    (s : Store) : ClaimsSettled w host port svc l s := by
  induction l with
  | nil => trivial
  | cons q l ih =>
    rw [ClaimsSettled, if_neg (by rw [h q List.mem_cons_self]; exact Bool.false_ne_true)]
    exact ih fun q hq => h q (List.mem_cons_of_mem _ hq)

/-- While no claim matters, the second passes make the same calls. -/
theorem checks_rel_of_claimsSettled {l : List LoadedPlugin} {st : PortRun} {t : PortView} (h : st.Tracks t)
    (hservice : st.info.service = t.service) (hsettled : ClaimsSettled w host port t.service l t.store) :
    Option.Rel PortRun.Tracks (l.foldlM (PortRun.check w host port) st) (l.foldlM (PortView.check w host port) t) := by
  induction l generalizing st t with
  | nil => exact .some h
  | cons q l ih =>
    rw [ClaimsSettled] at hsettled
    rw [List.foldlM_cons, List.foldlM_cons]
    cases hwaits : q.waitsFor t.service with
    | false =>
      rw [hwaits, if_neg Bool.false_ne_true] at hsettled
      rw [PortRun.check_of_not_waitsFor (hservice ▸ hwaits), PortView.check_of_not_waitsFor hwaits]
      exact ih h hservice hsettled
    | true =>
      rw [hwaits, if_pos rfl] at hsettled
      rw [PortRun.check_of_waitsFor (hservice ▸ hwaits), PortView.check_of_waitsFor hwaits, PortRun.step,
        PortView.step, hservice, h.store, callRun]
      cases hrun : runPlugin w q host port t.service true t.store with
      | none => exact .none
      | some result =>
        obtain ⟨r, s'⟩ := result
        obtain ⟨hclaim, hrest⟩ := hsettled r s' hrun
        have htracks : PortRun.Tracks
            { info := st.info.absorb r, findings := st.findings ++ r.findings, store := s',
              calls := st.calls ++ [⟨q, t.service, t.store, r, s'⟩] }
            { service := t.service, store := s', calls := t.calls ++ [⟨q, t.service, t.store, r, s'⟩] } :=
          ⟨rfl, by rw [h.calls]⟩
        rcases hclaim with hsame | hnone
        · exact ih htracks ((congrArg (claimed · r.detectedService) hservice).trans hsame) hrest
        · -- whatever was claimed, nothing is run any more
          have hafter : ∀ q ∈ l, q.waitsFor (claimed st.info.service r.detectedService) = false := by
            intro q hq
            unfold claimed
            split
            · rw [hservice]
              exact (hnone q hq).1
            · exact (hnone q hq).2
          let next : PortRun :=
            { info := st.info.absorb r, findings := st.findings ++ r.findings, store := s',
              calls := st.calls ++ [⟨q, t.service, t.store, r, s'⟩] }
          let seen : PortView :=
            { service := t.service, store := s', calls := t.calls ++ [⟨q, t.service, t.store, r, s'⟩] }
          have hst : l.foldlM (PortRun.check w host port) next = some next := PortRun.checks_of_not_waitsFor hafter
          have ht : l.foldlM (PortView.check w host port) seen = some seen :=
            PortView.checks_of_not_waitsFor fun q hq => (hnone q hq).1
          change Option.Rel PortRun.Tracks (l.foldlM (PortRun.check w host port) next)
            (l.foldlM (PortView.check w host port) seen)
          rw [hst, ht]
          exact .some htracks

/-- The calls of a second pass on one port are made under its one service. -/
theorem PortView.check_calls {l : List LoadedPlugin} {t t' : PortView}
    (h : l.foldlM (PortView.check w host port) t = some t') :
    ∃ made, t'.calls = t.calls ++ made ∧ ∀ c ∈ made, c.known = t.service := by
  have hinv : t'.service = t.service ∧ ∃ made, t'.calls = t.calls ++ made ∧ ∀ c ∈ made, c.known = t.service := by
    refine foldlM_invariant (P := fun u => u.service = t.service ∧ ∃ made, u.calls = t.calls ++ made ∧
      ∀ c ∈ made, c.known = t.service) (fun u q _ u' hu hstep => ?_) ⟨rfl, [], by simp, by simp⟩ h
    obtain ⟨hservice, made, hmade, hknown⟩ := hu
    refine ⟨(PortView.check_service hstep).trans hservice, ?_⟩
    unfold PortView.check at hstep
    split at hstep
    · exact ⟨made, Option.some.inj hstep ▸ hmade, hknown⟩
    · split at hstep
      · obtain ⟨call, hcall, rfl⟩ := Option.map_eq_some_iff.mp hstep
        obtain ⟨r, -, rfl⟩ := Option.map_eq_some_iff.mp hcall
        refine ⟨made ++ [RunCall.mk q u.service u.store r.1 r.2], by simp [hmade], fun c hc => ?_⟩
        rcases List.mem_append.mp hc with hc | hc
        · exact hknown c hc
        · rw [List.mem_singleton.mp hc]
          exact hservice
      · exact ⟨made, Option.some.inj hstep ▸ hmade, hknown⟩
  exact hinv.2

/-- The next call of `run_for_port` is made under the service in force. -/
theorem PortRun.check_calls {l : List LoadedPlugin} {st st' : PortRun}
    (h : l.foldlM (PortRun.check w host port) st = some st') :
    ∃ made, st'.calls = st.calls ++ made ∧ ∀ c rest, made = c :: rest → c.known = st.info.service := by
  induction l generalizing st with
  | nil =>
    cases h
    exact ⟨[], by simp, nofun⟩
  | cons q l ih =>
    rw [List.foldlM_cons] at h
    obtain ⟨st₁, hfirst, hrest⟩ := Option.bind_eq_some_iff.mp h
    obtain ⟨made, hmade, hknown⟩ := ih hrest
    unfold PortRun.check at hfirst
    split at hfirst
    · cases hfirst
      exact ⟨made, hmade, hknown⟩
    · split at hfirst
      · obtain ⟨call, hcall, rfl⟩ := Option.map_eq_some_iff.mp hfirst
        obtain ⟨r, -, rfl⟩ := Option.map_eq_some_iff.mp hcall
        refine ⟨RunCall.mk q st.info.service st.store r.1 r.2 :: made, by rw [hmade]; simp, ?_⟩
        rintro c rest hc
        rw [← (List.cons.inj hc).1]
      · cases hfirst
        exact ⟨made, hmade, hknown⟩

/-- A pass without calls has admitted nothing. -/
theorem PortRun.not_waitsFor_of_calls_eq {l : List LoadedPlugin} {st st' : PortRun}
    (h : l.foldlM (PortRun.check w host port) st = some st') (hcalls : st'.calls = st.calls) :
    ∀ q ∈ l, q.waitsFor st.info.service = false := by
  refine foldlM_idle (m := fun st => st.calls.length) (p := fun st q => q.waitsFor st.info.service)
    (fun st q hidle => PortRun.check_of_not_waitsFor hidle) (fun st q st' hwaits hstep => ?_) h (by rw [hcalls])
  rw [PortRun.check_of_waitsFor hwaits] at hstep
  obtain ⟨call, -, rfl⟩ := Option.map_eq_some_iff.mp hstep
  simp

/-- Where no call was made, no plugin waited for the service. -/
theorem PortView.not_waitsFor_of_calls_eq {l : List LoadedPlugin} {t t' : PortView}
    (h : l.foldlM (PortView.check w host port) t = some t') (hcalls : t'.calls = t.calls) :
    ∀ q ∈ l, q.waitsFor t.service = false := by
  refine foldlM_idle (m := fun t => t.calls.length) (p := fun t q => q.waitsFor t.service)
    (fun t q hidle => PortView.check_of_not_waitsFor hidle) (fun t q t' hwaits hstep => ?_) h (by rw [hcalls])
  rw [PortView.check_of_waitsFor hwaits] at hstep
  obtain ⟨call, -, rfl⟩ := Option.map_eq_some_iff.mp hstep
  simp

/-- Second passes with the same calls have had no claim that mattered. -/
theorem claimsSettled_of_calls_eq {l : List LoadedPlugin} {st st' : PortRun} {t t' : PortView} (h : st.Tracks t)
    (hservice : st.info.service = t.service) (hst : l.foldlM (PortRun.check w host port) st = some st')
    (ht : l.foldlM (PortView.check w host port) t = some t') (hcalls : st'.calls = t'.calls) :
    ClaimsSettled w host port t.service l t.store := by
  induction l generalizing st t with
  | nil => trivial
  | cons q l ih =>
    rw [ClaimsSettled]
    rw [List.foldlM_cons] at hst ht
    cases hwaits : q.waitsFor t.service with
    | false =>
      rw [if_neg Bool.false_ne_true]
      rw [PortRun.check_of_not_waitsFor (hservice ▸ hwaits)] at hst
      rw [PortView.check_of_not_waitsFor hwaits] at ht
      exact ih h hservice hst ht
    | true =>
      rw [if_pos rfl]
      intro r s' hrun
      rw [PortRun.check_of_waitsFor (hservice ▸ hwaits), PortRun.step, hservice, h.store, callRun, hrun] at hst
      rw [PortView.check_of_waitsFor hwaits, PortView.step, callRun, hrun] at ht
      have htracks : PortRun.Tracks
          { info := st.info.absorb r, findings := st.findings ++ r.findings, store := s',
            calls := st.calls ++ [⟨q, t.service, t.store, r, s'⟩] }
          { service := t.service, store := s', calls := t.calls ++ [⟨q, t.service, t.store, r, s'⟩] } :=
        ⟨rfl, by rw [h.calls]⟩
      replace hst : l.foldlM (PortRun.check w host port)
          { info := st.info.absorb r, findings := st.findings ++ r.findings, store := s',
            calls := st.calls ++ [⟨q, t.service, t.store, r, s'⟩] } = some st' := hst
      replace ht : l.foldlM (PortView.check w host port)
          { service := t.service, store := s', calls := t.calls ++ [⟨q, t.service, t.store, r, s'⟩] } = some t' := ht
      by_cases hclaim : claimed t.service r.detectedService = t.service
      · exact ⟨.inl hclaim, ih htracks ((congrArg (claimed · r.detectedService) hservice).trans hclaim) hst ht⟩
      · -- the next call would have been made under both services
        obtain ⟨made, hmade, hknown⟩ := PortRun.check_calls hst
        obtain ⟨made', hmade', hknown'⟩ := PortView.check_calls ht
        rw [hmade, hmade', htracks.calls] at hcalls
        obtain rfl := List.append_cancel_left hcalls
        cases made with
        | cons c rest =>
          have hboth := (hknown c rest rfl).symm.trans (hknown' c List.mem_cons_self)
          exact absurd ((congrArg (claimed · r.detectedService) hservice).symm.trans hboth) hclaim
        | nil =>
          rw [List.append_nil] at hmade hmade'
          have hview := PortView.not_waitsFor_of_calls_eq ht hmade'
          refine ⟨.inr fun q' hq' => ⟨hview q' hq', ?_⟩, claimsSettled_of_not_waitsFor hview s'⟩
          have hrun' := PortRun.not_waitsFor_of_calls_eq hst hmade q' hq'
          have hnew : (st.info.absorb r).service = r.detectedService := by
            change claimed st.info.service r.detectedService = _
            unfold claimed at hclaim ⊢
            split at hclaim
            · exact absurd rfl hclaim
            · next hne => rw [if_neg hne]
          rwa [← hnew]

/-- On one port, the first pass of `run_all` leaves the service and the store of `firstPass`. -/
theorem PortView.discovers_eq (l : List LoadedPlugin) (t : PortView) :
    (l.foldlM (PortView.discover w host port) t).map (fun t => (t.service, t.store)) =
      firstPass w host port l t.service t.store := by
  induction l generalizing t with
  | nil => rfl
  | cons p l ih =>
    rw [List.foldlM_cons, firstPass, PortView.discover]
    split
    · rw [PortView.step, callRun]
      cases runPlugin w p host port t.service true t.store with
      | none => rfl
      | some result => exact ih _
    · exact ih t

end Claims

/-- `run_for_port` returns the findings of its calls. -/
theorem PortRun.findings_eq_of_runForPort {w : World} {plugins : List LoadedPlugin} {host : Bytes} {port : ℤ}
    {initialService : Bytes} {st : PortRun} (h : runForPort w plugins host port initialService = some st) :
    st.findings = findingsOf st.calls := by
  refine runForPort_invariant (P := fun st => st.findings = findingsOf st.calls) rfl
    (fun st p st' hst hstep => ?_) h
  obtain ⟨call, -, rfl⟩ := Option.map_eq_some_iff.mp hstep
  simp [findingsOf, hst]

/-- On one port, `run_all` returns the calls that the port sees and their findings. -/
theorem runAll_single (w : World) (plugins : List LoadedPlugin) (host : Bytes) (port : ℤ) :
    (runAll (fun _ => w) plugins host [port]).map (fun st => (st.findings, st.callsOn port)) =
      (viewRun w plugins host port {}).map fun t => (findingsOf t.calls, t.calls) := by
  have hsplits := runAll_splits (fun _ => w) host plugins (List.nodup_singleton port)
  have hinit : AllRun.view port {} = {} := rfl
  cases hrun : runAll (fun _ => w) plugins host [port] with
  | none =>
    obtain ⟨k, hk, hnone⟩ := hsplits.of_none hrun
    obtain rfl := List.mem_singleton.mp hk
    rw [hinit] at hnone
    rw [hnone]
    rfl
  | some st =>
    have hview := hsplits.of_some hrun port (List.mem_singleton_self port)
    rw [hinit] at hview
    rw [hview, Option.map_some, Option.map_some, (runAll_accounted hrun).findings_single]
    rfl

/-- The first passes make the same calls, under the same service. -/
theorem discoveries_track (w : World) (plugins : List LoadedPlugin) (host : Bytes) (port : ℤ) :
    Option.Rel (fun st t => PortRun.Tracks st t ∧ st.info.service = t.service)
      (plugins.foldlM (PortRun.discover w host port) (PortRun.initial []))
      (plugins.foldlM (PortView.discover w host port) {}) :=
  foldlM_rel (fun _ _ p h => PortRun.discover_rel h p) plugins ⟨⟨rfl, rfl⟩, rfl⟩

/-- While no claim matters, the two schedulers make the same calls. -/
theorem runForPort_tracks {w : World} {plugins : List LoadedPlugin} {host : Bytes} {port : ℤ}
    (hsettled : SecondPassSettled w host port plugins) :
    Option.Rel PortRun.Tracks (runForPort w plugins host port []) (viewRun w plugins host port {}) := by
  have hpass : (plugins.foldlM (PortView.discover w host port) {}).map (fun t => (t.service, t.store)) =
      firstPass w host port plugins [] {} := PortView.discovers_eq plugins {}
  refine rel_bind (discoveries_track w plugins host port) fun st t _ ht htracks => ?_
  rw [ht] at hpass
  exact checks_rel_of_claimsSettled htracks.1 htracks.2 (hsettled _ _ hpass.symm)

/-- Where the two schedulers make the same calls, no claim has mattered. -/
theorem settled_of_calls_eq {w : World} {plugins : List LoadedPlugin} {host : Bytes} {port : ℤ} {st' : PortRun}
    {t' : PortView} (hst : runForPort w plugins host port [] = some st')
    (ht : viewRun w plugins host port {} = some t') (hcalls : st'.calls = t'.calls) :
    SecondPassSettled w host port plugins := by
  intro svc s hsvc
  obtain ⟨st, hstart, hst⟩ := Option.bind_eq_some_iff.mp hst
  obtain ⟨t, hview, ht⟩ := Option.bind_eq_some_iff.mp ht
  have hpass : (plugins.foldlM (PortView.discover w host port) {}).map (fun t => (t.service, t.store)) =
      firstPass w host port plugins [] {} := PortView.discovers_eq plugins {}
  have htracks := discoveries_track w plugins host port
  rw [hview, hsvc] at hpass
  cases hpass
  rw [hstart, hview] at htracks
  cases htracks with
  | some h => exact claimsSettled_of_calls_eq h.1 h.2 hst ht hcalls

/-- When no second-pass plugin claims another service that a later one waits for, the schedulers agree on the
port; when one does, they make different runs. -/
theorem schedulersAgree_of_settled (w : World) (plugins : List LoadedPlugin) (host : Bytes) (port : ℤ) :
    (SecondPassSettled w host port plugins → SchedulersAgree w host port plugins) ∧
    (¬SecondPassSettled w host port plugins → ∀ st st', runAll (fun _ => w) plugins host [port] = some st →
      runForPort w plugins host port [] = some st' → st.callsOn port ≠ st'.calls) := by
  have hview := runAll_single w plugins host port
  constructor
  · intro hsettled
    have hall : (runAll (fun _ => w) plugins host [port]).map (·.findings) =
        (viewRun w plugins host port {}).map fun t => findingsOf t.calls := by
      have hfst := congrArg (Option.map Prod.fst) hview
      rwa [Option.map_map, Option.map_map] at hfst
    have hport : (runForPort w plugins host port []).map (·.findings) =
        (viewRun w plugins host port {}).map fun t => findingsOf t.calls := by
      refine map_eq_of_rel (runForPort_tracks hsettled) fun st t hst htracks => ?_
      rw [PortRun.findings_eq_of_runForPort hst, htracks.calls]
    exact hall.trans hport.symm
  · intro hunsettled st st' hrunAll hrunPort hcalls
    rw [hrunAll, Option.map_some] at hview
    obtain ⟨t, ht, hpair⟩ := Option.map_eq_some_iff.mp hview.symm
    exact hunsettled (settled_of_calls_eq hrunPort ht (hcalls.symm.trans (congrArg Prod.snd hpair).symm))

/-- A second-pass plugin that claims a service, and one that waits for that service. -/
def claimAndWait : List (Bytes × Bytes) :=
  [(str "claim.ztl", str "plugin.run \x7b plugin.set_service(\"http\"); \x7d"),
   (str "wait.ztl", str "plugin.filter(service: \"http\"); plugin.run \x7b finding(title: \"seen\"); \x7d")]

/-- `run_all` misses the service that a second-pass plugin claims, `run_for_port` does not. -/
theorem runAll_claimAndWait :
    (loadPluginsDir ⟨silentNetwork, []⟩ (str "plugins") claimAndWait).map (fun plugins =>
      ((runAll (fun _ => ⟨silentNetwork, []⟩) plugins (str "10.0.0.1") [80]).map (·.findings.map (·.title)),
       (runForPort ⟨silentNetwork, []⟩ plugins (str "10.0.0.1") 80 []).map (·.findings.map (·.title)))) =
      some (some [], some [str "seen"]) := by decide +kernel

end ZeroTrust.Ztl
