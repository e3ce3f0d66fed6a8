import ZeroTrust.Lib.Components
import ZeroTrust.Ztl.Callbacks
import ZeroTrust.Ztl.Runner
import ZeroTrust.Ztl.Shipped

/-!
# Service detection and the order of plugins

`run_for_port` reports, field by field, the last claim that is not empty. The order of the plugin
list is all that decides between claims: reordering within a pass changes the result as soon as two
plugins of the pass disagree, and only then.
-/

namespace ZeroTrust.Ztl

section Passes

variable (w : World) (host : Bytes) (port : ℤ)

/-- The first loop runs the first-pass plugins in their order. -/
theorem foldlM_discover (plugins : List LoadedPlugin) (st : PortRun) :
    plugins.foldlM (PortRun.discover w host port) st =
      (plugins.filter (·.previewMeta.filterAny)).foldlM (PortRun.step w host port) st :=
  List.foldlM_filter.symm

/-- The second loop considers the other plugins in their order. -/
theorem foldlM_check (plugins : List LoadedPlugin) (st : PortRun) :
    plugins.foldlM (PortRun.check w host port) st =
      (plugins.filter (!·.previewMeta.filterAny)).foldlM (PortRun.check w host port) st := by
  rw [List.foldlM_filter]
  refine congrArg (fun f => List.foldlM f st plugins) (funext fun st => funext fun p => ?_)
  unfold PortRun.check
  cases p.previewMeta.filterAny <;> rfl

/-- The result depends on the order within each pass only. -/
theorem runForPort_congr {plugins plugins' : List LoadedPlugin}
    (hfirst : plugins'.filter (·.previewMeta.filterAny) = plugins.filter (·.previewMeta.filterAny))
    (hsecond : plugins'.filter (!·.previewMeta.filterAny) = plugins.filter (!·.previewMeta.filterAny))
    (initialService : Bytes) :
    runForPort w plugins' host port initialService = runForPort w plugins host port initialService := by
  unfold runForPort
  rw [foldlM_discover, foldlM_discover, hfirst]
  refine congrArg _ (funext fun st => ?_)
  rw [foldlM_check, foldlM_check w host port plugins, hsecond]

end Passes

/-- What a run claims. -/
def RunOutcome.claims (r : RunOutcome) : DetectedInfo where
  service := r.detectedService
  product := r.detectedProduct
  version := r.detectedVersion

/-- The info after a claim. -/
def DetectedInfo.claim (info c : DetectedInfo) : DetectedInfo where
  service := claimed info.service c.service
  product := claimed info.product c.product
  version := claimed info.version c.version

/-- Two values that are equal unless one is empty. -/
def Agree (x y : Bytes) : Prop := x ≠ [] → y ≠ [] → x = y

/-- Claims that do not contradict each other. -/
structure DetectedInfo.Compatible (c d : DetectedInfo) : Prop where
  service : Agree c.service d.service
  product : Agree c.product d.product
  version : Agree c.version d.version

/-- An empty claim leaves what was known. -/
theorem claimed_nil (old : Bytes) : claimed old [] = old := rfl

/-- Any other claim replaces it. -/
theorem claimed_of_ne_nil (old : Bytes) {new : Bytes} (h : new ≠ []) : claimed old new = new := by
  unfold claimed
  rw [if_neg (by simpa using h)]

/-- Agreeing values can be claimed in any order. -/
theorem Agree.claimed_comm {x y : Bytes} (h : Agree x y) (old : Bytes) :
    claimed (claimed old x) y = claimed (claimed old y) x := by
  by_cases hx : x = []
  · subst hx
    rw [claimed_nil, claimed_nil]
  · by_cases hy : y = []
    · subst hy
      rw [claimed_nil, claimed_nil]
    · rw [claimed_of_ne_nil _ hy, claimed_of_ne_nil _ hx, h hx hy]

/-- Compatible claims commute. -/
theorem DetectedInfo.Compatible.claim_comm {c d : DetectedInfo} (h : c.Compatible d) (info : DetectedInfo) :
    (info.claim c).claim d = (info.claim d).claim c := by
  unfold DetectedInfo.claim
  simp only [h.service.claimed_comm, h.product.claimed_comm, h.version.claimed_comm]

/-- A claim of the service in force changes no gate. -/
theorem claimed_eq_self {old new : Bytes} (h : new ≠ [] → new = old) : claimed old new = old := by
  by_cases hnew : new = []
  · rw [hnew, claimed_nil]
  · rw [claimed_of_ne_nil old hnew, h hnew]

section Steady

variable (w : World) (host : Bytes) (port : ℤ)

/-- The plugins return and claim the same whatever ran before them. -/
def Steady (claims : LoadedPlugin → DetectedInfo) (plugins : List LoadedPlugin) : Prop :=
  ∀ p ∈ plugins, ∀ (known : Bytes) (s : Store), ∃ r s', runPlugin w p host port known true s = some (r, s') ∧
    r.claims = claims p

variable {w host port} {claims : LoadedPlugin → DetectedInfo} {plugins : List LoadedPlugin}

/-- A run of a steady plugin absorbs its claim. -/
theorem Steady.step (h : Steady w host port claims plugins) {p : LoadedPlugin} (hp : p ∈ plugins) (st : PortRun) :
    ∃ st', st.step w host port p = some st' ∧ st'.info = st.info.claim (claims p) := by
  obtain ⟨r, s', hrun, hclaims⟩ := h p hp st.info.service st.store
  refine ⟨_, by rw [PortRun.step, callRun, hrun]; rfl, ?_⟩
  rw [← hclaims]
  rfl

/-- The first pass over steady plugins folds their claims. -/
theorem Steady.foldlM_step (h : Steady w host port claims plugins) {l : List LoadedPlugin} (hl : l ⊆ plugins)
    (st : PortRun) :
    ∃ st', l.foldlM (PortRun.step w host port) st = some st' ∧
      st'.info = l.foldl (fun info p => info.claim (claims p)) st.info := by
  induction l generalizing st with
  | nil => exact ⟨st, rfl, rfl⟩
  | cons p l ih =>
    obtain ⟨st₁, hstep, hinfo⟩ := h.step (hl (List.mem_cons_self ..)) st
    obtain ⟨st', hrest, hinfo'⟩ := ih (fun q hq => hl (List.mem_cons_of_mem p hq)) st₁
    refine ⟨st', ?_, ?_⟩
    · rw [List.foldlM_cons, hstep]
      exact hrest
    · rw [hinfo', hinfo]
      rfl

/-- The second pass over steady plugins that leave the service alone folds the claims of those that
it admits. -/
theorem Steady.foldlM_check (h : Steady w host port claims plugins) {l : List LoadedPlugin} (hl : l ⊆ plugins)
    (hany : ∀ p ∈ l, p.previewMeta.filterAny = false) (st : PortRun)
    (hservice : ∀ p ∈ l, p.admits st.info.service = true → (claims p).service ≠ [] →
      (claims p).service = st.info.service) :
    ∃ st', l.foldlM (PortRun.check w host port) st = some st' ∧
      st'.info = (l.filter (·.admits st.info.service)).foldl (fun info p => info.claim (claims p)) st.info := by
  induction l generalizing st with
  | nil => exact ⟨st, rfl, rfl⟩
  | cons p l ih =>
    have hp : p ∈ p :: l := List.mem_cons_self ..
    have hsub : l ⊆ plugins := fun q hq => hl (List.mem_cons_of_mem p hq)
    have hany' : ∀ q ∈ l, q.previewMeta.filterAny = false := fun q hq => hany q (List.mem_cons_of_mem p hq)
    rw [List.foldlM_cons, PortRun.check, if_neg (by simp [hany p hp]), List.filter_cons]
    by_cases hadmits : p.admits st.info.service = true
    · obtain ⟨st₁, hstep, hinfo⟩ := h.step (hl hp) st
      have hsame : st₁.info.service = st.info.service := by
        rw [hinfo]
        exact claimed_eq_self (hservice p hp hadmits)
      obtain ⟨st', hrest, hinfo'⟩ := ih hsub hany' st₁ fun q hq => by
        rw [hsame]
        exact hservice q (List.mem_cons_of_mem p hq)
      rw [if_pos hadmits, if_pos hadmits, hstep]
      refine ⟨st', hrest, ?_⟩
      rw [hinfo', hsame, hinfo]
      rfl
    · rw [if_neg hadmits, if_neg hadmits]
      exact ih hsub hany' st fun q hq => hservice q (List.mem_cons_of_mem p hq)

/-- The first-pass plugins of a list. -/
def discoverers (plugins : List LoadedPlugin) : List LoadedPlugin := plugins.filter (·.previewMeta.filterAny)

/-- The second-pass plugins of a list. -/
def checkers (plugins : List LoadedPlugin) : List LoadedPlugin := plugins.filter (!·.previewMeta.filterAny)

/-- What the first pass finds. -/
def firstInfo (claims : LoadedPlugin → DetectedInfo) (initialService : Bytes) (plugins : List LoadedPlugin) :
    DetectedInfo :=
  (discoverers plugins).foldl (fun info p => info.claim (claims p)) { service := initialService }

/-- The second-pass plugins that the service of the first pass admits. -/
def admitted (claims : LoadedPlugin → DetectedInfo) (initialService : Bytes) (plugins : List LoadedPlugin) :
    List LoadedPlugin :=
  (checkers plugins).filter (·.admits (firstInfo claims initialService plugins).service)

/-- No admitted second-pass plugin moves the gate. -/
def GateFixed (claims : LoadedPlugin → DetectedInfo) (initialService : Bytes) (plugins : List LoadedPlugin) :
    Prop :=
  ∀ p ∈ admitted claims initialService plugins,
    (claims p).service ≠ [] → (claims p).service = (firstInfo claims initialService plugins).service

/-- What `run_for_port` reports for steady plugins. -/
theorem Steady.runForPort (h : Steady w host port claims plugins) {initialService : Bytes}
    (hgate : GateFixed claims initialService plugins) :
    ∃ st, runForPort w plugins host port initialService = some st ∧
      st.info = (admitted claims initialService plugins).foldl (fun info p => info.claim (claims p))
        (firstInfo claims initialService plugins) := by
  obtain ⟨st₁, hfirst, hinfo⟩ := h.foldlM_step (l := discoverers plugins)
    (fun p hp => (List.mem_filter.mp hp).1) (PortRun.initial initialService)
  have hinfo₁ : st₁.info = firstInfo claims initialService plugins := hinfo
  obtain ⟨st, hsecond, hinfo'⟩ := h.foldlM_check (l := checkers plugins)
    (fun p hp => (List.mem_filter.mp hp).1) (fun p hp => by simpa using (List.mem_filter.mp hp).2) st₁ fun p hp => by
      rw [hinfo₁]
      exact fun hadmits => hgate p (List.mem_filter.mpr ⟨hp, hadmits⟩)
  refine ⟨st, ?_, ?_⟩
  · unfold Ztl.runForPort
    rw [foldlM_discover, show plugins.filter _ = discoverers plugins from rfl, hfirst]
    exact (Ztl.foldlM_check w host port plugins st₁).trans hsecond
  · rw [hinfo', hinfo₁]
    rfl

/-- Compatible claims can be folded in any order. -/
theorem foldl_claim_perm {l l' : List LoadedPlugin} (hperm : l.Perm l')
    (hcompat : ∀ p ∈ l, ∀ q ∈ l, (claims p).Compatible (claims q)) (info : DetectedInfo) :
    l.foldl (fun info p => info.claim (claims p)) info = l'.foldl (fun info p => info.claim (claims p)) info :=
  hperm.foldl_eq' (fun p hp q hq info => (hcompat p hp q hq).claim_comm info) info

/-- Claims that are compatible within each pass are detected in any order. -/
theorem Steady.runForPort_perm (h : Steady w host port claims plugins) {initialService : Bytes}
    (hgate : GateFixed claims initialService plugins)
    (hfirst : ∀ p ∈ discoverers plugins, ∀ q ∈ discoverers plugins, (claims p).Compatible (claims q))
    (hsecond : ∀ p ∈ admitted claims initialService plugins, ∀ q ∈ admitted claims initialService plugins,
      (claims p).Compatible (claims q))
    {plugins' : List LoadedPlugin} (hperm : plugins'.Perm plugins) :
    ∃ st st', Ztl.runForPort w plugins host port initialService = some st ∧
      Ztl.runForPort w plugins' host port initialService = some st' ∧ st'.info = st.info := by
  have hinfo : firstInfo claims initialService plugins' = firstInfo claims initialService plugins :=
    (foldl_claim_perm (hperm.filter _).symm hfirst _).symm
  have hadmitted : (admitted claims initialService plugins').Perm (admitted claims initialService plugins) := by
    unfold admitted
    rw [hinfo]
    exact (hperm.filter _).filter _
  have hgate' : GateFixed claims initialService plugins' := by
    intro p hp
    rw [hinfo]
    exact hgate p (hadmitted.mem_iff.mp hp)
  have h' : Steady w host port claims plugins' := fun p hp => h p (hperm.mem_iff.mp hp)
  obtain ⟨st, hrun, hst⟩ := h.runForPort hgate
  obtain ⟨st', hrun', hst'⟩ := h'.runForPort hgate'
  refine ⟨st, st', hrun, hrun', ?_⟩
  rw [hst', hst, hinfo]
  exact (foldl_claim_perm hadmitted.symm hsecond _).symm

/-- Empty claims change nothing. -/
theorem foldl_claim_of_silent {l : List LoadedPlugin} (h : ∀ p ∈ l, claims p = {}) (info : DetectedInfo) :
    l.foldl (fun info p => info.claim (claims p)) info = info := by
  rw [List.foldl_ext _ (fun info _ => info) info fun info p hp => by rw [h p hp]; rfl]
  exact List.foldl_fixed l

/-- Detection with a second pass that claims nothing. -/
theorem Steady.runForPort_of_silent (h : Steady w host port claims plugins) (initialService : Bytes)
    (hsilent : ∀ p ∈ checkers plugins, claims p = {}) :
    ∃ st, Ztl.runForPort w plugins host port initialService = some st ∧
      st.info = firstInfo claims initialService plugins := by
  have hadmitted : ∀ p ∈ admitted claims initialService plugins, claims p = {} := fun p hp =>
    hsilent p (List.mem_filter.mp hp).1
  obtain ⟨st, hrun, hst⟩ := @Steady.runForPort _ _ _ _ _ h initialService fun p hp hne => by
    rw [hadmitted p hp] at hne
    exact (hne rfl).elim
  exact ⟨st, hrun, hst.trans (foldl_claim_of_silent hadmitted _)⟩

/-- The plugin that discovers last has the last word. -/
theorem exists_perm_last (claims : LoadedPlugin → DetectedInfo) (initialService : Bytes) {p : LoadedPlugin}
    (hp : p ∈ discoverers plugins) : ∃ (plugins' : List LoadedPlugin) (info : DetectedInfo),
      plugins'.Perm plugins ∧ firstInfo claims initialService plugins' = info.claim (claims p) := by
  obtain ⟨hmem, hany⟩ := List.mem_filter.mp hp
  obtain ⟨before, after, rfl⟩ := List.append_of_mem hmem
  refine ⟨before ++ (after ++ [p]), firstInfo claims initialService (before ++ after), ?_, ?_⟩
  · exact List.Perm.append_left before (List.perm_append_singleton p after)
  · have hlast : discoverers (before ++ (after ++ [p])) = discoverers (before ++ after) ++ [p] := by
      simp [discoverers, hany]
    rw [firstInfo, hlast, List.foldl_append]
    rfl

/-- Values that contradict each other leave different traces. -/
theorem claimed_ne_of_not_agree {x y : Bytes} (h : ¬Agree x y) (old old' : Bytes) : claimed old x ≠ claimed old' y := by
  unfold Agree at h
  push Not at h
  obtain ⟨hx, hy, hne⟩ := h
  rw [claimed_of_ne_nil old hx, claimed_of_ne_nil old' hy]
  exact hne

/-- Claims that are not compatible end in different infos, in whatever order. -/
theorem claim_ne_of_not_compatible {c d : DetectedInfo} (h : ¬c.Compatible d) (info info' : DetectedInfo) :
    info.claim c ≠ info'.claim d := by
  intro heq
  refine h ⟨?_, ?_, ?_⟩
  · by_contra hne
    exact claimed_ne_of_not_agree hne _ _ (congrArg DetectedInfo.service heq)
  · by_contra hne
    exact claimed_ne_of_not_agree hne _ _ (congrArg DetectedInfo.product heq)
  · by_contra hne
    exact claimed_ne_of_not_agree hne _ _ (congrArg DetectedInfo.version heq)

/-- Every order of the plugins detects the same. -/
def OrderIndependent (w : World) (host : Bytes) (port : ℤ) (initialService : Bytes) (plugins : List LoadedPlugin) :
    Prop :=
  ∀ plugins' : List LoadedPlugin, plugins'.Perm plugins →
    (Ztl.runForPort w plugins' host port initialService).map (·.info) =
      (Ztl.runForPort w plugins host port initialService).map (·.info)

/-- With a second pass that claims nothing, detection is independent of the order of the plugins
exactly when no two first-pass plugins contradict each other. -/
theorem Steady.orderIndependent_iff (h : Steady w host port claims plugins) (initialService : Bytes)
    (hsilent : ∀ p ∈ checkers plugins, claims p = {}) :
    OrderIndependent w host port initialService plugins ↔
      ∀ p ∈ discoverers plugins, ∀ q ∈ discoverers plugins, (claims p).Compatible (claims q) := by
  have hinfo : ∀ plugins' : List LoadedPlugin, plugins'.Perm plugins →
      (Ztl.runForPort w plugins' host port initialService).map (·.info) =
        some (firstInfo claims initialService plugins') := by
    intro plugins' hperm
    have h' : Steady w host port claims plugins' := fun p hp => h p (hperm.mem_iff.mp hp)
    obtain ⟨st, hrun, hst⟩ := h'.runForPort_of_silent initialService fun p hp =>
      hsilent p ((hperm.filter _).mem_iff.mp hp)
    rw [hrun, Option.map_some, hst]
  constructor
  · intro hall p hp q hq
    by_contra hne
    obtain ⟨first, info, hperm, hfirst⟩ := exists_perm_last claims initialService hp
    obtain ⟨second, info', hperm', hsecond⟩ := exists_perm_last claims initialService hq
    have heq := (hall first hperm).trans (hall second hperm').symm
    rw [hinfo first hperm, hinfo second hperm', hfirst, hsecond] at heq
    exact claim_ne_of_not_compatible hne info info' (Option.some.inj heq)
  · intro hcompat plugins' hperm
    rw [hinfo plugins' hperm, hinfo plugins (List.Perm.refl plugins)]
    exact congrArg some (foldl_claim_perm (hperm.filter _).symm hcompat _).symm

end Steady

/-- The order of the plugins matters only within the two passes. Plugins whose claims do not depend on
what ran before them, that do not contradict each other within a pass, and of which those that the
second pass admits leave its gate alone, detect the same in every order; with a second pass that
claims nothing, they do so only if no two first-pass plugins contradict each other. -/
theorem detection_order (w : World) (host : Bytes) (port : ℤ) (initialService : Bytes) (plugins : List LoadedPlugin) :
    (∀ plugins' : List LoadedPlugin, discoverers plugins' = discoverers plugins →
      checkers plugins' = checkers plugins →
        runForPort w plugins' host port initialService = runForPort w plugins host port initialService) ∧
    ∀ claims : LoadedPlugin → DetectedInfo, Steady w host port claims plugins →
      (GateFixed claims initialService plugins →
        (∀ p ∈ discoverers plugins, ∀ q ∈ discoverers plugins, (claims p).Compatible (claims q)) →
        (∀ p ∈ admitted claims initialService plugins, ∀ q ∈ admitted claims initialService plugins,
          (claims p).Compatible (claims q)) →
        (runForPort w plugins host port initialService).isSome ∧
          OrderIndependent w host port initialService plugins) ∧
      ((∀ p ∈ checkers plugins, claims p = {}) →
        (OrderIndependent w host port initialService plugins ↔
          ∀ p ∈ discoverers plugins, ∀ q ∈ discoverers plugins, (claims p).Compatible (claims q))) := by
  refine ⟨fun plugins' hfirst hsecond => runForPort_congr w host port hfirst hsecond initialService,
    fun claims hsteady => ⟨fun hgate hfirst hsecond => ⟨?_, fun plugins' hperm => ?_⟩,
      hsteady.orderIndependent_iff initialService⟩⟩
  · obtain ⟨st, hrun, -⟩ := hsteady.runForPort hgate
    rw [hrun]
    rfl
  · obtain ⟨st, st', hrun, hrun', hinfo⟩ := hsteady.runForPort_perm hgate hfirst hsecond hperm
    rw [hrun, hrun', Option.map_some, Option.map_some, hinfo]

/-- A plugin that claims a service and does nothing else. -/
def claimProgram (svc : Bytes) : Program where
  statements := [.expr {} (.call {} (.member {} (.ident {} (str "plugin")) (str "set_service"))
    [.mk [] (.string {} svc)] none)]

/-- `plugin.set_service(svc)` claims the service and leaves the other claims. -/
theorem pluginSetService_run (run : ℕ) (svc : Bytes) (pos : Pos) (self : Value) (m : Machine) :
    ∃ m', pluginSetService run ⟨self, [.string svc], Env.empty, pos⟩ m = .ok .null m' ∧
      (m'.store.runs run).setService = svc ∧ (m'.store.runs run).setProduct = (m.store.runs run).setProduct ∧
      (m'.store.runs run).setVersion = (m.store.runs run).setVersion := by
  refine ⟨_, rfl, ?_, ?_, ?_⟩
  · simp [Store.withRun, Store.claim]
  · simp [Store.withRun, Store.claim]
  · simp [Store.withRun, Store.claim]

/-- Whatever ran before it, the plugin claims its service. -/
theorem runPlugin_claimProgram (w : World) {p : LoadedPlugin} {svc : Bytes} (hp : p.program = claimProgram svc)
    (host : Bytes) (port : ℤ) (known : Bytes) (hasKb : Bool) (s : Store) :
    ∃ r s', runPlugin w p host port known hasKb s = some (r, s') ∧ r.claims = { service := svc } := by
  obtain ⟨m, hregister, hsilent, hglobal, hmethods⟩ :=
    registerStdlib_plugin s.nextRun (initialMachine p host port known hasKb s)
  have hlocals : m.locals = [] := hsilent.locals
  have hreceiver : evalExpr w (.ident {} (str "plugin")) m = .ok (.object (s.next + 6)) m := by
    unfold evalExpr readVariable
    rw [Effect.gets_bind_run, hlocals, lookup, hglobal]
    rfl
  obtain ⟨m', hset, hservice, hproduct, hversion⟩ :=
    pluginSetService_run s.nextRun svc {} (.object (s.next + 6))
      (m.record ⟨s.next + 4, .pluginSetService s.nextRun⟩ ⟨.object (s.next + 6), [.string svc], Env.empty, {}⟩)
  have hcall : evalExpr w (.call {} (.member {} (.ident {} (str "plugin")) (str "set_service"))
      [.mk [] (.string {} svc)] none) m = .ok .null m' := by
    show (evalExpr w (.ident {} (str "plugin")) >>= fun receiver =>
      invokeMethod w receiver (str "set_service") ⟨[.string svc], Env.empty⟩ none {}) m = _
    rw [Effect.bind_run_ok hreceiver]
    have hmethod : (m.store.objects (s.next + 6)).methods (str "set_service") =
        some ⟨s.next + 4, .pluginSetService s.nextRun⟩ := by
      rw [show (m.store.objects (s.next + 6)).methods = methodTable s.next (pluginMethods s.nextRun) from hmethods]
      rfl
    simp only [invokeMethod, readStore, Effect.gets_bind_run, hmethod]
    exact hset
  have hrun : interpretPlugin w p s.nextRun (initialMachine p host port known hasKb s) = .ok () m' := by
    unfold interpretPlugin runProgram
    rw [Effect.bind_run_ok hregister, hp]
    have hstmt : execStmt w (.expr {} (.call {} (.member {} (.ident {} (str "plugin")) (str "set_service"))
        [.mk [] (.string {} svc)] none)) m = .ok () m' := Effect.bind_run_ok hcall _
    exact Effect.bind_run_ok hstmt _
  have hproduct₀ : (m.store.runs s.nextRun).setProduct = [] := by
    rw [hsilent.runs]
    simp [initialMachine, Store.begin]
  have hversion₀ : (m.store.runs s.nextRun).setVersion = [] := by
    rw [hsilent.runs]
    simp [initialMachine, Store.begin]
  refine ⟨(m'.store.runs s.nextRun).outcome, m'.store, ?_, ?_⟩
  · rw [runPlugin, runPluginEval, Effect.tryCatch_run_ok hrun]
  · unfold RunOutcome.claims RunState.outcome
    rw [hservice, hproduct, hversion]
    show DetectedInfo.mk svc (m.store.runs s.nextRun).setProduct (m.store.runs s.nextRun).setVersion = _
    rw [hproduct₀, hversion₀]

/-- A first-pass plugin that claims `ftp`. -/
def claimsFtp (path : Bytes) : LoadedPlugin where
  program := claimProgram (str "ftp")
  sourcePath := path
  previewMeta := { filterAny := true }

/-- A server that greets everyone with the same words. -/
def greetingWorld (greeting : Bytes) : World where
  net :=
    { connect := fun _ => true
      send := fun _ => some true
      receive := fun _ => some greeting
      handshake := fun _ => some {}
      clock := fun _ => 0 }
  cves := []

/-- Two plugins that claim the same service do not depend on their order. -/
theorem detection_order_ftp :
    OrderIndependent (greetingWorld (str "220 ftp")) (str "10.0.0.1") 21 []
      [claimsFtp (str "a.ztl"), claimsFtp (str "b.ztl")] := by
  have hsteady : Steady (greetingWorld (str "220 ftp")) (str "10.0.0.1") 21 (fun _ => { service := str "ftp" })
      [claimsFtp (str "a.ztl"), claimsFtp (str "b.ztl")] := by
    intro p hp known s
    have hprogram : p.program = claimProgram (str "ftp") := by
      simp only [List.mem_cons, List.not_mem_nil, or_false] at hp
      rcases hp with rfl | rfl <;> rfl
    exact runPlugin_claimProgram _ hprogram _ _ _ _ s
  have hsame : ∀ x : Bytes, Agree x x := fun _ _ _ => rfl
  have hgate : GateFixed (fun _ => { service := str "ftp" }) [] [claimsFtp (str "a.ztl"), claimsFtp (str "b.ztl")] :=
    fun _ _ _ => rfl
  exact (((detection_order _ _ _ _ _).2 _ hsteady).1 hgate (fun _ _ _ _ => ⟨hsame _, hsame _, hsame _⟩)
    fun _ _ _ _ => ⟨hsame _, hsame _, hsame _⟩).2

/-- Load plugins whose text is already parsed. -/
def loadParsed (w : World) (programs : List (Bytes × Program)) : Option (List LoadedPlugin) :=
  programs.mapM fun (path, program) =>
    (preload w program path).map fun previewMeta => ⟨program, path, previewMeta⟩

/-- What `run_for_port` detects on a port, with the plugins in the given order and in the reverse order. -/
def detectBothWays (w : World) (host : Bytes) (port : ℤ) (plugins : List LoadedPlugin) :
    Option DetectedInfo × Option DetectedInfo :=
  ((runForPort w plugins host port []).map (·.info), (runForPort w plugins.reverse host port []).map (·.info))

/-- A plugin that leaves a note in the KB, and one that claims a service if it finds the note. -/
def noteAndRead : List (Bytes × Bytes) :=
  [(str "note.ztl", str "plugin.filter(any: true); plugin.run \x7b kb.set(\"k\", 1); \x7d"),
   (str "read.ztl", str "plugin.filter(any: true); plugin.run \x7b
      if (kb.has(\"k\")) \x7b plugin.set_service(\"a\"); \x7d \x7d")]

/-- A second-pass plugin that names the service, and one that wants the service still unnamed. -/
def nameAndRefine : List (Bytes × Bytes) :=
  [(str "a.ztl", str "plugin.filter(any: true); plugin.run \x7b plugin.set_service(\"a\"); \x7d"),
   (str "b.ztl", str "plugin.filter(service: \"a\"); plugin.run \x7b plugin.set_service(\"b\"); \x7d"),
   (str "c.ztl", str "plugin.filter(service: \"a\"); plugin.run \x7b plugin.set_service(\"\", product: \"p\"); \x7d")]

/-- On a port that greets with `220 mail smtp`, the shipped FTP and SMTP detectors both claim the port and
the later one wins; plugins that do not contradict each other depend on the order through the KB and
through the service that admits them. -/
theorem detectBothWays_shipped :
    (loadParsed (greetingWorld (str "220 mail smtp")) [(str "tcp-ftp-detect.ztl", Shipped.tcpFtpDetect),
        (str "tcp-smtp-detect.ztl", Shipped.tcpSmtpDetect)]).map
      (detectBothWays (greetingWorld (str "220 mail smtp")) (str "10.0.0.1") 25) =
        some (some ⟨str "smtp", str "SMTP", []⟩, some ⟨str "ftp", str "FTP", []⟩) ∧
    (loadPluginsDir (greetingWorld []) (str "plugins") noteAndRead).map
      (detectBothWays (greetingWorld []) (str "10.0.0.1") 25) = some (some ⟨str "a", [], []⟩, some {}) ∧
    (loadPluginsDir (greetingWorld []) (str "plugins") nameAndRefine).map
      (detectBothWays (greetingWorld []) (str "10.0.0.1") 25) =
        some (some ⟨str "b", [], []⟩, some ⟨str "b", str "p", []⟩) := by
  refine ⟨?_, ?_, ?_⟩ <;> decide +kernel

end ZeroTrust.Ztl
