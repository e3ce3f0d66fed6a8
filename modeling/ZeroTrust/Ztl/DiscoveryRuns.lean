import ZeroTrust.Ztl.Detection
import ZeroTrust.Ztl.Execution
import ZeroTrust.Ztl.Steps

/-!
# Runs of discovery plugins

A discovery plugin describes itself and then runs its body on every port. What its run returns is
read off from how the body ends when it is started in the scope that `plugin.run` makes for it.
-/

namespace ZeroTrust.Ztl

open Function (update)

variable {w : World} {m m' : Machine} {run : ℕ}

/-- The variable `plugin` is the plugin object of a run. -/
def Machine.HasPlugin (m : Machine) (run : ℕ) : Prop := ∃ address, m.var (str "plugin") = some (.object address) ∧
  m.store.HasMethods address (pluginMethods run)

/-- A machine whose run has other metadata. -/
def Machine.describe (m : Machine) (run : ℕ) (f : PluginMeta → PluginMeta) : Machine :=
  { m with store := m.store.withRun run fun state => { state with pluginMeta := f state.pluginMeta } }

/-- Describing a plugin changes its metadata only. -/
@[simp] theorem Machine.describe_runs (m : Machine) (run : ℕ) (f : PluginMeta → PluginMeta) :
    (m.describe run f).store.runs run =
      { m.store.runs run with pluginMeta := f (m.store.runs run).pluginMeta } := Function.update_self _ _ _

/-- Describing keeps the plugin object. -/
theorem Machine.HasPlugin.describe (h : m.HasPlugin run) (f : PluginMeta → PluginMeta) :
    (m.describe run f).HasPlugin run := h

/-- The setters of the metadata answer null and describe the plugin. -/
theorem yields_pluginSetter (what : Bytes) (set : PluginMeta → Bytes → PluginMeta) (self : Value) (s : Bytes)
    (named : Env) (pos : Pos) (m : Machine) :
    Yields (pluginSetter run what set ⟨self, [.string s], named, pos⟩) m .null (m.describe run (set · s)) :=
  fun before => ⟨before, rfl⟩

/-- `plugin.filter(any: true)` sets the flag. -/
theorem yields_pluginFilter {named : Env} (hany : named (str "any") = some (.bool true))
    (hservice : named (str "service") = none) (self : Value) (pos : Pos) (m : Machine) :
    Yields (pluginFilter run ⟨self, [], named, pos⟩) m .null
      (m.describe run fun pm => { pm with filterAny := true }) := by
  intro before
  refine ⟨before, ?_⟩
  simp only [pluginFilter, hany, hservice, Option.map_some, isTruthy, Option.getD_some, Bool.or_true]
  rfl

/-- A method of the plugin object is called. -/
theorem stmtYields_plugin {name : Bytes} {op : Native} {ts : List CallArg} {args : Arguments}
    (h : m.HasPlugin run) (hop : ∀ id, ∃ i, methodTable id (pluginMethods run) name = some ⟨i, op⟩)
    (hargs : ArgsYield w ts {} m args m)
    (hcall : ∀ self pos, Yields (callNative w op ⟨self, args.positional, args.named, pos⟩ none) m .null m') :
    StmtYields w (.expr {} (.call {} (.member {} (.ident {} (str "plugin")) name) ts none)) m m' := by
  obtain ⟨address, hvar, id, hmethods⟩ := h
  obtain ⟨i, hi⟩ := hop id
  have hmethod : (m.store.objects address).methods name = some ⟨i, op⟩ := by rw [hmethods, hi]
  apply stmtYields_expr
  exact exprYields_method hargs (exprYields_ident hvar) fun pos => yields_objectMethod hmethod (hcall _ pos)

/-- A part of the description. -/
theorem stmtYields_setter {method what : Bytes} {op : Native} {set : PluginMeta → Bytes → PluginMeta}
    (h : m.HasPlugin run) (hop : ∀ id, ∃ i, methodTable id (pluginMethods run) method = some ⟨i, op⟩)
    (hcall : ∀ ctx, callNative w op ctx none = pluginSetter run what set ctx) (value : Bytes) :
    StmtYields w (.expr {} (.call {} (.member {} (.ident {} (str "plugin")) method) [.mk [] (.string {} value)] none))
      m (m.describe run (set · value)) := by
  refine stmtYields_plugin h hop (argsYield_cons (exprYields_string value m) (argsYield_nil _ m)) ?_
  intro self pos
  rw [hcall]
  exact yields_pluginSetter what set self value _ pos m

/-- The machine after the description of a discovery plugin. -/
def Machine.described (m : Machine) (run : ℕ) (name description : Bytes) : Machine :=
  (((m.describe run fun pm => { pm with name := name }).describe run
    fun pm => { pm with description := description }).describe run
    fun pm => { pm with category := str "discovery" }).describe run fun pm => { pm with filterAny := true }

/-- The head of a plugin keeps the plugin object. -/
theorem Machine.HasPlugin.described (h : m.HasPlugin run) (name description : Bytes) :
    (m.described run name description).HasPlugin run := h

/-- The statements in which a discovery plugin describes itself. -/
theorem stmtsYield_describe (h : m.HasPlugin run) (name description : String) :
    StmtsYield w (Shipped.describe name description) m (m.described run (str name) (str description)) := by
  refine stmtsYield_cons (stmtYields_include _ m) (stmtsYield_cons (stmtYields_include _ m) ?_)
  refine stmtsYield_cons (stmtYields_setter h (fun id => ⟨id, rfl⟩) (fun _ => rfl) _) ?_
  refine stmtsYield_cons (stmtYields_setter (h.describe _) (fun id => ⟨id + 1, rfl⟩) (fun _ => rfl) _) ?_
  refine stmtsYield_cons (stmtYields_setter ((h.describe _).describe _) (fun id => ⟨id + 2, rfl⟩) (fun _ => rfl) _) ?_
  refine stmtsYield_cons (stmtYields_plugin (((h.describe _).describe _).describe _) (fun id => ⟨id + 3, rfl⟩)
    (argsYield_cons (exprYields_bool true _) (argsYield_nil _ _)) fun self pos => ?_) (stmtsYield_nil _)
  exact yields_pluginFilter rfl rfl self pos _

/-- A body that returns ends `plugin.run`. -/
theorem yields_pluginRun {body : Eval Unit} (hruns : (m.store.runs run).runsBody = true)
    (hbody : Throws body m.enterGlobal Exn.IsReturn m') (ctx : CallContext) :
    Yields (pluginRun run ctx (some body)) m .null (m.restore m') := by
  intro before
  obtain ⟨after, e, he, hthrow⟩ := hbody before
  cases e with
  | runtimeError e => exact he.elim
  | returned v =>
    have hcatch : catchReturn (inGlobalScope body) (m.withTrace before) = .ok () ((m.restore m').withTrace after) := by
      have hscope : inGlobalScope body (m.withTrace before) = .throw (.returned v) ((m.restore m').withTrace after) :=
        congrArg (Outcome.mapState (Machine.restore (m.withTrace before))) hthrow
      rw [catchReturn, Effect.tryCatch_run_throw hscope]
      rfl
    exact ⟨after, (pluginRun_some run ctx body _).trans ((if_pos hruns).trans (Effect.bind_run_ok hcatch _))⟩

/-- An error of the body passes through `plugin.run`. -/
theorem throws_pluginRun {body : Eval Unit} (hruns : (m.store.runs run).runsBody = true)
    (hbody : Throws body m.enterGlobal Exn.IsError m') (ctx : CallContext) :
    Throws (pluginRun run ctx (some body)) m Exn.IsError (m.restore m') := by
  intro before
  obtain ⟨after, e, he, hthrow⟩ := hbody before
  cases e with
  | returned v => exact he.elim
  | runtimeError e =>
    have hcatch : catchReturn (inGlobalScope body) (m.withTrace before) =
        .throw (.runtimeError e) ((m.restore m').withTrace after) := by
      have hscope : inGlobalScope body (m.withTrace before) =
          .throw (.runtimeError e) ((m.restore m').withTrace after) :=
        congrArg (Outcome.mapState (Machine.restore (m.withTrace before))) hthrow
      rw [catchReturn, Effect.tryCatch_run_throw hscope]
      rfl
    exact ⟨after, .runtimeError e, trivial,
      (pluginRun_some run ctx body _).trans ((if_pos hruns).trans (Effect.bind_run_throw hcatch _))⟩

/-- A fault of the body passes through `plugin.run`. -/
theorem faults_pluginRun {body : Eval Unit} (hruns : (m.store.runs run).runsBody = true)
    (hbody : Faults body m.enterGlobal) (ctx : CallContext) : Faults (pluginRun run ctx (some body)) m := by
  intro before
  have hscope : Faults (inGlobalScope body) m := hbody.within fun _ => rfl
  have hcatch : Faults (catchReturn (inGlobalScope body)) m := by
    intro before
    have hfault := hscope before
    cases hrun : inGlobalScope body (m.withTrace before) with
    | fault f m' =>
      rw [catchReturn, Effect.tryCatch_run_fault hrun]
      trivial
    | _ =>
      rw [hrun] at hfault
      exact hfault.elim
  have hthen : Faults (catchReturn (inGlobalScope body) >>= fun _ => pure Value.null : Eval Value) m := hcatch.bind _
  rw [(pluginRun_some run ctx body (m.withTrace before)).trans (if_pos hruns)]
  exact hthen before

/-- The statement that runs the body. -/
def runStatement (body : List Stmt) : Stmt :=
  .expr {} (.call {} (.member {} (.ident {} (str "plugin")) (str "run")) [] (some body))

/-- The `run` statement ends when its body returns. -/
theorem stmtYields_run {body : List Stmt} (h : m.HasPlugin run) (hruns : (m.store.runs run).runsBody = true)
    (hbody : StmtsThrow w body m.enterGlobal Exn.IsReturn m') : StmtYields w (runStatement body) m (m.restore m') := by
  obtain ⟨address, hvar, id, hmethods⟩ := h
  have hmethod : (m.store.objects address).methods (str "run") = some ⟨id + 5, .pluginRun run⟩ := by
    rw [hmethods]
    rfl
  have hcall : ∀ pos stmts, eraseStmts stmts = body →
      Yields (invokeMethod w (.object address) (str "run") {} (some (execStmts w stmts)) pos) m .null (m.restore m') :=
    fun pos stmts hstmts => yields_objectMethod hmethod
      (yields_pluginRun hruns (hbody stmts hstmts) ⟨.object address, [], Env.empty, pos⟩)
  exact stmtYields_expr (exprYields_methodBlock (argsYield_nil _ m) (exprYields_ident hvar) hcall)

/-- The `run` statement throws the error of its body. -/
theorem stmtThrows_run {body : List Stmt} (h : m.HasPlugin run) (hruns : (m.store.runs run).runsBody = true)
    (hbody : StmtsThrow w body m.enterGlobal Exn.IsError m') :
    StmtThrows w (runStatement body) m Exn.IsError (m.restore m') := by
  obtain ⟨address, hvar, id, hmethods⟩ := h
  have hmethod : (m.store.objects address).methods (str "run") = some ⟨id + 5, .pluginRun run⟩ := by
    rw [hmethods]
    rfl
  have hcall : ∀ pos stmts, eraseStmts stmts = body →
      Throws (invokeMethod w (.object address) (str "run") {} (some (execStmts w stmts)) pos) m Exn.IsError
        (m.restore m') :=
    fun pos stmts hstmts => throws_objectMethod hmethod
      (throws_pluginRun hruns (hbody stmts hstmts) ⟨.object address, [], Env.empty, pos⟩)
  exact stmtThrows_expr (exprThrows_methodBlock (argsYield_nil _ m) (exprYields_ident hvar) hcall)

/-- The `run` statement meets the fault of its body. -/
theorem stmtFaults_run {body : List Stmt} (h : m.HasPlugin run) (hruns : (m.store.runs run).runsBody = true)
    (hbody : StmtsFault w body m.enterGlobal) : StmtFaults w (runStatement body) m := by
  obtain ⟨address, hvar, id, hmethods⟩ := h
  have hmethod : (m.store.objects address).methods (str "run") = some ⟨id + 5, .pluginRun run⟩ := by
    rw [hmethods]
    rfl
  have hcall : ∀ pos stmts, eraseStmts stmts = body →
      Faults (invokeMethod w (.object address) (str "run") {} (some (execStmts w stmts)) pos) m :=
    fun pos stmts hstmts => faults_objectMethod hmethod
      (faults_pluginRun hruns (hbody stmts hstmts) ⟨.object address, [], Env.empty, pos⟩)
  exact stmtFaults_expr (exprFaults_methodBlock (argsYield_nil _ m) (exprYields_ident hvar) hcall)

/-- The library as the body of `plugin.run` sees it, at the beginning of a run. -/
structure Machine.Started (m : Machine) (p : LoadedPlugin) (host : Bytes) (port : ℤ) (s : Store) : Prop where
  target : ∃ address, m.var (str "target") = some (.object address) ∧
    (m.store.objects address).fields (str "host") = some (.string host) ∧
    (m.store.objects address).fields (str "port") = some (.number port)
  tcp : ∃ fn, m.var (str "net::tcp") = some (.function fn) ∧ fn.op = .netTcp
  http : ∃ fn, m.var (str "net::http") = some (.function fn) ∧ fn.op = .netHttp
  history : m.store.history = .start p host port :: s.history

section

variable (p : LoadedPlugin) (host : Bytes) (port : ℤ) (known : Bytes) (hasKb : Bool) (s : Store)

/-- What registration leaves behind. -/
theorem registerStdlib_spec (run : ℕ) (m : Machine) (hlocals : m.locals = []) :
    ∃ u plugin target kb cve tcp http, registerStdlib run m = .ok () u ∧
      u.store.objects = update (update (update (update m.store.objects (m.store.next + 6) plugin) (m.store.next + 7)
        target) (m.store.next + 15) kb) (m.store.next + 18) cve ∧
      u.var (str "plugin") = some (.object (m.store.next + 6)) ∧
      plugin.methods = methodTable m.store.next (pluginMethods run) ∧
      u.var (str "target") = some (.object (m.store.next + 7)) ∧
      target.fields (str "host") = some (.string (m.store.runs run).targetHost) ∧
      target.fields (str "port") = some (.number (m.store.runs run).targetPort) ∧
      u.var (str "net::tcp") = some (.function ⟨tcp, .netTcp⟩) ∧
      u.var (str "net::http") = some (.function ⟨http, .netHttp⟩) ∧ u.store.history = m.store.history := by
  obtain ⟨globals, locals, store, trace⟩ := m
  cases hlocals
  exact ⟨_, _, _, _, _, _, _, rfl, rfl, rfl, rfl, rfl, rfl, rfl, rfl, rfl, rfl⟩

/-- The library when the program starts. -/
theorem registerStdlib_started : ∃ m, registerStdlib s.nextRun (initialMachine p host port known hasKb s) = .ok () m ∧
    m.Started p host port s ∧ m.HasPlugin s.nextRun ∧ m.locals = [] ∧
    m.store.runs s.nextRun = { freshRun host port known hasKb with target := (m.store.runs s.nextRun).target } := by
  obtain ⟨m, plugin, target, kb, cve, tcp, http, hregister, hobjects, hplugin, hmethods, htarget, hhost, hport, htcp,
    hhttp, hhistory⟩ := registerStdlib_spec s.nextRun (initialMachine p host port known hasKb s) rfl
  obtain ⟨_, m', hrun, hsilent⟩ := (silently_registerStdlib s.nextRun).run_ok (initialMachine p host port known hasKb s)
  cases hregister.symm.trans hrun
  have hstate : (initialMachine p host port known hasKb s).store.runs s.nextRun = freshRun host port known hasKb :=
    Function.update_self _ _ _
  rw [hstate] at hhost hport
  refine ⟨m, hregister, ⟨⟨_, htarget, ?_, ?_⟩, ⟨_, htcp, rfl⟩, ⟨_, hhttp, rfl⟩, hhistory⟩, ⟨_, hplugin, s.next, ?_⟩,
    hsilent.locals, ?_⟩
  · rw [hobjects, Function.update_of_ne (by omega), Function.update_of_ne (by omega), Function.update_self, hhost]
    rfl
  · rw [hobjects, Function.update_of_ne (by omega), Function.update_of_ne (by omega), Function.update_self, hport]
    rfl
  · rw [hobjects, Function.update_of_ne (by omega), Function.update_of_ne (by omega), Function.update_of_ne (by omega),
      Function.update_self, hmethods]
    rfl
  · rw [hsilent.runs, hstate]

end

/-- A body ends by throwing, and no run has changed by then. -/
def Stops (w : World) (kind : Exn → Prop) (body : List Stmt) (m : Machine) : Prop :=
  ∃ m', StmtsThrow w body m kind m' ∧ m'.store.runs = m.store.runs

section Stops

variable {first : Stmt} {rest : List Stmt} {kind : Exn → Prop} {c : Expr}

/-- A first statement that throws ends the list. -/
theorem stops_of_throws (h : StmtThrows w first m kind m) (rest : List Stmt) : Stops w kind (first :: rest) m :=
  ⟨m, stmtsThrow_first h rest, rfl⟩

/-- A statement that runs to its end can stand in front. -/
theorem Stops.cons (hrest : Stops w kind rest m') (hfirst : StmtYields w first m m')
    (hruns : m'.store.runs = m.store.runs) : Stops w kind (first :: rest) m := by
  obtain ⟨m₂, hthrow, hsame⟩ := hrest
  exact ⟨m₂, stmtsThrow_cons hfirst hthrow, hsame.trans hruns⟩

/-- An assignment in front. -/
theorem Stops.assign {t : Expr} {name : Bytes} {v : Value} (hrest : Stops w kind rest (m'.assign name v))
    (hv : ExprYields w t m v m') (hruns : m'.store.runs = m.store.runs) :
    Stops w kind (.assign {} name t :: rest) m :=
  hrest.cons (stmtYields_assign hv) ((congrArg Store.runs (Machine.assign_store m' name v)).trans hruns)

/-- An `if` whose condition holds returns. -/
theorem stops_returnIf (hc : ExprYields w c m (.bool true) m) (rest : List Stmt) :
    Stops w Exn.IsReturn (.ifThen {} c [.ret {} none] [] :: rest) m :=
  ⟨m, stmtsThrow_returnIf hc rfl rest, rfl⟩

/-- A conditional return in front that is not taken. -/
theorem Stops.unless (hrest : Stops w kind rest m) (hc : ExprYields w c m (.bool false) m) :
    Stops w kind (.ifThen {} c [.ret {} none] [] :: rest) m :=
  hrest.cons (stmtYields_unless hc rfl _) rfl

/-- A conditional return in front of a body that returns anyway. -/
theorem stops_guard {b : Bool} (hc : ExprYields w c m (.bool b) m) (hrest : b = false → Stops w Exn.IsReturn rest m) :
    Stops w Exn.IsReturn (.ifThen {} c [.ret {} none] [] :: rest) m := by
  cases b with
  | true => exact stops_returnIf hc rest
  | false => exact (hrest rfl).unless hc

end Stops

/-- Nothing was claimed and nothing was found. -/
structure RunState.Blank (state : RunState) : Prop where
  metaOnly : state.metaOnly = false
  findings : state.findings = []
  service : state.setService = []
  product : state.setProduct = []
  version : state.setVersion = []

/-- A blank run claims nothing. -/
theorem RunState.Blank.claims {state : RunState} (h : state.Blank) : state.outcome.claims = {} := by
  rw [RunState.outcome, RunOutcome.claims, h.service, h.product, h.version]

/-- A described run is still blank, and it runs its body. -/
theorem Machine.described_runs {host known : Bytes} {port : ℤ} {hasKb : Bool} {target : Option ℕ} (m : Machine)
    (name description : Bytes)
    (h : m.store.runs run = { freshRun host port known hasKb with target := target }) :
    ((m.described run name description).store.runs run).Blank ∧
      ((m.described run name description).store.runs run).runsBody = true := by
  simp only [Machine.described, Machine.describe_runs, h]
  exact ⟨⟨rfl, rfl, rfl, rfl, rfl⟩, rfl⟩

/-- The scope of the body shows the globals. -/
theorem Machine.var_enterGlobal (h : m.locals = []) (name : Bytes) : m.enterGlobal.var name = m.var name := by
  unfold Machine.var
  rw [h]
  rfl

section

variable {p : LoadedPlugin} {host : Bytes} {port : ℤ} {s : Store}

/-- Describing keeps what the run started with. -/
theorem Machine.Started.describe (h : m.Started p host port s) (run : ℕ) (f : PluginMeta → PluginMeta) :
    (m.describe run f).Started p host port s := ⟨h.target, h.tcp, h.http, h.history⟩

/-- The head of a plugin keeps what the run started with. -/
theorem Machine.Started.described (h : m.Started p host port s) (run : ℕ) (name description : Bytes) :
    (m.described run name description).Started p host port s :=
  (((h.describe _ _).describe _ _).describe _ _).describe _ _

/-- Entering the block of `plugin.run` keeps what the run started with. -/
theorem Machine.Started.enterGlobal (h : m.Started p host port s) (hlocals : m.locals = []) :
    m.enterGlobal.Started p host port s := by
  constructor
  · rw [m.var_enterGlobal hlocals]
    exact h.target
  · rw [m.var_enterGlobal hlocals]
    exact h.tcp
  · rw [m.var_enterGlobal hlocals]
    exact h.http
  · exact h.history

end

section

variable (w) (p : LoadedPlugin) (host : Bytes) (port : ℤ) (known : Bytes) (hasKb : Bool) (s : Store)

/-- What a run returns whose body returns early: no claim and no finding. -/
def EndsSilently : Prop :=
  ∃ r s', runPlugin w p host port known hasKb s = some (r, s') ∧ r.claims = {} ∧ r.findings = []

/-- What a run returns whose body fails: no claim, and the finding about the error. -/
def EndsByError : Prop := ∃ r s', runPlugin w p host port known hasKb s = some (r, s') ∧ r.claims = {} ∧
  ∃ f, r.findings = [f] ∧ f.title = str "Plugin runtime error"

variable {w p host port known hasKb s}

/-- A plugin that ends silently claims nothing. -/
theorem EndsSilently.claims (h : EndsSilently w p host port known hasKb s) :
    ∃ r s', runPlugin w p host port known hasKb s = some (r, s') ∧ r.claims = {} := by
  obtain ⟨r, s', hrun, hclaims, -⟩ := h
  exact ⟨r, s', hrun, hclaims⟩

/-- A plugin that ends by an error claims nothing. -/
theorem EndsByError.claims (h : EndsByError w p host port known hasKb s) :
    ∃ r s', runPlugin w p host port known hasKb s = some (r, s') ∧ r.claims = {} := by
  obtain ⟨r, s', hrun, hclaims, -⟩ := h
  exact ⟨r, s', hrun, hclaims⟩

/-- The finding about the error is there. -/
theorem EndsByError.exists_finding (h : EndsByError w p host port known hasKb s) {r : RunOutcome} {s' : Store}
    (hrun : runPlugin w p host port known hasKb s = some (r, s')) :
    ∃ f ∈ r.findings, f.title = str "Plugin runtime error" := by
  obtain ⟨r₁, s₁, hrun₁, -, f, hf, htitle⟩ := h
  cases hrun.symm.trans hrun₁
  exact ⟨f, by rw [hf]; exact List.mem_cons_self, htitle⟩

/-- A program that runs to its end with a blank state ends silently. -/
theorem endsSilently_of_ok (h : interpretPlugin w p s.nextRun (initialMachine p host port known hasKb s) = .ok () m)
    (hblank : (m.store.runs s.nextRun).Blank) : EndsSilently w p host port known hasKb s := by
  refine ⟨(m.store.runs s.nextRun).outcome, m.store, ?_, hblank.claims, hblank.findings⟩
  rw [runPlugin, runPluginEval, Effect.tryCatch_run_ok h]

/-- A program that throws with a blank state ends by an error. -/
theorem endsByError_of_throw {e : Exn} (he : e.IsError)
    (h : interpretPlugin w p s.nextRun (initialMachine p host port known hasKb s) = .throw e m)
    (hblank : (m.store.runs s.nextRun).Blank) : EndsByError w p host port known hasKb s := by
  cases e with
  | returned v => exact he.elim
  | runtimeError e =>
    generalize hf : errorFinding p (m.store.runs s.nextRun) port e.what = f
    have hstate : (m.store.withRun s.nextRun fun state => { state with
        findings := state.findings ++ [errorFinding p state port e.what] }).runs s.nextRun =
          { m.store.runs s.nextRun with findings := [f] } := by
      rw [← hf, ← List.nil_append [errorFinding p (m.store.runs s.nextRun) port e.what], ← hblank.findings]
      exact Function.update_self _ _ _
    have hrun : ∃ s', runPlugin w p host port known hasKb s =
        some (({ m.store.runs s.nextRun with findings := [f] } : RunState).outcome, s') := by
      rw [runPlugin, runPluginEval, Effect.tryCatch_run_throw h]
      exact ⟨_, congrArg some (Prod.ext (congrArg RunState.outcome hstate) rfl)⟩
    obtain ⟨s', hrun⟩ := hrun
    exact ⟨_, s', hrun, hblank.claims, f, rfl, hf ▸ rfl⟩

variable (w host port known hasKb s)

/-- A run of a discovery plugin ends as its body ends. -/
theorem runPlugin_discovery {name description : String} {body : List Stmt}
    (hp : p.program.erase = Shipped.discoveryPlugin name description body) : ∃ m : Machine,
    m.Started p host port s ∧
    (Stops w Exn.IsReturn body m → EndsSilently w p host port known hasKb s) ∧
    (Stops w Exn.IsError body m → EndsByError w p host port known hasKb s) ∧
    (StmtsFault w body m → runPlugin w p host port known hasKb s = none) := by
  obtain ⟨m, hregister, hstarted, hplugin, hlocals, hruns⟩ := registerStdlib_started p host port known hasKb s
  have hdescribe := stmtsYield_describe (w := w) hplugin name description
  have hstarted₁ := hstarted.described s.nextRun (str name) (str description)
  have hplugin₁ := hplugin.described (str name) (str description)
  obtain ⟨hblank, hbody⟩ := m.described_runs (str name) (str description) hruns
  have hlocals₁ : (m.described s.nextRun (str name) (str description)).locals = [] := hlocals
  generalize m.described s.nextRun (str name) (str description) = m₁ at *
  obtain ⟨before, after, hstmts, hbefore, hafter⟩ := exists_of_eraseStmts_append (congrArg Program.statements hp)
  obtain ⟨trace, hprelude⟩ := hdescribe before hbefore m.trace
  have hinterpret : interpretPlugin w p s.nextRun (initialMachine p host port known hasKb s) =
      execStmts w after (m₁.withTrace trace) := by
    rw [interpretPlugin, Effect.bind_run_ok hregister, runProgram, hstmts]
    exact execStmts_append hprelude after
  refine ⟨m₁.enterGlobal, hstarted₁.enterGlobal hlocals₁, ?_, ?_, ?_⟩
  · rintro ⟨m', hreturn, hsame⟩
    have hrun : StmtsYield w [runStatement body] m₁ (m₁.restore m') :=
      stmtsYield_cons (stmtYields_run hplugin₁ hbody hreturn) (stmtsYield_nil _)
    obtain ⟨trace', hend⟩ := hrun after hafter trace
    have hblank' : (m'.store.runs s.nextRun).Blank := by
      rw [hsame]
      exact hblank
    exact endsSilently_of_ok (hinterpret.trans hend) hblank'
  · rintro ⟨m', herror, hsame⟩
    have hrun : StmtsThrow w [runStatement body] m₁ Exn.IsError (m₁.restore m') :=
      stmtsThrow_first (stmtThrows_run hplugin₁ hbody herror) []
    obtain ⟨trace', e, he, hend⟩ := hrun after hafter trace
    have hblank' : (m'.store.runs s.nextRun).Blank := by
      rw [hsame]
      exact hblank
    exact endsByError_of_throw he (hinterpret.trans hend) hblank'
  · intro hfault
    have hrun : StmtsFault w [runStatement body] m₁ := stmtsFault_first (stmtFaults_run hplugin₁ hbody hfault) []
    have hend := hrun after hafter trace
    rw [← hinterpret] at hend
    cases hi : interpretPlugin w p s.nextRun (initialMachine p host port known hasKb s) with
    | fault f m' => rw [runPlugin, runPluginEval, Effect.tryCatch_run_fault hi]
    | _ =>
      rw [hi] at hend
      exact hend.elim

end

end ZeroTrust.Ztl
