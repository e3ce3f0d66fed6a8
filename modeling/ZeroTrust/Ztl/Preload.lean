import ZeroTrust.Ztl.Confinement

/-!
# The filters of the preload

A plugin is interpreted twice: when it is loaded, to learn its metadata, and when it runs. The filters that an
interpretation leaves behind are those of its calls of `Plugin.filter`. A program that mentions `filter` only in
plain statements at its top makes the same calls each time, unless an exception ends it early; the exception
discards the metadata of the preload, but not those of the run.
-/

namespace ZeroTrust.Ztl

open Function (update update_self update_of_ne)

/-- The filters after some calls. -/
def Filters.after (f : Filters) (calls : List FilterArguments) : Filters := calls.foldl Filters.declare f

/-- Two stretches of filter calls apply one after the other. -/
@[simp] theorem Filters.after_append (f : Filters) (first second : List FilterArguments) :
    f.after (first ++ second) = (f.after first).after second := List.foldl_append ..

/-- The filters of a run stay the same. -/
def Machine.SameFilters (run : ℕ) (m m' : Machine) : Prop :=
  (m'.store.runs run).pluginMeta.filters = (m.store.runs run).pluginMeta.filters

/-- A change of a run that keeps its filters, or of another run. -/
theorem sameFilters_withRun (run : ℕ) (m : Machine) (r : ℕ) {f : RunState → RunState}
    (hf : r = run → ∀ state, (f state).pluginMeta.filters = state.pluginMeta.filters) :
    m.SameFilters run { m with store := m.store.withRun r f } := by
  rw [Machine.SameFilters, Store.withRun]
  by_cases hr : r = run
  · subst hr
    simp only [update_self]
    exact hf rfl _
  · simp only [update_of_ne (Ne.symm hr)]

/-- Mild changes leave the filters. -/
theorem gentle_sameFilters (run : ℕ) : Gentle (Machine.SameFilters run) where
  refl _ := rfl
  trans _ _ _ h h' := h'.trans h
  mild m s h := by
    cases h with
    | object address o fresh plain => rfl
    | setMeta r f same => exact sameFilters_withRun run m r fun _ state => same state.pluginMeta
    | event e => rfl

/-- Calls of `Plugin.filter` change the filters, and no others. -/
theorem traced_filters (w : World) (run : ℕ) : Traced w fun calls s t =>
    (t.runs run).pluginMeta.filters = (s.runs run).pluginMeta.filters.after (filterCalls run calls) where
  nil _ := rfl
  append first second s t u hfirst hsecond := by
    rw [hsecond, hfirst, filterCalls_append, Filters.after_append]
  quiet fn ctx m hquiet := by
    have hgentle := gentle_sameFilters run
    have hkeeps {p : Eval Value} (hspec : Gently (Machine.SameFilters run) (fun _ => True) p) :
        m.SameFilters run (p m).state := hspec.state m
    by_cases hown : fn.op = .pluginFilter run
    · obtain ⟨f, hf, hstate⟩ := pluginFilter_state run ctx m
      rw [hown, show callNative w (.pluginFilter run) ctx none = pluginFilter run ctx from rfl, hstate]
      simp only [Store.withRun, update_self, hf]
      simp [filterCalls, hown, Filters.after]
    · rw [filterCalls_other hown]
      by_cases hop : fn.op.IsGentle
      · exact (gently_callNative hgentle w hop ctx none).state m
      · cases hfn : fn.op with
        | pluginFilter r =>
          have hother : r ≠ run := fun hr => hown (hr ▸ hfn)
          apply hkeeps
          exact gently_pluginFilter hgentle r ctx fun f m => sameFilters_withRun run m r fun h => absurd h hother
        | pluginSetService r =>
          apply hkeeps
          apply gently_pluginSetService hgentle
          · exact fun svc m => sameFilters_withRun run m r fun _ _ => rfl
          · exact fun version m => sameFilters_withRun run m r fun _ _ => rfl
          · exact fun product m => sameFilters_withRun run m r fun _ _ => rfl
          · exact fun svc m => rfl
        | kbSet r => exact hkeeps (gently_kbSet hgentle r ctx fun _ _ _ _ _ => rfl)
        | kbSetScoped r => exact hkeeps (gently_kbSetScoped hgentle r ctx fun _ _ _ _ _ _ _ _ => rfl)
        | pluginRun r => rw [hfn] at hquiet; exact hquiet.elim
        | finding r => rw [hfn] at hquiet; exact hquiet.elim
        | _ => rw [hfn] at hop; exact absurd trivial hop
  finding fn ctx m r hop := by
    have hnone : fn.op ≠ .pluginFilter run := by
      rw [hop]
      intro h
      cases h
    have hspec : Gently (Machine.SameFilters run) (fun _ => False) (findingFn w r ctx) :=
      gently_findingFn (gentle_sameFilters run) w r ctx fun f m => sameFilters_withRun run m r fun _ _ => rfl
    rw [filterCalls_other hnone]
    exact hspec.state m
  run fn ctx s r hop := by
    rw [filterCalls_other]
    · rfl
    · change fn.op ≠ _
      rw [hop]
      intro h
      cases h

section

variable {run : ℕ} {made : List FilterArguments}

/-- Building an object with clean parts keeps the machine confined. -/
theorem confines_newObject {typeName : Bytes} {fields : List (Bytes × Value)} {methods : List (Bytes × Native)}
    (hfields : ∀ x ∈ fields, x.2.Clean run)
    (hmethods : ∀ x ∈ methods, x.1 = str "filter" ↔ x.2 = .pluginFilter run) :
    Confines run made (Value.Clean run) (newObject typeName fields methods) := by
  apply Effect.Keeps.bind (P := fun _ => True) (Effect.keeps_gets fun _ _ => trivial)
  intro id _
  apply Effect.Keeps.bind (P := fun _ => True)
  · apply Effect.keeps_modify
    intro m hm
    apply hm.setObject
    exact ⟨fun name v hv => hfields _ (fieldTable_mem hv), fun name fn hfn => hmethods _ (methodTable_mem hfn)⟩
  · exact fun _ _ => Effect.keeps_pure nofun

/-- A function other than `filter` is clean. -/
theorem confines_newFunction {op : Native} (hop : op ≠ .pluginFilter run) :
    Confines run made (Value.Clean run) (newFunction op) := by
  apply Effect.Keeps.bind (P := fun _ => True) (Effect.keeps_gets fun _ _ => trivial)
  intro id _
  apply Effect.Keeps.bind (P := fun _ => True)
  · exact Effect.keeps_modify fun m hm => ⟨hm.globals, hm.locals, hm.kb, hm.objects, hm.calls⟩
  · intro _ _
    apply Effect.keeps_pure
    intro fn hfn
    cases hfn
    exact hop

/-- Defining a clean global keeps the machine confined. -/
theorem confines_defineGlobal (name : Bytes) {make : Eval Value} (h : Confines run made (Value.Clean run) make) :
    Confines run made (fun _ => True) (defineGlobal name make) :=
  h.bind fun _ hv => Effect.keeps_modify fun _ hm => ⟨hm.globals.set hv name, hm.locals, hm.kb, hm.objects, hm.calls⟩

/-- Building the target object keeps the machine confined. -/
theorem confines_makeTargetObj : Confines run made (Value.Clean run) (makeTargetObj run) := by
  have hknown (key : Bytes) : Confines run made (fun v => (v.getD (.string [])).Clean run) (readKb run key) := by
    apply Effect.keeps_gets
    intro m hm
    change ((if (m.store.runs run).hasKb then m.store.kb key else none).getD (.string [])).Clean run
    split
    · cases hv : m.store.kb key with
      | none => exact nofun
      | some v => exact hm.kb key v hv
    · exact nofun
  apply Effect.Keeps.bind (P := fun _ => True) (Effect.keeps_gets fun _ _ => trivial)
  intro state _
  apply (hknown (str "product")).bind
  intro product hproduct
  apply (hknown (str "version")).bind
  intro version hversion
  apply Effect.Keeps.bind (P := Value.Clean run)
  · apply confines_newObject _ (by simp)
    intro x hx
    simp only [List.mem_cons, List.not_mem_nil, or_false] at hx
    rcases hx with rfl | rfl | rfl | rfl | rfl
    · exact nofun
    · exact nofun
    · exact nofun
    · exact hproduct
    · exact hversion
  · intro target htarget
    apply Effect.Keeps.bind (P := fun _ => True)
    · exact Effect.keeps_modify fun m hm => hm.withRun run _
    · exact fun _ _ => Effect.keeps_pure htarget

/-- The library offers `Plugin.filter` by its name only. -/
theorem confines_registerStdlib : Confines run made (fun _ => True) (registerStdlib run) := by
  have hnext {p q : Eval Unit} (hp : Confines run made (fun _ => True) p) (hq : Confines run made (fun _ => True) q) :
      Confines run made (fun _ => True) (p >>= fun _ => q) := hp.bind fun _ _ => hq
  have hobject (name typeName : Bytes) {methods : List (Bytes × Native)}
      (hmethods : ∀ x ∈ methods, x.1 = str "filter" ↔ x.2 = .pluginFilter run) :
      Confines run made (fun _ => True) (defineGlobal name (newObject typeName [] methods)) :=
    confines_defineGlobal name (confines_newObject (by simp) hmethods)
  have hfunction (name : Bytes) {op : Native} (hop : op ≠ .pluginFilter run) :
      Confines run made (fun _ => True) (defineGlobal name (newFunction op)) :=
    confines_defineGlobal name (confines_newFunction hop)
  apply hnext (hobject _ _ (by simp +decide [pluginMethods]))
  apply hnext (confines_defineGlobal _ confines_makeTargetObj)
  apply hnext (hfunction _ (by nofun))
  apply hnext (hobject _ _ (by simp +decide))
  apply hnext (hobject _ _ (by simp +decide))
  apply hnext (hfunction _ (by nofun))
  apply hnext (hfunction _ (by nofun))
  apply hnext (hfunction _ (by nofun))
  exact hfunction _ (by nofun)

end

/-- The value of a literal. -/
def Expr.literal : Expr → Option Value
  | .null _ => some .null
  | .bool _ value => some (.bool value)
  | .number _ text => some (.number (numberValue text))
  | .string _ value => some (.string value)
  | _ => none

/-- The values of arguments that are literals, behind others. -/
def literalArguments : List CallArg → Arguments → Option Arguments
  | [], done => some done
  | .mk name value :: args, done => value.literal.bind fun v => literalArguments args (done.push name v)

/-- What a statement `plugin.filter(..)` with literals is given. -/
def Stmt.filterCall : Stmt → Option FilterArguments
  | .expr _ (.call _ (.member _ (.ident _ object) method) args none) =>
    if object = str "plugin" ∧ method = str "filter" then
      (literalArguments args {}).map fun args => filterArguments args.named
    else none
  | _ => none

/-- The filters that a program declares. -/
def Program.declaredFilters (p : Program) : List FilterArguments := p.statements.filterMap Stmt.filterCall

/-- A program that mentions `filter` in such statements only. -/
def Program.PlainFilters (p : Program) : Prop :=
  ∀ s ∈ p.statements, s.filterCall.isSome ∨ s.mentions (str "filter") = false

instance (p : Program) : Decidable p.PlainFilters := by unfold Program.PlainFilters; infer_instance

section

variable {run : ℕ} {made : List FilterArguments} (w : World)

/-- A literal evaluates to its value. -/
theorem evalExpr_literal {e : Expr} {v : Value} (h : e.literal = some v) (m : Machine) :
    evalExpr w e m = .ok v m := by
  cases e <;> cases h <;> rfl

/-- Literal arguments evaluate to their values. -/
theorem evalArgs_literal {args : List CallArg} {done all : Arguments} (h : literalArguments args done = some all)
    (m : Machine) : evalArgs w args done m = .ok all m := by
  induction args generalizing done with
  | nil =>
    cases h
    rfl
  | cons arg args ih =>
    cases arg with
    | mk name value =>
      obtain ⟨v, hv, hrest⟩ := Option.bind_eq_some_iff.mp h
      exact (Effect.bind_run_ok (evalExpr_literal w hv m) _).trans (ih hrest)

/-- A call of `Plugin.filter` adds its arguments to the calls made. -/
theorem confined_filter {fn : NativeFn} (hop : fn.op = .pluginFilter run) (ctx : CallContext)
    (block : Option (Eval Unit)) {m : Machine} (hm : m.Confined run made) :
    (invoke w fn ctx block m).state.Confined run (made ++ [filterArguments ctx.named]) := by
  have hrecord : (m.record fn ctx).Confined run (made ++ [filterArguments ctx.named]) := by
    refine ⟨hm.globals, hm.locals, hm.kb, hm.objects, ?_⟩
    rw [Machine.record, filterCalls_append, hm.calls]
    simp [filterCalls, hop]
  have hspec : Gently (fun m m' => m.Confined run (made ++ [filterArguments ctx.named]) →
      m'.Confined run (made ++ [filterArguments ctx.named])) (fun _ => False) (pluginFilter run ctx) :=
    gently_pluginFilter gentle_confined run ctx fun _ _ h => h.withRun run _
  rw [invoke, hop]
  exact hspec.state _ hrecord

/-- No string has a method `filter`. -/
theorem invokeMethod_filter {receiver : Value} {args : Arguments} {pos : Pos} {m m' : Machine} {v : Value}
    (hm : m.Confined run made) (h : invokeMethod w receiver (str "filter") args none pos m = .ok v m') :
    m'.Confined run (made ++ [filterArguments args.named]) := by
  cases receiver with
  | object address =>
    rw [invokeMethod, readStore, Effect.gets_bind_run] at h
    cases hfn : (m.store.objects address).methods (str "filter") with
    | none =>
      simp only [hfn] at h
      cases h
    | some fn =>
      simp only [hfn] at h
      have hop : fn.op = .pluginFilter run := ((hm.objects address).methods _ fn hfn).mp rfl
      have hfilter := confined_filter w hop ⟨.object address, args.positional, args.named, pos⟩ none hm
      rw [h] at hfilter
      exact hfilter
  | string s =>
    have herror : callStringMethod s (str "filter") args.positional pos =
        .error (errorAt pos (str "string has no method '" ++ str "filter" ++ str "'")) := by
      simp +decide [callStringMethod]
    rw [invokeMethod, herror] at h
    cases h
  | _ => cases h

/-- A filter statement that does not throw has made its call. -/
theorem execStmt_filterCall {s : Stmt} {a : FilterArguments} (hs : s.filterCall = some a) {m m' : Machine}
    (hm : m.Confined run made) (h : execStmt w s m = .ok () m') : m'.Confined run (made ++ [a]) := by
  unfold Stmt.filterCall at hs
  split at hs
  · next pos object method args =>
    split at hs
    · next hnames =>
      obtain ⟨rfl, rfl⟩ := hnames
      obtain ⟨all, hall, rfl⟩ := Option.map_eq_some_iff.mp hs
      obtain ⟨v, m₁, hcall, hrest⟩ := Effect.exists_of_bind_run_ok h
      cases hrest
      obtain ⟨all', m₂, hargs, hcall⟩ := Effect.exists_of_bind_run_ok hcall
      rw [evalArgs_literal w hall] at hargs
      cases hargs
      obtain ⟨receiver, m₃, hplugin, hcall⟩ := Effect.exists_of_bind_run_ok hcall
      have hm₃ : m₃.Confined run made := by
        have hkeeps := (confines_expr w (.ident pos (str "plugin")) rfl m hm).1
        rw [hplugin] at hkeeps
        exact hkeeps
      exact invokeMethod_filter w hm₃ hcall
    · cases hs
  · cases hs

/-- A program that does not throw has made its declarations. -/
theorem execStmts_declared {stmts : List Stmt}
    (hplain : ∀ s ∈ stmts, s.filterCall.isSome ∨ s.mentions (str "filter") = false) {m m' : Machine}
    (hm : m.Confined run made) (h : execStmts w stmts m = .ok () m') :
    m'.Confined run (made ++ stmts.filterMap Stmt.filterCall) := by
  induction stmts generalizing made m with
  | nil =>
    cases h
    simpa using hm
  | cons s stmts ih =>
    obtain ⟨_, m₁, hfirst, hrest⟩ := Effect.exists_of_bind_run_ok h
    have hstmts := fun s hs => hplain s (List.mem_cons_of_mem _ hs)
    cases hs : s.filterCall with
    | some a =>
      have hm₁ := execStmt_filterCall w hs hm hfirst
      simpa [hs] using ih hstmts hm₁ hrest
    | none =>
      have hmention : s.mentions (str "filter") = false := by simpa [hs] using hplain s List.mem_cons_self
      have hm₁ := (confines_stmt w s hmention m hm).1
      rw [hfirst] at hm₁
      simpa [hs] using ih hstmts hm₁ hrest

end

/-- The machine of the preload, before the library is registered. -/
def preloadMachine (program : Program) (path : Bytes) : Machine where
  store := Store.begin {} { targetHost := str "0.0.0.0", metaOnly := true }
    (.start { program := program, sourcePath := path } (str "0.0.0.0") 0)

/-- No statement of the program returns or fails in the preload, for port 0 of `0.0.0.0`. -/
def PreloadReturns (w : World) (program : Program) (path : Bytes) : Prop :=
  ∃ m, interpretPlugin w { program := program, sourcePath := path } 0 (preloadMachine program path) = .ok () m

/-- The scheduler of a port runs the plugin when the filters want it. -/
def LoadedPlugin.ScheduledBy (p : LoadedPlugin) (w : World) (f : Filters) : Prop :=
  ∀ (host : Bytes) (port : ℤ) (st : PortRun),
    st.discover w host port p = (if f.any then st.step w host port p else some st) ∧
    st.check w host port p =
      if f.any = false ∧ (f.service = [] ∨ f.service = st.info.service) then st.step w host port p else some st

section

variable {w : World} {program : Program} {path : Bytes} {pm : PluginMeta}

/-- The preload by the outcome of its interpretation. -/
theorem preload_eq (w : World) (program : Program) (path : Bytes) : preload w program path =
    match interpretPlugin w { program := program, sourcePath := path } 0 (preloadMachine program path) with
    | .ok _ m => some (m.store.runs 0).pluginMeta
    | .throw _ _ => some {}
    | .fault _ _ => none := rfl

/-- A preload that does not return leaves the default metadata. -/
theorem preload_eq_empty (hthrows : ¬PreloadReturns w program path) (h : preload w program path = some pm) :
    pm = {} := by
  rw [preload_eq] at h
  cases hrun : interpretPlugin w { program := program, sourcePath := path } 0 (preloadMachine program path) with
  | ok u m => exact absurd ⟨m, hrun⟩ hthrows
  | throw e m =>
    rw [hrun] at h
    exact (Option.some.inj h).symm
  | fault f m =>
    rw [hrun] at h
    cases h

/-- Loading stores the metadata of the preload. -/
theorem preload_of_loadPlugin {text : Bytes} {p : LoadedPlugin} (h : loadPlugin w path text = .ok p) :
    preload w p.program path = some p.previewMeta := by
  unfold loadPlugin at h
  split at h
  · cases h
  · cases h
  · split at h
    · cases h
    · split at h
      · cases h
      · next hpreload =>
        cases h
        exact hpreload

/-- A preload that returns leaves the declared filters behind. -/
theorem preload_filters (hplain : program.PlainFilters) (hreturns : PreloadReturns w program path)
    (h : preload w program path = some pm) : pm.filters = Filters.after {} program.declaredFilters := by
  obtain ⟨m, hrun⟩ := hreturns
  rw [preload_eq, hrun] at h
  cases h
  obtain ⟨_, m₁, hregister, hstmts⟩ := Effect.exists_of_bind_run_ok hrun
  have hstart : (preloadMachine program path).Confined 0 [] :=
    ⟨nofun, by simp [preloadMachine], nofun, fun _ => ⟨nofun, nofun⟩, rfl⟩
  have hregistered := (confines_registerStdlib _ hstart).1
  have hsilent := (silently_registerStdlib 0).state (preloadMachine program path)
  rw [hregister] at hregistered hsilent
  have htrace₁ : m₁.trace = [] := hsilent.trace
  have hruns₁ : (m₁.store.runs 0).pluginMeta.filters = {} := by
    rw [show m₁.store.runs 0 = _ from hsilent.runs 0]
    rfl
  have hdeclared := (execStmts_declared w hplain hregistered hstmts).calls
  obtain ⟨calls, htrace, hfilters⟩ := ((closed_via (traced_filters w 0)).stmts program.statements).state m₁
  have hend : (execStmts w program.statements m₁).state = m := by
    rw [show execStmts w program.statements m₁ = .ok () m from hstmts]
    rfl
  rw [hend, htrace₁] at htrace
  rw [hend, hruns₁] at hfilters
  have hcalls : filterCalls 0 calls = program.declaredFilters := by
    rw [Program.declaredFilters]
    simpa [htrace] using hdeclared
  rw [← hcalls]
  exact hfilters

/-- A run leaves the filters of its calls behind. -/
theorem runPlugin_filters {p : LoadedPlugin} {host : Bytes} {port : ℤ} {known : Bytes} {hasKb : Bool} {s s' : Store}
    {r : RunOutcome} (h : runPlugin w p host port known hasKb s = some (r, s')) :
    r.pluginMeta.filters = Filters.after {} (filterCalls s.nextRun (runCalls w p host port known hasKb s)) := by
  obtain ⟨m, hran⟩ := exists_ran h
  have hfilters := hran.via (traced_filters w s.nextRun)
  obtain ⟨late, -, rfl, rfl⟩ := hran.outcome
  rw [hran.fresh] at hfilters
  simp only [RunState.outcome, Store.withRun, update_self]
  exact hfilters

/-- A plugin is scheduled by the filters of its preview. -/
theorem scheduledBy_filters (p : LoadedPlugin) (w : World) : p.ScheduledBy w p.previewMeta.filters := by
  intro host port st
  refine ⟨rfl, ?_⟩
  by_cases hany : p.previewMeta.filterAny = true
  · simp [PortRun.check, PluginMeta.filters, hany]
  · simp [PortRun.check, LoadedPlugin.admits, PluginMeta.filters, hany]

end

/-- The preload learns the filters of the run, unless a statement returns or fails in the preload and the
program declares filters. -/
theorem preload_filters_iff {w w' : World} {path text : Bytes} {p : LoadedPlugin} {host : Bytes} {port : ℤ}
    {known : Bytes} {hasKb : Bool} {s s' : Store} {r : RunOutcome} (hload : loadPlugin w path text = .ok p)
    (hplain : p.program.PlainFilters) (hrun : runPlugin w' p host port known hasKb s = some (r, s'))
    (hcalls : filterCalls s.nextRun (runCalls w' p host port known hasKb s) = p.program.declaredFilters) :
    p.previewMeta.filters = r.pluginMeta.filters ∧ p.ScheduledBy w' r.pluginMeta.filters ↔
      PreloadReturns w p.program path ∨ Filters.after {} p.program.declaredFilters = {} := by
  have hpreload := preload_of_loadPlugin hload
  have hfilters : r.pluginMeta.filters = Filters.after {} p.program.declaredFilters := by
    rw [runPlugin_filters hrun, hcalls]
  have hscheduled (h : p.previewMeta.filters = r.pluginMeta.filters) : p.ScheduledBy w' r.pluginMeta.filters :=
    h ▸ scheduledBy_filters p w'
  by_cases hreturns : PreloadReturns w p.program path
  · have hsame : p.previewMeta.filters = r.pluginMeta.filters := by
      rw [hfilters, preload_filters hplain hreturns hpreload]
    exact iff_of_true ⟨hsame, hscheduled hsame⟩ (.inl hreturns)
  · have hempty : p.previewMeta.filters = {} := by
      rw [preload_eq_empty hreturns hpreload]
      rfl
    constructor
    · intro h
      right
      rw [← hfilters, ← h.1, hempty]
    · intro h
      have hsame : p.previewMeta.filters = r.pluginMeta.filters := by
        rw [hfilters, hempty, h.resolve_left hreturns]
      exact ⟨hsame, hscheduled hsame⟩

/-- Load a plugin and run it on an empty store. -/
def loadAndRun (w : World) (text host : Bytes) (port : ℤ) : Option (LoadedPlugin × RunOutcome × Store) :=
  match loadPlugin w (str "p.ztl") text with
  | .ok p => (runPlugin w p host port [] true {}).map fun x => (p, x)
  | .error _ => none

/-- A check of a loaded plugin's run gives the plugin and its run. -/
theorem exists_of_loadAndRun {w : World} {text host : Bytes} {port : ℤ}
    {P : LoadedPlugin × RunOutcome × Store → Bool} (h : (loadAndRun w text host port).any P = true) :
    ∃ p r s, loadPlugin w (str "p.ztl") text = .ok p ∧ runPlugin w p host port [] true {} = some (r, s) ∧
      P (p, r, s) = true := by
  obtain ⟨x, hx, hP⟩ := (Option.any_eq_true _ _).mp h
  unfold loadAndRun at hx
  split at hx
  · next p hload =>
    obtain ⟨⟨r, s⟩, hrun, rfl⟩ := Option.map_eq_some_iff.mp hx
    exact ⟨p, r, s, hload, hrun, hP⟩
  · cases hx

/-- A plugin for a service, with its work in a block. -/
def worksInBlock : Bytes :=
  str "plugin.name(\"ssh\"); plugin.filter(service: \"ssh\");
    plugin.run \x7b t = net::tcp(host: target.host, port: target.port); \x7d"

/-- The equivalence for a plugin that does its work in a block. -/
theorem preload_filters_iff_worksInBlock : ∃ p r s,
    loadPlugin ⟨silentNetwork, []⟩ (str "p.ztl") worksInBlock = .ok p ∧
    runPlugin ⟨silentNetwork, []⟩ p (str "10.0.0.1") 22 [] true {} = some (r, s) ∧
    (p.previewMeta.filters = r.pluginMeta.filters ∧ p.ScheduledBy ⟨silentNetwork, []⟩ r.pluginMeta.filters ↔
      PreloadReturns ⟨silentNetwork, []⟩ p.program (str "p.ztl") ∨
        Filters.after {} p.program.declaredFilters = {}) := by
  have hruns : (loadAndRun ⟨silentNetwork, []⟩ worksInBlock (str "10.0.0.1") 22).any (fun (p, _, _) =>
      decide (p.program.PlainFilters ∧
        filterCalls 0 (runCalls ⟨silentNetwork, []⟩ p (str "10.0.0.1") 22 [] true {}) = p.program.declaredFilters)) =
      true := by
    decide +kernel
  obtain ⟨p, r, s, hload, hrun, hfacts⟩ := exists_of_loadAndRun hruns
  obtain ⟨hplain, hcalls⟩ := of_decide_eq_true hfacts
  exact ⟨p, r, s, hload, hrun, preload_filters_iff hload hplain hrun hcalls⟩

/-- The same plugin with its work at the top. -/
def worksAtTop : Bytes :=
  str "plugin.name(\"ssh\"); plugin.filter(service: \"ssh\");
    t = net::tcp(host: target.host, port: target.port);"

/-- There is no connection to port 0, so the preload of a plugin that connects at its top fails, and its filter
is lost. -/
theorem worksAtTop_loses_filter : ∃ p r s,
    loadPlugin ⟨silentNetwork, []⟩ (str "p.ztl") worksAtTop = .ok p ∧ p.program.PlainFilters ∧
    runPlugin ⟨silentNetwork, []⟩ p (str "10.0.0.1") 22 [] true {} = some (r, s) ∧
    filterCalls 0 (runCalls ⟨silentNetwork, []⟩ p (str "10.0.0.1") 22 [] true {}) = p.program.declaredFilters ∧
    p.previewMeta.filters = {} ∧ r.pluginMeta.filters = ⟨false, str "ssh"⟩ := by
  have hruns : (loadAndRun ⟨silentNetwork, []⟩ worksAtTop (str "10.0.0.1") 22).any (fun (p, r, _) =>
      decide (p.program.PlainFilters ∧
        filterCalls 0 (runCalls ⟨silentNetwork, []⟩ p (str "10.0.0.1") 22 [] true {}) = p.program.declaredFilters ∧
        p.previewMeta.filters = {} ∧ r.pluginMeta.filters = ⟨false, str "ssh"⟩)) = true := by
    decide +kernel
  obtain ⟨p, r, s, hload, hrun, hfacts⟩ := exists_of_loadAndRun hruns
  obtain ⟨hplain, hcalls, hfilters⟩ := of_decide_eq_true hfacts
  exact ⟨p, r, s, hload, hplain, hrun, hcalls, hfilters⟩

end ZeroTrust.Ztl
