import ZeroTrust.Lib.Components
import ZeroTrust.Ztl.Containment

/-!
# What calls do to the store

Programs reach the store through native calls only. A relation between the calls made and the stores before
and after, which every single call respects, is therefore respected by any evaluation (`Traced`). A relation on
stores that calls of some kind respect relates the stores when all calls are of that kind (`Respected`).
-/

namespace ZeroTrust.Ztl

open Function (update)
open Relation (ReflTransGen)

/-- The calls made meanwhile relate the stores. -/
def Machine.Via (S : List CallRecord → Store → Store → Prop) (m m' : Machine) : Prop :=
  ∃ calls, m'.trace = m.trace ++ calls ∧ S calls m.store m'.store

/-- A relation that single calls respect; the record of a call that runs a block changes nothing itself. -/
structure Traced (w : World) (S : List CallRecord → Store → Store → Prop) : Prop where
  nil : ∀ s, S [] s s
  append : ∀ first second s t u, S first s t → S second t u → S (first ++ second) s u
  quiet : ∀ (fn : NativeFn) (ctx : CallContext) (m : Machine), fn.op.IsQuiet →
    S [⟨fn, ctx, m.store⟩] m.store (callNative w fn.op ctx none m).state.store
  finding : ∀ (fn : NativeFn) (ctx : CallContext) (m : Machine) (run : ℕ), fn.op = .finding run →
    S [⟨fn, ctx, m.store⟩] m.store (findingFn w run ctx m).state.store
  run : ∀ (fn : NativeFn) (ctx : CallContext) (s : Store) (run : ℕ), fn.op = .pluginRun run → S [⟨fn, ctx, s⟩] s s

/-- A relation on stores that good calls respect, other than those that run a block. -/
structure Respected (w : World) (good : CallRecord → Prop) (S : Store → Store → Prop) : Prop where
  refl : ∀ s, S s s
  trans : ∀ s t u, S s t → S t u → S s u
  quiet : ∀ (fn : NativeFn) (ctx : CallContext) (m : Machine), fn.op.IsQuiet → good ⟨fn, ctx, m.store⟩ →
    S m.store (callNative w fn.op ctx none m).state.store
  finding : ∀ (fn : NativeFn) (ctx : CallContext) (m : Machine) (run : ℕ), fn.op = .finding run →
    good ⟨fn, ctx, m.store⟩ → S m.store (findingFn w run ctx m).state.store

/-- The stores are related, provided that the calls made meanwhile are good. -/
theorem Respected.traced {w : World} {good : CallRecord → Prop} {S : Store → Store → Prop} (h : Respected w good S) :
    Traced w fun calls s t => (∀ c ∈ calls, good c) → S s t where
  nil s _ := h.refl s
  append first second s t u hfirst hsecond hgood := by
    apply h.trans s t u
    · exact hfirst fun c hc => hgood c (List.mem_append_left _ hc)
    · exact hsecond fun c hc => hgood c (List.mem_append_right _ hc)
  quiet fn ctx m hquiet hgood := h.quiet fn ctx m hquiet (hgood _ (List.mem_singleton_self _))
  finding fn ctx m run hop hgood := h.finding fn ctx m run hop (hgood _ (List.mem_singleton_self _))
  run _ _ s _ _ _ := h.refl s

section Via

variable {w : World} {S : List CallRecord → Store → Store → Prop}

/-- Where no call is made, nothing changes. -/
theorem Machine.Via.refl (h : Traced w S) (m : Machine) : m.Via S m :=
  ⟨[], (List.append_nil _).symm, h.nil _⟩

/-- The calls of two stretches relate the stores before and after both. -/
theorem Machine.Via.trans (h : Traced w S) (m m' m'' : Machine) (h₁ : m.Via S m') (h₂ : m'.Via S m'') :
    m.Via S m'' := by
  obtain ⟨first, htrace, hstore⟩ := h₁
  obtain ⟨second, htrace', hstore'⟩ := h₂
  refine ⟨first ++ second, ?_, h.append _ _ _ _ _ hstore hstore'⟩
  rw [htrace', htrace, List.append_assoc]

/-- What happens behind the record of a call that runs a block. -/
theorem Machine.Via.of_record (h : Traced w S) {m m' : Machine} {fn : NativeFn} {ctx : CallContext} {run : ℕ}
    (hop : fn.op = .pluginRun run) (hrest : (m.record fn ctx).Via S m') : m.Via S m' := by
  obtain ⟨calls, htrace, hstore⟩ := hrest
  refine ⟨[⟨fn, ctx, m.store⟩] ++ calls, ?_, h.append _ _ _ _ _ (h.run fn ctx m.store run hop) hstore⟩
  rw [htrace, Machine.record, List.append_assoc]

/-- The block of a quiet callback is not run. -/
theorem callNative_block_irrelevant (w : World) {op : Native} (h : op.IsQuiet) (ctx : CallContext)
    (block : Option (Eval Unit)) : callNative w op ctx block = callNative w op ctx none := by
  cases op with
  | pluginRun run => exact h.elim
  | _ => rfl

/-- `plugin.run` inherits what holds of its body. -/
theorem pluginRun_via (h : Traced w S) {block : Option (Eval Unit)} (target : ℕ) (ctx : CallContext)
    (hblock : ∀ body ∈ block, Effect.Spec (Machine.Via S) (fun _ => True) (fun _ => True) body) :
    Effect.Spec (Machine.Via S) Exn.IsError (fun _ => True) (pluginRun target ctx block) := by
  cases block with
  | none => exact Effect.spec_throw (Machine.Via.refl h) trivial
  | some body =>
    apply Effect.Spec.bind (Machine.Via.trans h) (Effect.spec_gets (Machine.Via.refl h) _)
    intro runs
    cases runs with
    | false => exact Effect.spec_pure (Machine.Via.refl h) _
    | true =>
      apply Effect.Spec.bind (Machine.Via.trans h) _ fun _ => Effect.spec_pure (Machine.Via.refl h) _
      have hbody : Effect.Spec (Machine.Via S) (fun _ => True) (fun _ => True) (inGlobalScope body) :=
        (hblock body rfl).within fun s t hst => hst
      apply Effect.Spec.tryCatch (Machine.Via.trans h) hbody
      intro e _
      cases e with
      | returned v => exact Effect.spec_pure (Machine.Via.refl h) _
      | runtimeError e => exact Effect.spec_throw (Machine.Via.refl h) trivial

/-- A call respects the relation. -/
theorem invoke_via (h : Traced w S) (fn : NativeFn) (ctx : CallContext) (block : Option (Eval Unit))
    (hblock : ∀ body ∈ block, Effect.Spec (Machine.Via S) (fun _ => True) (fun _ => True) body) :
    Effect.Spec (Machine.Via S) Exn.IsError (fun _ => True) (invoke w fn ctx block) := by
  by_cases hquiet : fn.op.IsQuiet
  · intro m
    have hspec : Quietly (fun _ => True) (callNative w fn.op ctx none) :=
      (quietly_callNative w hquiet ctx none).mono (fun _ _ h => h) (fun _ h => h) fun _ _ => trivial
    have hvia : m.Via S (callNative w fn.op ctx none (m.record fn ctx)).state :=
      ⟨[⟨fn, ctx, m.store⟩], (hspec.state _).trace,
        h.quiet fn ctx (m.record fn ctx) hquiet⟩
    have hrun := hspec (m.record fn ctx)
    rw [invoke, callNative_block_irrelevant w hquiet, Effect.modify_bind_run]
    cases hcall : callNative w fn.op ctx none (m.record fn ctx) with
    | ok v m' => rw [hcall] at hvia; exact hvia
    | throw e m' => rw [hcall] at hvia hrun; exact ⟨hvia, hrun.2⟩
    | fault f m' => rw [hcall] at hvia; exact ⟨hvia, trivial⟩
  · cases hop : fn.op with
    | pluginRun target =>
      apply Effect.spec_modify_bind (Machine.Via S)
      · rw [hop]
        exact pluginRun_via h target ctx hblock
      · exact fun m m' hm => Machine.Via.of_record h hop hm
    | finding target =>
      intro m
      have hspec := @findingFn_spec w target target fn hop ctx
      have hvia : m.Via S (findingFn w target ctx (m.record fn ctx)).state :=
        ⟨[⟨fn, ctx, m.store⟩], (hspec.state _).1,
          h.finding fn ctx (m.record fn ctx) target hop⟩
      have hrun := hspec (m.record fn ctx)
      have hnative : callNative w (.finding target) ctx block = findingFn w target ctx := rfl
      rw [invoke, hop, Effect.modify_bind_run, hnative]
      cases hcall : findingFn w target ctx (m.record fn ctx) with
      | ok v m' => rw [hcall] at hvia; exact hvia
      | throw e m' => rw [hcall] at hvia hrun; exact ⟨hvia, hrun.2⟩
      | fault f m' => rw [hcall] at hvia; exact ⟨hvia, trivial⟩
    | _ => rw [hop] at hquiet; exact (hquiet trivial).elim

/-- Evaluation respects the relation. -/
theorem closed_via (h : Traced w S) : Closed w
    (fun _ p => Effect.Spec (Machine.Via S) Exn.IsError (fun _ => True) p)
    (fun p => Effect.Spec (Machine.Via S) (fun _ => True) (fun _ => True) p) where
  ret a := Effect.spec_pure (Machine.Via.refl h) a
  gets f := Effect.spec_gets (Machine.Via.refl h) f
  error _ := Effect.spec_throw (Machine.Via.refl h) trivial
  bind hp hk := hp.bind (Machine.Via.trans h) hk
  invoke fn ctx block hblock := invoke_via h fn ctx block hblock
  done := Effect.spec_pure (Machine.Via.refl h) ()
  after hp hk := (hp.mono (fun _ _ h => h) (fun _ _ => trivial) fun _ h => h).bind (Machine.Via.trans h) hk
  next hp hq := hp.bind (Machine.Via.trans h) fun _ => hq
  assign name v := Effect.spec_modify fun m => ⟨[], by simp, by
    rw [Machine.assign_store]
    exact h.nil _⟩
  scope hp := hp.within fun s t h => h
  returned _ := Effect.spec_throw (Machine.Via.refl h) trivial

end Via

/-- The state of a run before its program starts. -/
def freshRun (host : Bytes) (port : ℤ) (known : Bytes) (hasKb : Bool) : RunState where
  targetHost := host
  targetPort := port
  knownService := known
  hasKb := hasKb

/-- How a run goes: the library is registered, the program is interpreted, and the handlers add a
finding at most. -/
structure Ran (w : World) (p : LoadedPlugin) (host : Bytes) (port : ℤ) (known : Bytes) (hasKb : Bool)
    (s : Store) (r : RunOutcome) (s' : Store) (m : Machine) : Prop where
  registered : registerStdlib s.nextRun (initialMachine p host port known hasKb s) = .ok () m
  silent : (initialMachine p host port known hasKb s).Silent m
  outcome : ∃ late : List FindingOut,
    (late = [] ∨ ∃ state what, late = [errorFinding p state port what]) ∧
    s' = (interpretation w p host port known hasKb s).state.store.withRun s.nextRun
      (fun state => { state with findings := state.findings ++ late }) ∧
    r = (s'.runs s.nextRun).outcome

/-- Every run that returns goes this way. -/
theorem exists_ran {w : World} {p : LoadedPlugin} {host : Bytes} {port : ℤ} {known : Bytes} {hasKb : Bool}
    {s s' : Store} {r : RunOutcome} (h : runPlugin w p host port known hasKb s = some (r, s')) :
    ∃ m, Ran w p host port known hasKb s r s' m := by
  obtain ⟨_, m, hregister, hsilent⟩ :=
    (silently_registerStdlib s.nextRun).run_ok (initialMachine p host port known hasKb s)
  refine ⟨m, hregister, hsilent, ?_⟩
  have hsame : ∀ t : Store,
      t.withRun s.nextRun (fun state => { state with findings := state.findings ++ [] }) = t := by
    intro t
    simp [Store.withRun]
  rw [runPlugin, runPluginEval] at h
  cases hi : interpretPlugin w p s.nextRun (initialMachine p host port known hasKb s) with
  | fault f m' =>
    rw [Effect.tryCatch_run_fault hi] at h
    cases h
  | ok u m' =>
    rw [Effect.tryCatch_run_ok hi] at h
    cases h
    refine ⟨[], .inl rfl, ?_, rfl⟩
    rw [hsame, interpretation, hi]
    rfl
  | throw e m' =>
    rw [Effect.tryCatch_run_throw hi] at h
    cases e with
    | returned v =>
      cases h
      refine ⟨[], .inl rfl, ?_, rfl⟩
      rw [hsame, interpretation, hi]
      rfl
    | runtimeError e =>
      cases h
      refine ⟨_, .inr ⟨(m'.store.runs s.nextRun), e.what, rfl⟩, ?_, rfl⟩
      rw [interpretation, hi]
      rfl

section Ran

variable {w : World} {p : LoadedPlugin} {host : Bytes} {port : ℤ} {known : Bytes} {hasKb : Bool}
  {s s' : Store} {r : RunOutcome} {m : Machine}

/-- The interpretation continues from the registered library. -/
theorem Ran.interpretation_eq (h : Ran w p host port known hasKb s r s' m) :
    interpretation w p host port known hasKb s = execStmts w p.program.statements m :=
  Effect.bind_run_ok h.registered _

/-- The run starts without findings and claims. -/
theorem Ran.fresh (h : Ran w p host port known hasKb s r s' m) :
    m.store.runs s.nextRun = { freshRun host port known hasKb with target := (m.store.runs s.nextRun).target } := by
  rw [h.silent.runs]
  simp [initialMachine, Store.begin, freshRun]

/-- The calls of a run lead from the registered library to the end of the interpretation. -/
theorem Ran.via {S : List CallRecord → Store → Store → Prop} (h : Ran w p host port known hasKb s r s' m)
    (hS : Traced w S) : S (runCalls w p host port known hasKb s) m.store
      (interpretation w p host port known hasKb s).state.store := by
  obtain ⟨calls, htrace, hstore⟩ := ((closed_via hS).stmts p.program.statements).state m
  have hempty : m.trace = [] := h.silent.trace
  rw [runCalls, h.interpretation_eq, htrace, hempty]
  exact hstore

/-- A run whose calls are all good keeps what good calls respect. -/
theorem Ran.under {good : CallRecord → Prop} {S : Store → Store → Prop} (h : Ran w p host port known hasKb s r s' m)
    (hS : Respected w good S) (hgood : ∀ c ∈ runCalls w p host port known hasKb s, good c) :
    S m.store (interpretation w p host port known hasKb s).state.store := h.via hS.traced hgood

/-- A finding of a run was reported by one of its calls, or it tells of the error that escaped. -/
theorem Ran.reported_by (h : Ran w p host port known hasKb s r s' m) {f : FindingOut} (hf : f ∈ r.findings) :
    (∃ c ∈ runCalls w p host port known hasKb s, c.emitted w s.nextRun = some f) ∨
      ∃ state what, f = errorFinding p state port what := by
  obtain ⟨late, hlate, rfl, rfl⟩ := h.outcome
  have hfindings : f ∈ (runCalls w p host port known hasKb s).filterMap (·.emitted w s.nextRun) ++ late := by
    rw [← (interpretation_spec w p host port known hasKb s).2]
    simpa [Store.withRun, RunState.outcome] using hf
  rcases List.mem_append.mp hfindings with hcall | herror
  · exact .inl (List.mem_filterMap.mp hcall)
  · rcases hlate with rfl | ⟨state, what, rfl⟩
    · cases herror
    · exact .inr ⟨state, what, List.mem_singleton.mp herror⟩

end Ran

/-- A finding for a port of a host: the host may be left open. -/
structure FindingOut.IsFor (f : FindingOut) (host : Bytes) (port : ℤ) : Prop where
  host : f.host = host ∨ f.host = []
  scope : f.scope = str "PORT"
  portNumber : f.portNumber = Ztl.portNumber port

/-- Runs keep their targets and gain findings for them. -/
def Store.Aims (s s' : Store) : Prop := ∀ run,
  (s'.runs run).targetHost = (s.runs run).targetHost ∧ (s'.runs run).targetPort = (s.runs run).targetPort ∧
    ∃ added, (s'.runs run).findings = (s.runs run).findings ++ added ∧
      ∀ f ∈ added, f.IsFor (s.runs run).targetHost (s.runs run).targetPort

/-- A store keeps its own targets and gains nothing. -/
theorem Store.Aims.refl (s : Store) : s.Aims s := fun _ => ⟨rfl, rfl, [], by simp, by simp⟩

/-- What is gained one after the other is gained together. -/
theorem Store.Aims.trans (s t u : Store) (h : s.Aims t) (h' : t.Aims u) : s.Aims u := by
  intro run
  obtain ⟨hhost, hport, first, hfirst, hfor⟩ := h run
  obtain ⟨hhost', hport', second, hsecond, hfor'⟩ := h' run
  refine ⟨hhost'.trans hhost, hport'.trans hport, first ++ second, ?_, fun f hf => ?_⟩
  · rw [hsecond, hfirst, List.append_assoc]
  · rcases List.mem_append.mp hf with hf | hf
    · exact hfor f hf
    · rw [← hhost, ← hport]
      exact hfor' f hf

/-- A change of a run that leaves its target alone and adds findings for it. -/
theorem Store.aims_withRun {s : Store} (run : ℕ) (added : List FindingOut) {f : RunState → RunState}
    (hf : ∀ state, (f state).targetHost = state.targetHost ∧ (f state).targetPort = state.targetPort ∧
      (f state).findings = state.findings ++ added)
    (hadded : ∀ g ∈ added, g.IsFor (s.runs run).targetHost (s.runs run).targetPort) :
    s.Aims (s.withRun run f) := by
  intro r
  by_cases hr : r = run
  · subst hr
    obtain ⟨hhost, hport, hfindings⟩ := hf (s.runs r)
    have hrun : (s.withRun r f).runs r = f (s.runs r) := Function.update_self ..
    rw [hrun]
    exact ⟨hhost, hport, added, hfindings, hadded⟩
  · have hrun : (s.withRun run f).runs r = s.runs r := Function.update_of_ne hr ..
    rw [hrun]
    exact ⟨rfl, rfl, [], (List.append_nil _).symm, nofun⟩

/-- A change of a run that leaves its target and its findings alone. -/
theorem Store.aims_withRun_nil {s : Store} (run : ℕ) {f : RunState → RunState}
    (hf : ∀ state, (f state).targetHost = state.targetHost ∧ (f state).targetPort = state.targetPort ∧
      (f state).findings = state.findings) : s.Aims (s.withRun run f) := by
  apply Store.aims_withRun run [] _ nofun
  intro state
  rw [List.append_nil]
  exact hf state

/-- One change of the store keeps the targets and gains findings for them. -/
theorem Store.Change.aims {s s' : Store} (h : s.Change s') : s.Aims s' := by
  cases h with
  | object address o fresh => exact Store.Aims.refl s
  | setMeta r f => exact Store.aims_withRun_nil r fun _ => ⟨rfl, rfl, rfl⟩
  | setService r svc => exact Store.aims_withRun_nil r fun _ => ⟨rfl, rfl, rfl⟩
  | setVersion r version => exact Store.aims_withRun_nil r fun _ => ⟨rfl, rfl, rfl⟩
  | setProduct r product => exact Store.aims_withRun_nil r fun _ => ⟨rfl, rfl, rfl⟩
  | claim r svc named => exact Store.Aims.refl s
  | kbSet key v => exact Store.Aims.refl s
  | event e => exact Store.Aims.refl s

/-- Changes of the store keep the targets and gain findings for them. -/
theorem Store.Change.aims_of_steps {s s' : Store} (h : ReflTransGen Store.Change s s') : s.Aims s' := by
  induction h with
  | refl => exact Store.Aims.refl s
  | tail _ hstep ih => exact Store.Aims.trans _ _ _ ih hstep.aims

/-- A computation that succeeds continues with the value of its first part. -/
theorem exists_of_bind_ok {α β : Type} {x : Except RuntimeError α} {k : α → Except RuntimeError β} {b : β}
    (h : (x >>= k) = .ok b) : ∃ a, x = .ok a ∧ k a = .ok b := by
  cases x with
  | error e => cases h
  | ok a => exact ⟨a, rfl, h⟩

/-- The finding that `finding` makes is for the target of its run. -/
theorem findingOf_isFor {state : RunState} {s : Store} {ctx : CallContext} {f : FindingOut}
    (h : findingOf state s ctx = .ok f) (now : ℤ) :
    FindingOut.IsFor { f with timestamp := now } state.targetHost state.targetPort := by
  obtain ⟨severity, -, h⟩ := exists_of_bind_ok h
  obtain ⟨title, -, h⟩ := exists_of_bind_ok h
  obtain ⟨description, -, h⟩ := exists_of_bind_ok h
  obtain ⟨cve, -, h⟩ := exists_of_bind_ok h
  obtain ⟨verification, -, h⟩ := exists_of_bind_ok h
  obtain ⟨remediation, -, h⟩ := exists_of_bind_ok h
  obtain ⟨cvssVector, -, h⟩ := exists_of_bind_ok h
  cases h
  exact ⟨.inl rfl, rfl, rfl⟩

/-- It has the CVE and the verification of its arguments. -/
theorem findingOf_names {state : RunState} {s : Store} {ctx : CallContext} {f : FindingOut}
    (h : findingOf state s ctx = .ok f) :
    ctx.namedString (str "cve") [] = .ok f.cveId ∧ verificationArgument ctx = .ok f.verification := by
  obtain ⟨severity, -, h⟩ := exists_of_bind_ok h
  obtain ⟨title, -, h⟩ := exists_of_bind_ok h
  obtain ⟨description, -, h⟩ := exists_of_bind_ok h
  obtain ⟨cve, hcve, h⟩ := exists_of_bind_ok h
  obtain ⟨verification, hverification, h⟩ := exists_of_bind_ok h
  obtain ⟨remediation, -, h⟩ := exists_of_bind_ok h
  obtain ⟨cvssVector, -, h⟩ := exists_of_bind_ok h
  cases h
  exact ⟨hcve, hverification⟩

/-- A call of `finding` with good arguments adds its finding. -/
theorem findingFn_run (w : World) (run : ℕ) {ctx : CallContext} {m : Machine} {f : FindingOut}
    (h : findingOf (m.store.runs run) m.store ctx = .ok f) :
    findingFn w run ctx m = .ok .null { m with
      store := Store.withRun { m.store with history := .clock :: m.store.history } run fun state =>
        { state with
          findings := state.findings ++ [{ f with timestamp := w.net.clock (.clock :: m.store.history) }] } } := by
  rw [findingFn, readStore, Effect.gets_bind_run, h]
  rfl

/-- `finding` keeps the targets and gains a finding for its own. -/
theorem findingFn_aims (w : World) (run : ℕ) (ctx : CallContext) (m : Machine) :
    m.store.Aims (findingFn w run ctx m).state.store := by
  cases hf : findingOf (m.store.runs run) m.store ctx with
  | error e =>
    rw [findingFn, readStore, Effect.gets_bind_run, hf, orThrow_error_bind]
    exact Store.Aims.refl _
  | ok f =>
    rw [findingFn_run w run hf]
    have haims := @Store.aims_withRun m.store run
      [{ f with timestamp := w.net.clock (.clock :: m.store.history) }]
      (fun state => { state with
        findings := state.findings ++ [{ f with timestamp := w.net.clock (.clock :: m.store.history) }] })
      (fun _ => ⟨rfl, rfl, rfl⟩) fun g hg => by
        rw [List.mem_singleton.mp hg]
        exact findingOf_isFor hf _
    exact haims

/-- All calls respect the targets. -/
theorem respected_aims (w : World) : Respected w (fun _ => True) Store.Aims where
  refl := Store.Aims.refl
  trans := Store.Aims.trans
  quiet _ ctx m hquiet _ :=
    Store.Change.aims_of_steps ((quietly_callNative w hquiet ctx none).state m).store
  finding _ ctx m run _ _ := findingFn_aims w run ctx m

/-- What a run finds is for its target. -/
theorem runPlugin_isFor {w : World} {p : LoadedPlugin} {host : Bytes} {port : ℤ} {known : Bytes} {hasKb : Bool}
    {s s' : Store} {r : RunOutcome} (h : runPlugin w p host port known hasKb s = some (r, s')) :
    ∀ f ∈ r.findings, f.IsFor host port := by
  obtain ⟨m, hran⟩ := exists_ran h
  obtain ⟨-, -, added, hadded, hfor⟩ := hran.under (respected_aims w) (fun _ _ => trivial) s.nextRun
  obtain ⟨late, hlate, rfl, rfl⟩ := hran.outcome
  rw [hran.fresh] at hadded hfor
  intro f hf
  have hmem : f ∈ added ++ late := by
    simpa [RunState.outcome, Store.withRun, hadded, freshRun] using hf
  rcases List.mem_append.mp hmem with hf | hf
  · exact hfor f hf
  · rcases hlate with rfl | ⟨state, what, rfl⟩
    · cases hf
    · rw [List.mem_singleton.mp hf]
      exact ⟨.inr rfl, rfl, rfl⟩

/-- So is what `run_for_port` finds. -/
theorem runForPort_isFor {w : World} {plugins : List LoadedPlugin} {host : Bytes} {port : ℤ}
    {initialService : Bytes} {st : PortRun} (h : runForPort w plugins host port initialService = some st) :
    ∀ f ∈ st.findings, f.IsFor host port := by
  refine runForPort_invariant (P := fun st => ∀ f ∈ st.findings, f.IsFor host port) nofun
    (fun st p st' hst hstep f hf => ?_) h
  obtain ⟨call, hcall, rfl⟩ := Option.map_eq_some_iff.mp hstep
  obtain ⟨⟨r, s'⟩, hrun, rfl⟩ := Option.map_eq_some_iff.mp hcall
  rcases List.mem_append.mp hf with hf | hf
  · exact hst f hf
  · exact runPlugin_isFor hrun f hf

/-- The calls that `run_for_port` records are runs of plugins. -/
theorem runForPort_calls {w : World} {plugins : List LoadedPlugin} {host : Bytes} {port : ℤ}
    {initialService : Bytes} {st : PortRun} (h : runForPort w plugins host port initialService = some st) :
    ∀ call ∈ st.calls, runPlugin w call.plugin host port call.known true call.before =
      some (call.outcome, call.after) := by
  refine runForPort_invariant (P := fun st => ∀ call ∈ st.calls, runPlugin w call.plugin host port call.known true
    call.before = some (call.outcome, call.after)) nofun (fun st p st' hst hstep call hcall => ?_) h
  obtain ⟨made, hmade, rfl⟩ := Option.map_eq_some_iff.mp hstep
  obtain ⟨⟨r, s'⟩, hrun, rfl⟩ := Option.map_eq_some_iff.mp hmade
  rcases List.mem_append.mp hcall with hcall | hcall
  · exact hst call hcall
  · rw [List.mem_singleton.mp hcall]
    exact hrun

end ZeroTrust.Ztl
