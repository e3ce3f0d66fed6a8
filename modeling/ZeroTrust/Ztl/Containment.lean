import ZeroTrust.Ztl.Callbacks
import ZeroTrust.Ztl.Runner

/-!
# Errors and returns are contained

Every evaluation is built from a few combinators, so what holds of calls and of the primitive
actions holds of programs (`Closed`). Two facts are carried through the syntax: the process ends
exactly when some recorded call is not safe, and the findings of a run grow by what the recorded
calls of its `finding` emit. A `return` can cross only `if` statements (`ReturnsIn`), since
expressions throw nothing but errors.
-/

namespace ZeroTrust.Ztl

open Function (update)
open Relation (ReflTransGen)

/-- Properties of expressions and statements that evaluation preserves. -/
structure Closed (w : World) (P : ∀ α : Type, Eval α → Prop) (Q : Eval Unit → Prop) : Prop where
  ret : ∀ {α} (a : α), P α (pure a)
  gets : ∀ {α} (f : Machine → α), P α (Effect.gets f)
  error : ∀ {α} (e : RuntimeError), P α (Effect.throw (.runtimeError e))
  bind : ∀ {α β} {p : Eval α} {k : α → Eval β}, P α p → (∀ a, P β (k a)) → P β (p >>= k)
  invoke : ∀ fn ctx block, (∀ body ∈ block, Q body) → P Value (invoke w fn ctx block)
  done : Q (pure ())
  after : ∀ {α} {p : Eval α} {k : α → Eval Unit}, P α p → (∀ a, Q (k a)) → Q (p >>= k)
  next : ∀ {p q : Eval Unit}, Q p → Q q → Q (p >>= fun _ => q)
  assign : ∀ name v, Q (Effect.modify (·.assign name v))
  scope : ∀ {p}, Q p → Q (inBlockScope p)
  returned : ∀ v, Q (Effect.throw (.returned v))

namespace Closed

variable {w : World} {P : ∀ α : Type, Eval α → Prop} {Q : Eval Unit → Prop}

/-- The property holds of throwing or answering a result. -/
theorem orThrow (h : Closed w P Q) {α : Type} (x : Except RuntimeError α) : P α (orThrow x) := by
  cases x with
  | ok a => exact h.ret a
  | error e => exact h.error e

/-- The property holds of reading a variable. -/
theorem readVariable (h : Closed w P Q) (name msg : Bytes) (pos : Pos) : P Value (readVariable name msg pos) := by
  refine h.bind (h.gets _) fun v => ?_
  cases v with
  | none => exact h.error _
  | some v => exact h.ret v

/-- The property holds of reading a member. -/
theorem memberOf (h : Closed w P Q) (receiver : Value) (member : Bytes) (pos : Pos) :
    P Value (memberOf receiver member pos) := by
  cases receiver with
  | object address =>
    refine h.bind (h.gets _) fun o => ?_
    split
    · exact h.ret _
    · exact h.ret _
    · exact h.error _
  | _ => exact h.error _

/-- The property holds of a method call when it does of its block. -/
theorem invokeMethod (h : Closed w P Q) (receiver : Value) (method : Bytes) (args : Arguments)
    (block : Option (Eval Unit)) (pos : Pos) (hblock : ∀ body ∈ block, Q body) :
    P Value (invokeMethod w receiver method args block pos) := by
  cases receiver with
  | string s => exact h.orThrow _
  | object address =>
    refine h.bind (h.gets _) fun o => ?_
    split
    · exact h.invoke _ _ _ hblock
    · exact h.error _
  | _ => exact h.error _

/-- The property holds of a function call when it does of its block. -/
theorem invokeFunction (h : Closed w P Q) (callee : Value) (args : Arguments)
    (block : Option (Eval Unit)) (pos : Pos) (hblock : ∀ body ∈ block, Q body) :
    P Value (invokeFunction w callee args block pos) := by
  cases callee with
  | function fn => exact h.invoke _ _ _ hblock
  | _ => exact h.error _

mutual

/-- Expressions have the property of expressions. -/
theorem expr (h : Closed w P Q) : ∀ e : Expr, P Value (evalExpr w e)
  | .null _ => h.ret _
  | .bool _ _ => h.ret _
  | .number _ _ => h.ret _
  | .string _ _ => h.ret _
  | .ident _ _ => h.readVariable _ _ _
  | .scoped _ _ _ => h.readVariable _ _ _
  | .member _ object _ => h.bind (h.expr object) fun _ => h.memberOf _ _ _
  | .call pos callee args block => by
    have hplain := h.bind (h.args args {}) fun args' => h.bind (h.expr callee) fun callee =>
      h.invokeFunction callee args' _ pos (h.block block)
    cases callee with
    | member _ object method =>
      exact h.bind (h.args args {}) fun _ => h.bind (h.expr object) fun _ =>
        h.invokeMethod _ _ _ _ _ (h.block block)
    | _ => exact hplain
  | .unary _ _ operand => h.bind (h.expr operand) fun _ => h.orThrow _
  | .binary _ op lhs rhs => by
    have hr := h.expr rhs
    refine h.bind (h.expr lhs) fun l => ?_
    cases op with
    | and =>
      show P Value (if isTruthy l then evalExpr w rhs else pure l)
      split
      · exact hr
      · exact h.ret l
    | or =>
      show P Value (if isTruthy l then pure l else evalExpr w rhs)
      split
      · exact h.ret l
      · exact hr
    | _ => exact h.bind hr fun _ => h.bind (h.gets _) fun _ => h.orThrow _

/-- Arguments have the property of expressions. -/
theorem args (h : Closed w P Q) : ∀ (args : List CallArg) (done : Arguments), P Arguments (evalArgs w args done)
  | [], _ => h.ret _
  | .mk _ value :: args, _ => h.bind (h.expr value) fun _ => h.args args _

/-- A trailing block has the property of statements. -/
theorem block (h : Closed w P Q) : ∀ (block : Option (List Stmt)), ∀ body ∈ evalBlock w block, Q body
  | none, _, hbody => nomatch hbody
  | some stmts, _, hbody => by
    cases hbody
    exact h.stmts stmts

/-- A statement has the property of statements. -/
theorem stmt (h : Closed w P Q) : ∀ s : Stmt, Q (execStmt w s)
  | .includeModule _ _ => h.done
  | .expr _ value => h.after (h.expr value) fun _ => h.done
  | .assign _ _ value => h.after (h.expr value) fun _ => h.assign _ _
  | .ifThen _ condition thenBranch elseBranch => by
    have hthen := h.stmts thenBranch
    have helse := h.stmts elseBranch
    refine h.after (h.expr condition) fun cond => ?_
    split
    · exact h.scope hthen
    · split
      · exact h.done
      · exact h.scope helse
  | .ret _ value => h.after (h.returnValue value) fun _ => h.returned _

/-- The value of a `return` has the property of expressions. -/
theorem returnValue (h : Closed w P Q) : ∀ value : Option Expr, P Value (evalReturnValue w value)
  | none => h.ret _
  | some value => h.expr value

/-- Statements have the property of statements. -/
theorem stmts (h : Closed w P Q) : ∀ stmts : List Stmt, Q (execStmts w stmts)
  | [] => h.done
  | s :: stmts => h.next (h.stmt s) (h.stmts stmts)

end

end Closed

/-- What a call reports to a run. -/
def CallRecord.emitted (w : World) (run : ℕ) (c : CallRecord) : Option FindingOut :=
  if c.fn.op = .finding run then
    match findingOf (c.store.runs run) c.store c.ctx with
    | .ok f => some { f with timestamp := w.net.clock (.clock :: c.store.history) }
    | .error _ => none
  else none

/-- Only `finding` reports. -/
theorem CallRecord.emitted_of_ne {w : World} {run : ℕ} {c : CallRecord} (h : c.fn.op ≠ .finding run) :
    c.emitted w run = none := if_neg h

/-- The findings of a run grow by what the calls made meanwhile report to it. -/
def Machine.Emits (w : World) (run : ℕ) (m m' : Machine) : Prop :=
  ∃ calls, m'.trace = m.trace ++ calls ∧
    (m'.store.runs run).findings = (m.store.runs run).findings ++ calls.filterMap (·.emitted w run)

section Emits

variable {w : World} {run : ℕ}

/-- Doing nothing emits nothing. -/
theorem Machine.Emits.refl (m : Machine) : m.Emits w run m := ⟨[], by simp, by simp⟩

/-- What is emitted one after the other is emitted together. -/
theorem Machine.Emits.trans (m m' m'' : Machine) (h : m.Emits w run m') (h' : m'.Emits w run m'') :
    m.Emits w run m'' := by
  obtain ⟨first, htrace, hfindings⟩ := h
  obtain ⟨second, htrace', hfindings'⟩ := h'
  refine ⟨first ++ second, ?_, ?_⟩
  · rw [htrace', htrace, List.append_assoc]
  · rw [hfindings', hfindings, List.filterMap_append, List.append_assoc]

/-- A change other than a report leaves the findings of every run alone. -/
theorem Store.Change.findings_eq {s s' : Store} (h : s.Change s') (run : ℕ) :
    (s'.runs run).findings = (s.runs run).findings := by
  have hrun : ∀ (r : ℕ) (f : RunState → RunState), (∀ state, (f state).findings = state.findings) →
      ((s.withRun r f).runs run).findings = (s.runs run).findings := by
    intro r f hf
    by_cases hr : run = r
    · subst hr
      simp only [Store.withRun, Function.update_self, hf]
    · simp only [Store.withRun, Function.update_of_ne hr]
  cases h with
  | object address o fresh => rfl
  | setMeta r f => exact hrun r _ fun _ => rfl
  | setService r svc => exact hrun r _ fun _ => rfl
  | setVersion r version => exact hrun r _ fun _ => rfl
  | setProduct r product => exact hrun r _ fun _ => rfl
  | claim r svc named => rfl
  | kbSet key v => rfl
  | event e => rfl

/-- Changes of the store leave the findings of every run. -/
theorem Store.Change.findings_eq_of_steps {s s' : Store} (h : ReflTransGen Store.Change s s') (run : ℕ) :
    (s'.runs run).findings = (s.runs run).findings := by
  induction h with
  | refl => rfl
  | tail _ hstep ih => rw [hstep.findings_eq, ih]

/-- A quiet step leaves the findings of every run. -/
theorem Machine.Quiet.findings_eq {m m' : Machine} (h : m.Quiet m') (run : ℕ) :
    (m'.store.runs run).findings = (m.store.runs run).findings :=
  Store.Change.findings_eq_of_steps h.store run

/-- A quiet step emits nothing. -/
theorem Machine.Quiet.emits {m m' : Machine} (h : m.Quiet m') : m.Emits w run m' :=
  ⟨[], by rw [h.trace, List.append_nil], by rw [h.findings_eq]; simp⟩

/-- A recorded call that reports nothing itself. -/
theorem emits_of_record {m m' : Machine} {fn : NativeFn} {ctx : CallContext} (hop : fn.op ≠ .finding run)
    (h : (m.record fn ctx).Emits w run m') : m.Emits w run m' := by
  obtain ⟨calls, htrace, hfindings⟩ := h
  refine ⟨⟨fn, ctx, m.store⟩ :: calls, ?_, ?_⟩
  · rw [htrace, Machine.record, List.append_assoc, List.singleton_append]
  · rw [hfindings, List.filterMap_cons_none (CallRecord.emitted_of_ne hop)]
    rfl

/-- The findings of a run grow by what one call reports to it. -/
def Machine.Reports (w : World) (run : ℕ) (fn : NativeFn) (ctx : CallContext) (m m' : Machine) : Prop :=
  m'.trace = m.trace ∧ (m'.store.runs run).findings =
    (m.store.runs run).findings ++ (CallRecord.emitted w run ⟨fn, ctx, m.store⟩).toList

/-- A call of `finding` reports its finding or throws. -/
theorem findingFn_spec (target : ℕ) (fn : NativeFn) (hop : fn.op = .finding target) (ctx : CallContext) :
    Effect.Spec (Machine.Reports w run fn ctx) Exn.IsError (fun _ => False) (findingFn w target ctx) := by
  intro m
  rw [findingFn, readStore, Effect.gets_bind_run]
  simp only [Machine.Reports, CallRecord.emitted, hop, Native.finding.injEq]
  cases hf : findingOf (m.store.runs target) m.store ctx with
  | error e =>
    rw [orThrow_error_bind]
    refine ⟨⟨rfl, ?_⟩, trivial⟩
    by_cases hrun : target = run
    · subst hrun
      simp [hf]
    · simp [hrun]
  | ok f =>
    rw [orThrow_ok_bind]
    refine ⟨rfl, ?_⟩
    by_cases hrun : target = run
    · subst hrun
      simp [hf, Store.withRun]
    · simp [hrun, Store.withRun, Function.update_of_ne (Ne.symm hrun)]

/-- `plugin.run` inherits what holds of its body. -/
theorem pluginRun_emits {block : Option (Eval Unit)} (target : ℕ) (ctx : CallContext)
    (hblock : ∀ body ∈ block, Effect.Spec (Machine.Emits w run) (fun _ => True) (fun _ => True) body) :
    Effect.Spec (Machine.Emits w run) Exn.IsError (fun _ => True) (pluginRun target ctx block) := by
  cases block with
  | none => exact Effect.spec_throw Machine.Emits.refl trivial
  | some body =>
    refine Effect.Spec.bind Machine.Emits.trans (Effect.spec_gets Machine.Emits.refl _) fun runs => ?_
    cases runs with
    | false => exact Effect.spec_pure Machine.Emits.refl _
    | true =>
      refine Effect.Spec.bind Machine.Emits.trans ?_ fun _ => Effect.spec_pure Machine.Emits.refl _
      refine Effect.Spec.tryCatch (E := fun _ => True) Machine.Emits.trans ?_ fun e _ => ?_
      · exact (hblock body rfl).within fun s t h => h
      · cases e with
        | returned v => exact Effect.spec_pure Machine.Emits.refl _
        | runtimeError e => exact Effect.spec_throw Machine.Emits.refl trivial

/-- A call keeps account of the findings. -/
theorem invoke_emits (fn : NativeFn) (ctx : CallContext) (block : Option (Eval Unit))
    (hblock : ∀ body ∈ block, Effect.Spec (Machine.Emits w run) (fun _ => True) (fun _ => True) body) :
    Effect.Spec (Machine.Emits w run) Exn.IsError (fun _ => True) (invoke w fn ctx block) := by
  unfold invoke
  by_cases hquiet : fn.op.IsQuiet
  · refine Effect.spec_modify_bind Machine.Quiet
      ((quietly_callNative w hquiet ctx block).mono (fun _ _ h => h) (fun _ h => h) fun _ _ => trivial) ?_
    intro m m' h
    exact emits_of_record (fun hop => by rw [hop] at hquiet; exact hquiet) (Machine.Quiet.emits h)
  · cases hop : fn.op with
    | pluginRun target =>
      refine Effect.spec_modify_bind (Machine.Emits w run) (pluginRun_emits target ctx hblock) ?_
      exact fun m m' h => emits_of_record (by rw [hop]; nofun) h
    | finding target =>
      have hspec : Effect.Spec (Machine.Reports w run fn ctx) Exn.IsError (fun _ => True) (findingFn w target ctx) :=
        (findingFn_spec target fn hop ctx).mono (fun _ _ h => h) (fun _ h => h) fun _ h => h.elim
      refine Effect.spec_modify_bind _ hspec ?_
      rintro m m' ⟨htrace, hfindings⟩
      refine ⟨[⟨fn, ctx, m.store⟩], htrace, hfindings.trans ?_⟩
      show (m.store.runs run).findings ++ (CallRecord.emitted w run ⟨fn, ctx, m.store⟩).toList = _
      rw [List.filterMap_cons]
      cases CallRecord.emitted w run ⟨fn, ctx, m.store⟩ <;> rfl
    | _ => rw [hop] at hquiet; exact (hquiet trivial).elim

/-- Evaluation keeps account of the findings, and expressions throw only errors. -/
theorem closed_emits (w : World) (run : ℕ) : Closed w
    (fun _ p => Effect.Spec (Machine.Emits w run) Exn.IsError (fun _ => True) p)
    (fun p => Effect.Spec (Machine.Emits w run) (fun _ => True) (fun _ => True) p) where
  ret a := Effect.spec_pure Machine.Emits.refl a
  gets f := Effect.spec_gets Machine.Emits.refl f
  error _ := Effect.spec_throw Machine.Emits.refl trivial
  bind hp hk := hp.bind Machine.Emits.trans hk
  invoke fn ctx block hblock := invoke_emits fn ctx block hblock
  done := Effect.spec_pure Machine.Emits.refl ()
  after hp hk := (hp.mono (fun _ _ h => h) (fun _ _ => trivial) fun _ h => h).bind Machine.Emits.trans hk
  next hp hq := hp.bind Machine.Emits.trans fun _ => hq
  assign name v := Effect.spec_modify fun m => ⟨[], by simp, by simp⟩
  scope hp := hp.within fun s t h => h
  returned _ := Effect.spec_throw Machine.Emits.refl trivial

end Emits

/-- The calls account for the faults: a computation faults exactly when it makes an unsafe call. -/
abbrev LogsCalls {α : Type} (w : World) (p : Eval α) : Prop :=
  Effect.Logs Machine.trace (fun c => CallRecord.safe w c = false) p

section Logs

variable {w : World}

/-- No calls were recorded. -/
def Machine.SameTrace (m m' : Machine) : Prop := m'.trace = m.trace

/-- A machine has its own trace. -/
theorem Machine.SameTrace.refl (m : Machine) : m.SameTrace m := rfl

/-- A computation that records nothing and does not fault. -/
theorem logsCalls_of_spec {α : Type} {p : Eval α}
    (h : Effect.Spec Machine.SameTrace (fun _ => True) (fun _ => False) p) : LogsCalls w p :=
  Effect.logs_of_spec h

/-- A value logs nothing. -/
theorem logsCalls_pure {α : Type} (a : α) : LogsCalls w (pure a) :=
  logsCalls_of_spec (Effect.spec_pure Machine.SameTrace.refl a)

/-- An exception logs nothing. -/
theorem logsCalls_throw {α : Type} (e : Exn) : LogsCalls w (Effect.throw e : Eval α) :=
  logsCalls_of_spec (Effect.spec_throw Machine.SameTrace.refl trivial)

/-- Reading the machine logs nothing. -/
theorem logsCalls_gets {α : Type} (f : Machine → α) : LogsCalls w (Effect.gets f) :=
  logsCalls_of_spec (Effect.spec_gets Machine.SameTrace.refl f)

/-- `plugin.run` inherits the account of its body. -/
theorem pluginRun_logsCalls {block : Option (Eval Unit)} (target : ℕ) (ctx : CallContext)
    (hblock : ∀ body ∈ block, LogsCalls w body) : LogsCalls w (pluginRun target ctx block) := by
  cases block with
  | none => exact logsCalls_throw _
  | some body =>
    refine (logsCalls_gets _).bind fun runs => ?_
    cases runs with
    | false => exact logsCalls_pure _
    | true =>
      refine Effect.Logs.bind ?_ fun _ => logsCalls_pure _
      refine Effect.Logs.tryCatch ?_ fun e => ?_
      · exact (hblock body rfl).within (fun _ => rfl) fun _ _ => rfl
      · cases e with
        | returned v => exact logsCalls_pure _
        | runtimeError e => exact logsCalls_throw _

/-- A call is unsafe just when it faults before its block runs. -/
theorem invoke_logsCalls (fn : NativeFn) (ctx : CallContext) (block : Option (Eval Unit))
    (hblock : ∀ body ∈ block, LogsCalls w body) : LogsCalls w (invoke w fn ctx block) := by
  refine Effect.logs_entry (fun m => ⟨fn, ctx, m.store⟩) (fun _ => rfl) fun m => ?_
  by_cases hquiet : fn.op.IsQuiet
  · refine ⟨[], ?_, ?_⟩
    · rw [List.append_nil]
      exact ((quietly_callNative w hquiet ctx block).state _).trace
    · have hstore : (m.record fn ctx).store = m.store := rfl
      rw [callNative_isFault w ctx _ fn hquiet block, hstore]
      simp only [List.not_mem_nil, false_and, exists_false, or_false]
  · have hmay : ¬fn.op.MayFault := by
      intro hmay
      cases hop : fn.op with
      | pluginRun target => rw [hop] at hmay; exact hmay
      | finding target => rw [hop] at hmay; exact hmay
      | _ => rw [hop] at hquiet; exact hquiet trivial
    have hsafe := CallRecord.safe_of_not_mayFault w (c := ⟨fn, ctx, m.store⟩) hmay
    rw [hsafe]
    have hlogs : LogsCalls w (callNative w fn.op ctx block) := by
      cases hop : fn.op with
      | pluginRun target => exact pluginRun_logsCalls target ctx hblock
      | finding target =>
        exact logsCalls_of_spec
          ((@findingFn_spec w target target fn hop ctx).mono (fun _ _ h => h.1) (fun _ _ => trivial)
            fun _ h => h)
      | _ => rw [hop] at hquiet; exact (hquiet trivial).elim
    obtain ⟨calls, htrace, hfault⟩ := hlogs (m.record fn ctx)
    exact ⟨calls, htrace, hfault.trans ⟨.inr, fun h => h.resolve_left nofun⟩⟩

/-- Evaluation keeps account of the faults. -/
theorem closed_logsCalls (w : World) : Closed w (fun _ p => LogsCalls w p) (fun p => LogsCalls w p) where
  ret a := logsCalls_pure a
  gets f := logsCalls_gets f
  error _ := logsCalls_throw _
  bind hp hk := hp.bind hk
  invoke fn ctx block hblock := invoke_logsCalls fn ctx block hblock
  done := logsCalls_pure ()
  after hp hk := hp.bind hk
  next hp hq := hp.bind fun _ => hq
  assign name v := logsCalls_of_spec (Effect.spec_modify fun m => Machine.assign_trace m name v)
  scope hp := hp.within (fun _ => rfl) fun _ _ => rfl
  returned _ := logsCalls_throw _

end Logs

/-- A `return` ends a list of statements, with its value and the machine it leaves: it is reached
through the statements before it and through the `if` statements around it. -/
inductive ReturnsIn (w : World) : List Stmt → Machine → Value → Machine → Prop
  | ret {before after : List Stmt} {pos : Pos} {value : Option Expr} {m m₁ m₂ : Machine} {v : Value}
      (reached : execStmts w before m = .ok () m₁) (hvalue : evalReturnValue w value m₁ = .ok v m₂) :
    ReturnsIn w (before ++ .ret pos value :: after) m v m₂
  | thenBranch {before after thenBranch elseBranch : List Stmt} {pos : Pos} {condition : Expr}
      {m m₁ m₂ m₃ : Machine} {c v : Value} (reached : execStmts w before m = .ok () m₁)
      (hcondition : evalExpr w condition m₁ = .ok c m₂) (htrue : isTruthy c = true)
      (inside : ReturnsIn w thenBranch m₂.push v m₃) :
    ReturnsIn w (before ++ .ifThen pos condition thenBranch elseBranch :: after) m v m₃.pop
  | elseBranch {before after thenBranch elseBranch : List Stmt} {pos : Pos} {condition : Expr}
      {m m₁ m₂ m₃ : Machine} {c v : Value} (reached : execStmts w before m = .ok () m₁)
      (hcondition : evalExpr w condition m₁ = .ok c m₂) (hfalse : isTruthy c = false)
      (inside : ReturnsIn w elseBranch m₂.push v m₃) :
    ReturnsIn w (before ++ .ifThen pos condition thenBranch elseBranch :: after) m v m₃.pop

section Returns

variable {w : World}

/-- Expressions throw nothing but errors. -/
theorem isError_of_evalExpr {e : Expr} {m m' : Machine} {x : Exn} (h : evalExpr w e m = .throw x m') :
    x.IsError := ((closed_emits w 0).expr e).exn h

/-- A return value throws nothing but errors. -/
theorem isError_of_evalReturnValue {value : Option Expr} {m m' : Machine} {x : Exn}
    (h : evalReturnValue w value m = .throw x m') : x.IsError := ((closed_emits w 0).returnValue value).exn h

/-- Statements behind others start where those end. -/
theorem execStmts_append {before : List Stmt} {m m₁ : Machine} (h : execStmts w before m = .ok () m₁)
    (after : List Stmt) : execStmts w (before ++ after) m = execStmts w after m₁ := by
  induction before generalizing m with
  | nil =>
    cases h
    rfl
  | cons s before ih =>
    replace h : (execStmt w s >>= fun _ => execStmts w before) m = .ok () m₁ := h
    show (execStmt w s >>= fun _ => execStmts w (before ++ after)) m = _
    cases hs : execStmt w s m with
    | ok u m₂ =>
      rw [Effect.bind_run_ok hs] at h ⊢
      exact ih h
    | throw x m₂ => rw [Effect.bind_run_throw hs] at h; cases h
    | fault f m₂ => rw [Effect.bind_run_fault hs] at h; cases h

/-- A statement in front that runs through does not matter. -/
theorem ReturnsIn.cons {s : Stmt} {stmts : List Stmt} {m m₁ m' : Machine} {v : Value}
    (hs : execStmt w s m = .ok () m₁) (h : ReturnsIn w stmts m₁ v m') : ReturnsIn w (s :: stmts) m v m' := by
  have hreached : ∀ {before : List Stmt} {m₂ : Machine}, execStmts w before m₁ = .ok () m₂ →
      execStmts w (s :: before) m = .ok () m₂ := fun h => (Effect.bind_run_ok hs _).trans h
  cases h with
  | ret reached hvalue => exact .ret (hreached reached) hvalue
  | thenBranch reached hcondition htrue inside => exact .thenBranch (hreached reached) hcondition htrue inside
  | elseBranch reached hcondition hfalse inside => exact .elseBranch (hreached reached) hcondition hfalse inside

/-- A block that throws has thrown inside its scope. -/
theorem exists_of_inBlockScope_throw {p : Eval Unit} {m m' : Machine} {x : Exn}
    (h : inBlockScope p m = .throw x m') : ∃ m₁, p m.push = .throw x m₁ ∧ m' = m₁.pop := by
  unfold inBlockScope Effect.within at h
  cases hp : p m.push with
  | ok u m₁ => rw [hp] at h; cases h
  | throw y m₁ => rw [hp] at h; cases h; exact ⟨m₁, rfl, rfl⟩
  | fault f m₁ => rw [hp] at h; cases h

/-- Statements that throw a `return` reach one. -/
theorem returnsIn_of_throw : ∀ (stmts : List Stmt) {m m' : Machine} {v : Value},
    execStmts w stmts m = .throw (.returned v) m' → ReturnsIn w stmts m v m'
  | [], _, _, _, h => nomatch h
  | s :: stmts, m, m', v, h => by
    replace h : (execStmt w s >>= fun _ => execStmts w stmts) m = .throw (.returned v) m' := h
    cases hs : execStmt w s m with
    | ok u m₁ =>
      rw [Effect.bind_run_ok hs] at h
      exact (returnsIn_of_throw stmts h).cons hs
    | fault f m₁ => rw [Effect.bind_run_fault hs] at h; cases h
    | throw x m₁ =>
      rw [Effect.bind_run_throw hs] at h
      cases h
      cases s with
      | includeModule pos name => cases hs
      | expr pos value =>
        replace hs : (evalExpr w value >>= fun _ => pure ()) m = .throw (.returned v) m' := hs
        cases hvalue : evalExpr w value m with
        | ok c m₂ => rw [Effect.bind_run_ok hvalue] at hs; cases hs
        | throw x m₂ => rw [Effect.bind_run_throw hvalue] at hs; cases hs; exact (isError_of_evalExpr hvalue).elim
        | fault f m₂ => rw [Effect.bind_run_fault hvalue] at hs; cases hs
      | assign pos name value =>
        replace hs : (evalExpr w value >>= fun v => Effect.modify fun m => m.assign name v) m =
          .throw (.returned v) m' := hs
        cases hvalue : evalExpr w value m with
        | ok c m₂ => rw [Effect.bind_run_ok hvalue] at hs; cases hs
        | throw x m₂ => rw [Effect.bind_run_throw hvalue] at hs; cases hs; exact (isError_of_evalExpr hvalue).elim
        | fault f m₂ => rw [Effect.bind_run_fault hvalue] at hs; cases hs
      | ret pos value =>
        replace hs : (evalReturnValue w value >>= fun v => Effect.throw (.returned v)) m =
          .throw (.returned v) m' := hs
        cases hvalue : evalReturnValue w value m with
        | ok c m₂ =>
          rw [Effect.bind_run_ok hvalue] at hs
          cases hs
          exact @ReturnsIn.ret _ [] _ _ _ _ _ _ _ rfl hvalue
        | throw x m₂ =>
          rw [Effect.bind_run_throw hvalue] at hs
          cases hs
          exact (isError_of_evalReturnValue hvalue).elim
        | fault f m₂ => rw [Effect.bind_run_fault hvalue] at hs; cases hs
      | ifThen pos condition thenBranch elseBranch =>
        unfold execStmt at hs
        cases hcondition : evalExpr w condition m with
        | throw x m₂ =>
          rw [Effect.bind_run_throw hcondition] at hs
          cases hs
          exact (isError_of_evalExpr hcondition).elim
        | fault f m₂ => rw [Effect.bind_run_fault hcondition] at hs; cases hs
        | ok c m₂ =>
          rw [Effect.bind_run_ok hcondition] at hs
          cases hc : isTruthy c with
          | true =>
            rw [if_pos hc] at hs
            obtain ⟨m₃, hinside, rfl⟩ := exists_of_inBlockScope_throw hs
            exact @ReturnsIn.thenBranch _ [] _ _ _ _ _ _ _ _ _ _ _ rfl hcondition hc
              (returnsIn_of_throw thenBranch hinside)
          | false =>
            rw [if_neg (by simp [hc])] at hs
            split at hs
            · cases hs
            · obtain ⟨m₃, hinside, rfl⟩ := exists_of_inBlockScope_throw hs
              exact @ReturnsIn.elseBranch _ [] _ _ _ _ _ _ _ _ _ _ _ rfl hcondition hc
                (returnsIn_of_throw elseBranch hinside)

/-- A `return` that is reached ends the statements, and nothing behind it runs. -/
theorem ReturnsIn.throws {stmts : List Stmt} {m m' : Machine} {v : Value} (h : ReturnsIn w stmts m v m') :
    execStmts w stmts m = .throw (.returned v) m' := by
  induction h with
  | ret reached hvalue =>
    rw [execStmts_append reached]
    exact Effect.bind_run_throw (Effect.bind_run_ok hvalue _) _
  | thenBranch reached hcondition htrue inside ih =>
    rw [execStmts_append reached]
    refine Effect.bind_run_throw ?_ _
    unfold execStmt
    rw [Effect.bind_run_ok hcondition, if_pos htrue, inBlockScope, Effect.within, ih]
    rfl
  | @elseBranch before after thenBranch elseBranch pos condition m m₁ m₂ m₃ c v reached hcondition hfalse inside ih =>
    rw [execStmts_append reached]
    refine Effect.bind_run_throw ?_ _
    have hne : elseBranch.isEmpty = false := by
      cases elseBranch with
      | nil => cases ih
      | cons s stmts => rfl
    unfold execStmt
    rw [Effect.bind_run_ok hcondition, if_neg (by simp [hfalse]), if_neg (by simp [hne]), inBlockScope,
      Effect.within, ih]
    rfl

/-- Statements throw a `return` exactly when they reach one. -/
theorem execStmts_returned_iff {stmts : List Stmt} {m m' : Machine} {v : Value} :
    execStmts w stmts m = .throw (.returned v) m' ↔ ReturnsIn w stmts m v m' :=
  ⟨returnsIn_of_throw stmts, ReturnsIn.throws⟩

/-- A call of `plugin.run` ends where its body returns: the rest of the body is skipped, and the call
has a value like any other. -/
theorem invoke_pluginRun_of_returnsIn {fn : NativeFn} {ctx : CallContext} {run : ℕ} {body : List Stmt}
    {m m' : Machine} {v : Value} (hop : fn.op = .pluginRun run) (hruns : (m.store.runs run).runsBody = true)
    (h : ReturnsIn w body (m.record fn ctx).enterGlobal v m') :
    invoke w fn ctx (evalBlock w (some body)) m = .ok .null (m.restore m') := by
  have hbody : inGlobalScope (execStmts w body) (m.record fn ctx) =
      .throw (.returned v) (m.restore m') := by
    rw [inGlobalScope, Effect.within_run, h.throws]
    rfl
  have hcatch : catchReturn (inGlobalScope (execStmts w body)) (m.record fn ctx) = .ok () (m.restore m') :=
    Effect.tryCatch_run_throw hbody _
  show callNative w fn.op ctx (some (execStmts w body)) (m.record fn ctx) = _
  rw [hop]
  show pluginRun run ctx (some (execStmts w body)) (m.record fn ctx) = _
  rw [pluginRun_some, if_pos (show (m.record fn ctx |>.store.runs run).runsBody = true from hruns)]
  exact Effect.bind_run_ok hcatch _

end Returns

section Runs

variable (w : World) (p : LoadedPlugin) (host : Bytes) (port : ℤ) (known : Bytes) (hasKb : Bool) (s : Store)

/-- How the interpretation inside `run_plugin` ends, before the handlers. -/
def interpretation : Outcome Machine Exn Fault Unit :=
  interpretPlugin w p s.nextRun (initialMachine p host port known hasKb s)

/-- The native calls of a run in evaluation order. -/
def runCalls : List CallRecord := (interpretation w p host port known hasKb s).state.trace

/-- The debug finding for the error that escaped, if one did. -/
def escapedFinding : List FindingOut :=
  match interpretation w p host port known hasKb s with
  | .throw (.runtimeError e) m => [errorFinding p (m.store.runs s.nextRun) port e.what]
  | _ => []

/-- A run is contained: it returns what its calls of `finding` reported and what escaped; a `return`
inside a `plugin.run` body ends that body and nothing else; one outside ends the program. -/
structure Contained : Prop where
  returns : ∃ r s', runPlugin w p host port known hasKb s = some (r, s') ∧
    r.findings = (runCalls w p host port known hasKb s).filterMap (·.emitted w s.nextRun) ++
      escapedFinding w p host port known hasKb s
  body_return : ∀ (fn : NativeFn) (ctx : CallContext) (run : ℕ) (body : List Stmt) (m m' : Machine) (v : Value),
    fn.op = .pluginRun run → (m.store.runs run).runsBody = true →
    execStmts w body (m.record fn ctx).enterGlobal = .throw (.returned v) m' →
    ReturnsIn w body (m.record fn ctx).enterGlobal v m' ∧
      invoke w fn ctx (evalBlock w (some body)) m = .ok .null (m.restore m')
  top_return : ∀ (v : Value) (m' : Machine), interpretation w p host port known hasKb s = .throw (.returned v) m' →
    (∃ m, registerStdlib s.nextRun (initialMachine p host port known hasKb s) = .ok () m ∧
      ReturnsIn w p.program.statements m v m') ∧
    escapedFinding w p host port known hasKb s = []

/-- The interpretation faults exactly when it makes an unsafe call, and its calls account for the
findings of the run. -/
theorem interpretation_spec :
    ((interpretation w p host port known hasKb s).IsFault ↔
      ∃ c ∈ runCalls w p host port known hasKb s, c.safe w = false) ∧
    ((interpretation w p host port known hasKb s).state.store.runs s.nextRun).findings =
      (runCalls w p host port known hasKb s).filterMap (·.emitted w s.nextRun) := by
  obtain ⟨_, m, hregister, hsilent⟩ :=
    (silently_registerStdlib s.nextRun).run_ok (initialMachine p host port known hasKb s)
  have hrun : interpretation w p host port known hasKb s = execStmts w p.program.statements m :=
    Effect.bind_run_ok hregister _
  obtain ⟨calls, hcalls, hfault⟩ := (closed_logsCalls w).stmts p.program.statements m
  obtain ⟨calls', hcalls', hemits⟩ := ((closed_emits w s.nextRun).stmts p.program.statements).state m
  rw [hcalls'] at hcalls
  obtain rfl := List.append_cancel_left hcalls
  have hempty : m.trace = [] := hsilent.trace
  have hnone : (m.store.runs s.nextRun).findings = [] := by
    rw [hsilent.runs]
    simp [initialMachine, Store.begin]
  rw [hempty, List.nil_append] at hcalls'
  rw [hnone, List.nil_append] at hemits
  rw [runCalls, hrun, hcalls']
  exact ⟨hfault, hemits⟩

/-- `run_plugin` returns exactly when each of its native calls is safe in the state in which it is made. -/
theorem runPlugin_isSome_iff :
    (runPlugin w p host port known hasKb s).isSome ↔
      ∀ c ∈ runCalls w p host port known hasKb s, c.safe w = true := by
  have hsafe : (∀ c ∈ runCalls w p host port known hasKb s, c.safe w = true) ↔
      ¬(interpretation w p host port known hasKb s).IsFault := by
    rw [(interpretation_spec w p host port known hasKb s).1]
    simp
  rw [hsafe, runPlugin, runPluginEval]
  cases hi : interpretation w p host port known hasKb s with
  | fault f m =>
    rw [Effect.tryCatch_run_fault hi]
    exact iff_of_false Bool.noConfusion fun hreturns => hreturns trivial
  | ok u m =>
    rw [Effect.tryCatch_run_ok hi]
    exact iff_of_true rfl id
  | throw e m =>
    rw [Effect.tryCatch_run_throw hi]
    cases e with
    | returned v => exact iff_of_true rfl id
    | runtimeError e => exact iff_of_true rfl id

/-- A run is contained exactly when each of its native calls is safe in the state in which it is made:
no header method is called without its receiver, and no call of the system fails to come back. -/
theorem contained_iff_safe :
    Contained w p host port known hasKb s ↔ ∀ c ∈ runCalls w p host port known hasKb s, c.safe w = true := by
  obtain ⟨hfault, hfindings⟩ := interpretation_spec w p host port known hasKb s
  constructor
  · rintro ⟨⟨r, s', hr, -⟩, -, -⟩
    exact (runPlugin_isSome_iff w p host port known hasKb s).mp (Option.isSome_iff_exists.mpr ⟨_, hr⟩)
  · intro hsafe
    have hf : ¬(interpretation w p host port known hasKb s).IsFault := by
      rw [hfault]
      simpa using hsafe
    refine ⟨?_, ?_, ?_⟩
    · rw [runPlugin, runPluginEval, escapedFinding, ← hfindings]
      cases hi : interpretation w p host port known hasKb s with
      | fault f m => rw [hi] at hf; exact (hf trivial).elim
      | ok u m =>
        rw [Effect.tryCatch_run_ok hi]
        exact ⟨_, _, rfl, (List.append_nil _).symm⟩
      | throw e m =>
        rw [Effect.tryCatch_run_throw hi]
        cases e with
        | returned v => exact ⟨_, _, rfl, (List.append_nil _).symm⟩
        | runtimeError e =>
          refine ⟨_, _, rfl, ?_⟩
          simp [RunState.outcome, Store.withRun, Outcome.state]
    · intro fn ctx run body m m' v hop hruns hbody
      have hreturns := execStmts_returned_iff.mp hbody
      exact ⟨hreturns, invoke_pluginRun_of_returnsIn hop hruns hreturns⟩
    · intro v m' hi
      obtain ⟨_, m, hregister, -⟩ :=
        (silently_registerStdlib s.nextRun).run_ok (initialMachine p host port known hasKb s)
      refine ⟨⟨m, hregister, ?_⟩, ?_⟩
      · rw [← execStmts_returned_iff, ← hi]
        exact (Effect.bind_run_ok hregister fun _ => runProgram w p.program).symm
      · rw [escapedFinding, hi]

end Runs

/-- A server that answers every request with an empty page. -/
def pageServer : Network where
  connect _ := true
  send _ := some true
  receive
    | .receive _ _ :: .send _ _ :: _ => some (str "HTTP/1.1 200 OK" ++ crlf ++ crlf)
    | _ => none
  handshake _ := some {}
  clock _ := 0

/-- A plugin that calls a bound header method. -/
def boundHeaderText : Bytes :=
  str "plugin.run \x7b f = net::http(host: target.host).request().header(\"x\").exists; f(); \x7d"

/-- A function expression over a header method ends the process, although errors in a plugin are
meant to become debug findings. -/
theorem not_contained_boundHeader :
    ∃ p, loadPlugin ⟨pageServer, []⟩ (str "p.ztl") boundHeaderText = .ok p ∧
      ¬Contained ⟨pageServer, []⟩ p (str "10.0.0.1") 80 [] true {} := by
  have hdies : (match loadPlugin ⟨pageServer, []⟩ (str "p.ztl") boundHeaderText with
      | .ok p => (runPlugin ⟨pageServer, []⟩ p (str "10.0.0.1") 80 [] true {}).isNone
      | .error _ => false) = true := by decide +kernel
  cases hload : loadPlugin ⟨pageServer, []⟩ (str "p.ztl") boundHeaderText with
  | error e => rw [hload] at hdies; exact Bool.noConfusion hdies
  | ok p =>
    rw [hload] at hdies
    refine ⟨p, rfl, fun h => ?_⟩
    obtain ⟨r, s', hr, -⟩ := h.returns
    simp only [hr, Option.isNone_some] at hdies
    exact Bool.noConfusion hdies

end ZeroTrust.Ztl
