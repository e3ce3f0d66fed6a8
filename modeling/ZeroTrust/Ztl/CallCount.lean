import ZeroTrust.Ztl.Steps

/-!
# Counted evaluation

The interpreter once more, with a record of the `Call` nodes that it evaluates. The nodes of a program
are numbered in the order in which a run would come to them, so a record that only goes up evaluates no
node twice.
-/

namespace ZeroTrust.Ztl

mutual

/-- The number of `Call` nodes of an expression. -/
def Expr.calls : Expr → ℕ
  | .null _ | .bool _ _ | .number _ _ | .string _ _ | .ident _ _ | .scoped _ _ _ => 0
  | .member _ object _ => object.calls
  | .call _ callee args block => 1 + (argsCalls args + (callee.calls + blockCalls block))
  | .unary _ _ operand => operand.calls
  | .binary _ _ lhs rhs => lhs.calls + rhs.calls

/-- The number of `Call` nodes of arguments. -/
def argsCalls : List CallArg → ℕ
  | [] => 0
  | .mk _ value :: args => value.calls + argsCalls args

/-- The number of `Call` nodes of a trailing block. -/
def blockCalls : Option (List Stmt) → ℕ
  | none => 0
  | some body => stmtsCalls body

/-- The number of `Call` nodes of a returned value. -/
def valueCalls : Option Expr → ℕ
  | none => 0
  | some value => value.calls

/-- The number of `Call` nodes of a statement. -/
def Stmt.calls : Stmt → ℕ
  | .includeModule _ _ => 0
  | .expr _ value => value.calls
  | .assign _ _ value => value.calls
  | .ifThen _ condition thenBranch elseBranch =>
    condition.calls + (stmtsCalls thenBranch + stmtsCalls elseBranch)
  | .ret _ value => valueCalls value

/-- The number of `Call` nodes of statements. -/
def stmtsCalls : List Stmt → ℕ
  | [] => 0
  | stmt :: stmts => stmt.calls + stmtsCalls stmts

end

/-- The number of `Call` nodes of a program. -/
def Program.calls (p : Program) : ℕ := stmtsCalls p.statements

/-- A machine and the numbers of the nodes that were evaluated. -/
structure Counting where
  machine : Machine
  visited : List ℕ := []

/-- A computation that records nodes. -/
abbrev Counted (α : Type) := Effect Counting Exn Fault α

/-- A computation that evaluates no node. -/
def counted {α : Type} (p : Eval α) : Counted α := fun s => (p s.machine).mapState fun m => { s with machine := m }

/-- The node is evaluated now. -/
def visit (n : ℕ) : Counted Unit := Effect.modify fun s => { s with visited := s.visited ++ [n] }

/-- Change the machine around a computation. -/
def withinCounted {α : Type} (enter : Machine → Machine) (leave : Machine → Machine → Machine)
    (q : Counted α) : Counted α :=
  q.within (fun s => { s with machine := enter s.machine })
    fun s t => { t with machine := leave s.machine t.machine }

/-- Run in a fresh scope inside the current one. -/
def inBlockScopeCounted (body : Counted Unit) : Counted Unit := withinCounted Machine.push (fun _ m => m.pop) body

/-- A `return` ends the block. -/
def catchReturnCounted (body : Counted Unit) : Counted Unit := body.tryCatch fun
  | .returned _ => pure ()
  | e => Effect.throw e

/-- `Plugin.run`, with a block that is counted. -/
def pluginRunCounted (run : ℕ) (ctx : CallContext) : Option (Counted Unit) → Counted Value
  | none => counted (pluginRun run ctx none)
  | some body => do
    if ← counted (readRun run (·.runsBody)) then
      catchReturnCounted (withinCounted Machine.enterGlobal Machine.restore body)
    return .null

/-- A native call, with a block that is counted. -/
def invokeCounted (w : World) (fn : NativeFn) (ctx : CallContext) (block : Option (Counted Unit)) :
    Counted Value :=
  match fn.op with
  | .pluginRun run => do
    counted (Effect.modify (·.record fn ctx))
    pluginRunCounted run ctx block
  | _ => counted (invoke w fn ctx none)

/-- `invoke_method`, with a block that is counted. -/
def invokeMethodCounted (w : World) (receiver : Value) (method : Bytes) (args : Arguments)
    (block : Option (Counted Unit)) (pos : Pos) : Counted Value :=
  match receiver with
  | .object address => do
    let o ← counted (readStore (·.objects address))
    match o.methods method with
    | some fn => invokeCounted w fn ⟨receiver, args.positional, args.named, pos⟩ block
    | none => counted (runtimeError pos
        (str "object '" ++ o.typeName ++ str "' has no method '" ++ method ++ str "'"))
  | v => counted (invokeMethod w v method args none pos)

/-- `invoke_function`, with a block that is counted. -/
def invokeFunctionCounted (w : World) (callee : Value) (args : Arguments) (block : Option (Counted Unit))
    (pos : Pos) : Counted Value :=
  match callee with
  | .function fn => invokeCounted w fn ⟨.null, args.positional, args.named, pos⟩ block
  | v => counted (invokeFunction w v args none pos)

mutual

/-- `eval_expr`, where the nodes of the expression have the numbers from `n` on. -/
def evalExprCounted (w : World) : ℕ → Expr → Counted Value
  | n, .member _ object member => do
    let receiver ← evalExprCounted w n object
    counted (memberOf receiver member object.pos)
  | n, .call pos (.member _ object method) args block => do
    visit n
    let done ← evalArgsCounted w (n + 1) args {}
    let receiver ← evalExprCounted w (n + 1 + argsCalls args) object
    invokeMethodCounted w receiver method done
      (evalBlockCounted w (n + 1 + argsCalls args + object.calls) block) pos
  | n, .call pos callee args block => do
    visit n
    let done ← evalArgsCounted w (n + 1) args {}
    let receiver ← evalExprCounted w (n + 1 + argsCalls args) callee
    invokeFunctionCounted w receiver done
      (evalBlockCounted w (n + 1 + argsCalls args + callee.calls) block) pos
  | n, .unary pos op operand => do
    let operand ← evalExprCounted w n operand
    counted (orThrow (applyUnary op operand pos))
  | n, .binary pos op lhs rhs => do
    let l ← evalExprCounted w n lhs
    match op with
    | .and => if isTruthy l then evalExprCounted w (n + lhs.calls) rhs else return l
    | .or => if isTruthy l then return l else evalExprCounted w (n + lhs.calls) rhs
    | op =>
      let r ← evalExprCounted w (n + lhs.calls) rhs
      let result ← counted (readStore fun s => applyBinary s op l r pos)
      counted (orThrow result)
  | _, e => counted (evalExpr w e)

/-- The arguments of a call, from left to right. -/
def evalArgsCounted (w : World) : ℕ → List CallArg → Arguments → Counted Arguments
  | _, [], done => return done
  | n, .mk name value :: args, done => do
    let v ← evalExprCounted w n value
    evalArgsCounted w (n + value.calls) args (done.push name v)

/-- A trailing block as a computation for its callback. -/
def evalBlockCounted (w : World) : ℕ → Option (List Stmt) → Option (Counted Unit)
  | _, none => none
  | n, some body => some (execStmtsCounted w n body)

/-- `exec_stmt`. -/
def execStmtCounted (w : World) : ℕ → Stmt → Counted Unit
  | _, .includeModule _ _ => return ()
  | n, .expr _ value => do
    let _ ← evalExprCounted w n value
    return ()
  | n, .assign _ targetName value => do
    let v ← evalExprCounted w n value
    counted (Effect.modify fun m => m.assign targetName v)
  | n, .ifThen _ condition thenBranch elseBranch => do
    let cond ← evalExprCounted w n condition
    if isTruthy cond then
      inBlockScopeCounted (execStmtsCounted w (n + condition.calls) thenBranch)
    else if elseBranch.isEmpty then return ()
    else inBlockScopeCounted (execStmtsCounted w (n + condition.calls + stmtsCalls thenBranch) elseBranch)
  | n, .ret _ value => do
    let v ← evalReturnValueCounted w n value
    Effect.throw (.returned v)

/-- The value of a `return`, null without one. -/
def evalReturnValueCounted (w : World) : ℕ → Option Expr → Counted Value
  | _, none => return .null
  | n, some value => evalExprCounted w n value

/-- Statements in order. -/
def execStmtsCounted (w : World) : ℕ → List Stmt → Counted Unit
  | _, [] => return ()
  | n, stmt :: stmts => do
    execStmtCounted w n stmt
    execStmtsCounted w (n + stmt.calls) stmts

end

/-- The interpretation inside `run_plugin`. -/
def interpretPluginCounted (w : World) (p : LoadedPlugin) (run : ℕ) : Counted Unit := do
  counted (registerStdlib run)
  execStmtsCounted w 0 p.program.statements

/-- The computations do the same, the numbers that are recorded go up from `n` and below `n + count`,
and there are at least as many of them as native calls, but for `slack`. -/
def Counts {α : Type} (n count slack : ℕ) (q : Counted α) (p : Eval α) : Prop := ∀ s,
  (q s).mapState Counting.machine = p s.machine ∧
    ∃ visited, (q s).state.visited = s.visited ++ visited ∧ visited.Sublist (List.range' n count) ∧
      (q s).state.machine.trace.length ≤ s.machine.trace.length + visited.length + slack

section Rules

variable {α β : Type} {n a b d e : ℕ}

/-- More nodes and more slack do no harm. -/
theorem Counts.mono {q : Counted α} {p : Eval α} (h : Counts n a d q p) (hcount : a ≤ b) (hslack : d ≤ e) :
    Counts n b e q p := by
  intro s
  obtain ⟨heq, visited, hvisited, hsub, htrace⟩ := h s
  refine ⟨heq, visited, hvisited, hsub.trans ?_, htrace.trans (Nat.add_le_add_left hslack _)⟩
  rw [← Nat.add_sub_cancel' hcount, ← List.range'_append_1]
  exact List.sublist_append_left _ _

/-- The nodes before those of the computation are skipped. -/
theorem Counts.skip {q : Counted α} {p : Eval α} (h : Counts (n + a) b d q p) : Counts n (a + b) d q p := by
  intro s
  obtain ⟨heq, visited, hvisited, hsub, htrace⟩ := h s
  refine ⟨heq, visited, hvisited, hsub.trans ?_, htrace⟩
  rw [← List.range'_append_1]
  exact List.sublist_append_right _ _

/-- A computation that makes few calls and evaluates no node. -/
theorem counts_counted {p : Eval α} (h : ∀ m : Machine, (p m).state.trace.length ≤ m.trace.length + d) :
    Counts n 0 d (counted p) p := by
  intro s
  have hs := h s.machine
  unfold counted
  cases hp : p s.machine with
  | ok x m => rw [hp] at hs; exact ⟨rfl, [], (List.append_nil _).symm, List.nil_sublist _, hs⟩
  | throw x m => rw [hp] at hs; exact ⟨rfl, [], (List.append_nil _).symm, List.nil_sublist _, hs⟩
  | fault x m => rw [hp] at hs; exact ⟨rfl, [], (List.append_nil _).symm, List.nil_sublist _, hs⟩

/-- The bounds of two computations in a row add up. -/
theorem Counts.bind {q : Counted α} {p : Eval α} {k : α → Counted β} {k' : α → Eval β}
    (h : Counts n a d q p) (hk : ∀ x, Counts (n + a) b e (k x) (k' x)) :
    Counts n (a + b) (d + e) (q >>= k) (p >>= k') := by
  intro s
  obtain ⟨heq, visited, hvisited, hsub, htrace⟩ := h s
  have hlong : visited.Sublist (List.range' n (a + b)) := by
    rw [← List.range'_append_1]
    exact hsub.trans (List.sublist_append_left _ _)
  cases hq : q s with
  | throw x t =>
    rw [hq] at heq hvisited htrace
    rw [Effect.bind_run_throw hq, Effect.bind_run_throw heq.symm]
    exact ⟨rfl, visited, hvisited, hlong, htrace.trans (Nat.add_le_add_left (Nat.le_add_right d e) _)⟩
  | fault x t =>
    rw [hq] at heq hvisited htrace
    rw [Effect.bind_run_fault hq, Effect.bind_run_fault heq.symm]
    exact ⟨rfl, visited, hvisited, hlong, htrace.trans (Nat.add_le_add_left (Nat.le_add_right d e) _)⟩
  | ok x t =>
    rw [hq] at heq hvisited htrace
    rw [Effect.bind_run_ok hq, Effect.bind_run_ok heq.symm]
    obtain ⟨heq', visited', hvisited', hsub', htrace'⟩ := hk x t
    refine ⟨heq', visited ++ visited', ?_, ?_, ?_⟩
    · rw [hvisited', ← List.append_assoc]
      exact congrArg (· ++ visited') hvisited
    · rw [← List.range'_append_1]
      exact hsub.append hsub'
    · rw [List.length_append]
      change t.machine.trace.length ≤ _ at htrace
      omega

/-- A node is recorded before the rest of its evaluation, and pays for one call. -/
theorem Counts.visit {q : Counted α} {p : Eval α} (h : Counts (n + 1) a 1 q p) :
    Counts n (1 + a) 0 (Ztl.visit n >>= fun _ => q) p := by
  intro s
  obtain ⟨heq, visited, hvisited, hsub, htrace⟩ := h { s with visited := s.visited ++ [n] }
  refine ⟨heq, n :: visited, ?_, ?_, ?_⟩
  · change (q _).state.visited = _
    rw [hvisited, List.append_assoc, List.singleton_append]
  · rw [← List.range'_append_1]
    exact (List.Sublist.refl [n]).append hsub
  · rw [List.length_cons]
    change (q _).state.machine.trace.length ≤ _
    change _ ≤ s.machine.trace.length + visited.length + 1 at htrace
    omega

/-- Entering and leaving a scope counts nothing. -/
theorem Counts.within {q : Counted α} {p : Eval α} (h : Counts n a d q p) {enter : Machine → Machine}
    {leave : Machine → Machine → Machine} (henter : ∀ m, (enter m).trace = m.trace)
    (hleave : ∀ m m', (leave m m').trace = m'.trace) :
    Counts n a d (withinCounted enter leave q) (p.within enter leave) := by
  intro s
  obtain ⟨heq, visited, hvisited, hsub, htrace⟩ := h { s with machine := enter s.machine }
  dsimp only at heq
  rw [withinCounted, Effect.within_run, Effect.within_run, ← heq]
  dsimp only at htrace
  rw [henter] at htrace
  cases hq : q { s with machine := enter s.machine } with
  | ok x t => rw [hq] at hvisited htrace; exact ⟨rfl, visited, hvisited, hsub, by rwa [← hleave s.machine] at htrace⟩
  | throw x t => rw [hq] at hvisited htrace; exact ⟨rfl, visited, hvisited, hsub, by rwa [← hleave s.machine] at htrace⟩
  | fault x t => rw [hq] at hvisited htrace; exact ⟨rfl, visited, hvisited, hsub, by rwa [← hleave s.machine] at htrace⟩

/-- A handler that makes no call. -/
theorem Counts.tryCatch {q : Counted Unit} {p : Eval Unit} (h : Counts n a d q p)
    {handler : Exn → Counted Unit} {handler' : Exn → Eval Unit}
    (hhandler : ∀ x, Counts (n + a) 0 0 (handler x) (handler' x)) :
    Counts n a d (q.tryCatch handler) (p.tryCatch handler') := by
  intro s
  obtain ⟨heq, visited, hvisited, hsub, htrace⟩ := h s
  cases hq : q s with
  | ok x t =>
    rw [hq] at heq hvisited htrace
    rw [Effect.tryCatch_run_ok hq, Effect.tryCatch_run_ok heq.symm]
    exact ⟨rfl, visited, hvisited, hsub, htrace⟩
  | fault x t =>
    rw [hq] at heq hvisited htrace
    rw [Effect.tryCatch_run_fault hq, Effect.tryCatch_run_fault heq.symm]
    exact ⟨rfl, visited, hvisited, hsub, htrace⟩
  | throw x t =>
    rw [hq] at heq hvisited htrace
    rw [Effect.tryCatch_run_throw hq, Effect.tryCatch_run_throw heq.symm]
    obtain ⟨heq', visited', hvisited', hsub', htrace'⟩ := hhandler x t
    rw [List.range'_zero, List.sublist_nil] at hsub'
    subst hsub'
    refine ⟨heq', visited, ?_, hsub, ?_⟩
    · rw [hvisited', List.append_nil]
      exact hvisited
    · change t.machine.trace.length ≤ _ at htrace
      rw [List.length_nil] at htrace'
      omega

/-- A computation without calls. -/
theorem counts_silent {p : Eval α} (h : Quietly (fun _ => True) p) : Counts n a d (counted p) p := by
  apply Counts.mono _ (Nat.zero_le a) (Nat.zero_le d)
  apply counts_counted
  intro m
  rw [(h.state m).trace]
  exact Nat.le_refl _

/-- A value counts nothing. -/
theorem counts_pure (v : α) : Counts n a d (pure v) (pure v) := fun _ =>
  ⟨rfl, [], (List.append_nil _).symm, List.nil_sublist _, Nat.le_add_right ..⟩

/-- An exception counts nothing. -/
theorem counts_throw (x : Exn) : Counts n a d (Effect.throw x : Counted α) (Effect.throw x) := fun _ =>
  ⟨rfl, [], (List.append_nil _).symm, List.nil_sublist _, Nat.le_add_right ..⟩

/-- A computation without calls in front. -/
theorem Counts.after {p : Eval α} (h : Quietly (fun _ => True) p) {k : α → Counted β} {k' : α → Eval β}
    (hk : ∀ x, Counts n b e (k x) (k' x)) : Counts n b e (counted p >>= k) (p >>= k') := by
  have hbind := (@counts_silent _ n 0 0 _ h).bind hk
  rwa [Nat.zero_add, Nat.zero_add] at hbind

end Rules

section Calls

variable {w : World} {n b : ℕ} {counting : Option (Counted Unit)} {block : Option (Eval Unit)}

/-- A call other than `plugin.run` does not run its block, and makes no further call. -/
theorem callNative_trace {fn : NativeFn} (h : ∀ run, fn.op ≠ .pluginRun run) (ctx : CallContext)
    (block : Option (Eval Unit)) (m : Machine) :
    callNative w fn.op ctx block = callNative w fn.op ctx none ∧
      (callNative w fn.op ctx none m).state.trace = m.trace := by
  by_cases hquiet : fn.op.IsQuiet
  · exact ⟨callNative_block_irrelevant w hquiet ctx block, ((quietly_callNative w hquiet ctx none).state m).trace⟩
  · cases hop : fn.op with
    | pluginRun run => exact (h run hop).elim
    | finding run => exact ⟨rfl, ((@findingFn_spec w run run fn hop ctx).state m).1⟩
    | _ => rw [hop] at hquiet; exact (hquiet trivial).elim

/-- Such a call is recorded once. -/
theorem counts_invoke {fn : NativeFn} (h : ∀ run, fn.op ≠ .pluginRun run) (ctx : CallContext) :
    Counts n b 1 (counted (invoke w fn ctx none)) (invoke w fn ctx block) := by
  have hblock : invoke w fn ctx block = invoke w fn ctx none := by
    funext m
    rw [invoke, invoke, (callNative_trace h ctx block m).1]
  rw [hblock]
  apply Counts.mono _ (Nat.zero_le b) (Nat.le_refl 1)
  apply counts_counted
  intro m
  rw [invoke, Effect.modify_bind_run, (callNative_trace h ctx none _).2]
  exact (List.length_append ..).le

/-- Catching a return counts what is run inside. -/
theorem counts_catchReturn {q : Counted Unit} {p : Eval Unit} (h : Counts n b 0 q p) :
    Counts n b 0 (catchReturnCounted q) (catchReturn p) := by
  apply h.tryCatch
  intro x
  cases x with
  | returned v => exact counts_pure _
  | runtimeError e => exact counts_throw _

/-- The nodes of a block are evaluated when `plugin.run` runs it. -/
theorem counts_pluginRun (h : Option.Rel (Counts n b 0) counting block) (run : ℕ) (ctx : CallContext) :
    Counts n b 0 (pluginRunCounted run ctx counting) (pluginRun run ctx block) := by
  cases h with
  | none =>
    have hsilent : Quietly (fun _ => True) (pluginRun run ctx none) := quietly_runtimeError _ _
    exact counts_silent hsilent
  | some hbody =>
    apply Counts.after (quietly_readRun run _)
    intro runs
    cases runs with
    | false => exact counts_pure _
    | true =>
      have hscope := hbody.within (fun m => show m.enterGlobal.trace = m.trace from rfl)
        fun m m' => show (m.restore m').trace = m'.trace from rfl
      exact (counts_catchReturn hscope).bind fun _ => @counts_pure _ (n + b) 0 0 _

/-- A native counts itself and its block. -/
theorem counts_invokeCounted (h : Option.Rel (Counts n b 0) counting block) (fn : NativeFn) (ctx : CallContext) :
    Counts n b 1 (invokeCounted w fn ctx counting) (invoke w fn ctx block) := by
  by_cases hrun : ∃ run, fn.op = .pluginRun run
  · obtain ⟨run, hop⟩ := hrun
    have hrecord : Counts n 0 1 (counted (Effect.modify (·.record fn ctx))) (Effect.modify (·.record fn ctx)) :=
      counts_counted fun m => (List.length_append ..).le
    have hbind := hrecord.bind fun _ => counts_pluginRun h run ctx
    rw [Nat.zero_add] at hbind
    unfold invokeCounted invoke
    rw [hop]
    exact hbind
  · have hother := @counts_invoke w n b block fn (fun run hop => hrun ⟨run, hop⟩) ctx
    unfold invokeCounted
    split
    · exact (hrun ⟨_, ‹_›⟩).elim
    · exact hother

/-- A method call counts its native and its block. -/
theorem counts_invokeMethod (h : Option.Rel (Counts n b 0) counting block) (receiver : Value) (method : Bytes)
    (args : Arguments) (pos : Pos) :
    Counts n b 1 (invokeMethodCounted w receiver method args counting pos)
      (invokeMethod w receiver method args block pos) := by
  cases receiver with
  | object address =>
    apply Counts.after (quietly_readStore _)
    intro o
    cases o.methods method with
    | some fn => exact counts_invokeCounted h fn _
    | none => exact counts_silent (quietly_runtimeError _ _)
  | string s => exact counts_silent (quietly_orThrow _)
  | _ => exact counts_silent (quietly_runtimeError _ _)

/-- A function call counts its native and its block. -/
theorem counts_invokeFunction (h : Option.Rel (Counts n b 0) counting block) (callee : Value)
    (args : Arguments) (pos : Pos) :
    Counts n b 1 (invokeFunctionCounted w callee args counting pos) (invokeFunction w callee args block pos) := by
  cases callee with
  | function fn => exact counts_invokeCounted h fn _
  | _ => exact counts_silent (quietly_runtimeError _ _)

/-- Reading a variable leaves the trace as it is. -/
theorem quietly_readVariable {F : Fault → Prop} (name msg : Bytes) (pos : Pos) :
    Quietly F (readVariable name msg pos) := by
  apply Quietly.bind (Effect.spec_gets Machine.Quiet.refl _)
  intro v
  cases v with
  | none => exact quietly_runtimeError _ _
  | some v => exact quietly_pure v

/-- Reading a member leaves the trace as it is. -/
theorem quietly_memberOf {F : Fault → Prop} (receiver : Value) (member : Bytes) (pos : Pos) :
    Quietly F (memberOf receiver member pos) := by
  cases receiver with
  | object address =>
    apply (quietly_readStore _).bind
    intro o
    split
    · exact quietly_pure _
    · exact quietly_pure _
    · exact quietly_runtimeError _ _
  | _ => exact quietly_runtimeError _ _

end Calls

section Programs

variable (w : World)

mutual

/-- The nodes of an expression are evaluated in order. -/
theorem counts_evalExpr : ∀ (n : ℕ) (e : Expr), Counts n e.calls 0 (evalExprCounted w n e) (evalExpr w e)
  | _, .null _ => counts_silent (quietly_pure _)
  | _, .bool _ _ => counts_silent (quietly_pure _)
  | _, .number _ _ => counts_silent (quietly_pure _)
  | _, .string _ _ => counts_silent (quietly_pure _)
  | _, .ident _ _ => counts_silent (quietly_readVariable _ _ _)
  | _, .scoped _ _ _ => counts_silent (quietly_readVariable _ _ _)
  | n, .member _ object _ => (counts_evalExpr n object).bind fun _ =>
      @counts_silent _ (n + object.calls) 0 0 _ (quietly_memberOf _ _ _)
  | n, .call pos callee args block => by
    have hargs := counts_evalArgs (n + 1) args {}
    have hplain := hargs.bind fun done => (counts_evalExpr (n + 1 + argsCalls args) callee).bind fun callee =>
      counts_invokeFunction (w := w) (counts_evalBlock _ block) callee done pos
    cases callee with
    | member _ object method =>
      exact (hargs.bind fun done => (counts_evalExpr (n + 1 + argsCalls args) object).bind fun receiver =>
        counts_invokeMethod (w := w) (counts_evalBlock _ block) receiver method done pos).visit
    | _ => exact hplain.visit
  | n, .unary _ _ operand => (counts_evalExpr n operand).bind fun _ =>
      @counts_silent _ (n + operand.calls) 0 0 _ (quietly_orThrow _)
  | n, .binary _ op lhs rhs => by
    have hrhs := counts_evalExpr (n + lhs.calls) rhs
    apply (counts_evalExpr n lhs).bind (e := 0)
    intro l
    cases op with
    | and =>
      by_cases hl : isTruthy l
      · simp only [hl]
        exact hrhs
      · simp only [hl]
        exact counts_pure l
    | or =>
      by_cases hl : isTruthy l
      · simp only [hl]
        exact counts_pure l
      · simp only [hl]
        exact hrhs
    | _ =>
      exact hrhs.bind fun _ => @Counts.after _ _ _ 0 0 _ (quietly_readStore _) _ _ fun _ =>
        counts_silent (quietly_orThrow _)

/-- The nodes of arguments are evaluated in order. -/
theorem counts_evalArgs : ∀ (n : ℕ) (args : List CallArg) (done : Arguments),
    Counts n (argsCalls args) 0 (evalArgsCounted w n args done) (evalArgs w args done)
  | _, [], _ => counts_pure _
  | n, .mk _ value :: args, _ => (counts_evalExpr n value).bind fun _ => counts_evalArgs (n + value.calls) args _

/-- The nodes of a trailing block are evaluated in order, if it is run. -/
theorem counts_evalBlock : ∀ (n : ℕ) (block : Option (List Stmt)),
    Option.Rel (Counts n (blockCalls block) 0) (evalBlockCounted w n block) (evalBlock w block)
  | _, none => .none
  | n, some body => .some (counts_execStmts n body)

/-- The nodes of a statement are evaluated in order. -/
theorem counts_execStmt : ∀ (n : ℕ) (s : Stmt), Counts n s.calls 0 (execStmtCounted w n s) (execStmt w s)
  | _, .includeModule _ _ => counts_pure _
  | n, .expr _ value => (counts_evalExpr n value).bind fun _ => @counts_pure _ (n + value.calls) 0 0 _
  | n, .assign _ name value => (counts_evalExpr n value).bind fun v =>
      @counts_counted _ (n + value.calls) 0 (Effect.modify fun m => m.assign name v) fun m => by
        rw [Effect.modify_run, Outcome.state, Machine.assign_trace]
        exact Nat.le_refl _
  | n, .ifThen _ condition thenBranch elseBranch => by
    have hthen := (counts_execStmts (n + condition.calls) thenBranch).within
      (fun m => show m.push.trace = m.trace from rfl) fun _ m => show m.pop.trace = m.trace from rfl
    have helse := (counts_execStmts (n + condition.calls + stmtsCalls thenBranch) elseBranch).within
      (fun m => show m.push.trace = m.trace from rfl) fun _ m => show m.pop.trace = m.trace from rfl
    apply (counts_evalExpr n condition).bind (e := 0)
    intro cond
    split
    · exact hthen.mono (Nat.le_add_right _ _) (Nat.le_refl 0)
    · split
      · exact counts_pure _
      · exact helse.skip
  | n, .ret _ value => (counts_evalReturnValue n value).bind fun _ => @counts_throw _ (n + valueCalls value) 0 0 _

/-- The nodes of a returned value are evaluated in order. -/
theorem counts_evalReturnValue : ∀ (n : ℕ) (value : Option Expr),
    Counts n (valueCalls value) 0 (evalReturnValueCounted w n value) (evalReturnValue w value)
  | _, none => counts_pure _
  | n, some value => counts_evalExpr n value

/-- The nodes of statements are evaluated in order. -/
theorem counts_execStmts : ∀ (n : ℕ) (stmts : List Stmt),
    Counts n (stmtsCalls stmts) 0 (execStmtsCounted w n stmts) (execStmts w stmts)
  | _, [] => counts_pure _
  | n, s :: stmts => (counts_execStmt n s).bind fun _ => counts_execStmts (n + s.calls) stmts

end

end Programs

section Runs

variable (w : World) (p : LoadedPlugin) (host : Bytes) (port : ℤ) (known : Bytes) (hasKb : Bool) (s : Store)

/-- `interpretation`, with a record of the nodes that are evaluated. -/
def countedInterpretation : Outcome Counting Exn Fault Unit :=
  interpretPluginCounted w p s.nextRun ⟨initialMachine p host port known hasKb s, []⟩

/-- The `Call` nodes that a run evaluates, each time that it does. -/
def evaluatedCalls : List ℕ := (countedInterpretation w p host port known hasKb s).state.visited

/-- A plugin counts at most the call nodes of its program. -/
theorem counts_interpretPlugin (run : ℕ) :
    Counts 0 p.program.calls 0 (interpretPluginCounted w p run) (interpretPlugin w p run) := by
  have hregister : Counts 0 0 0 (counted (registerStdlib run)) (registerStdlib run) := by
    apply counts_counted
    intro m
    rw [((silently_registerStdlib run).state m).trace]
    exact Nat.le_refl _
  have hprogram := hregister.bind fun _ => counts_execStmts w 0 p.program.statements
  rwa [Nat.zero_add] at hprogram

/-- There is at most one finding for each native call, and one for the error that escaped. -/
theorem findings_length_le {r : RunOutcome} {s' : Store} (h : runPlugin w p host port known hasKb s = some (r, s')) :
    r.findings.length ≤ (runCalls w p host port known hasKb s).length + 1 := by
  obtain ⟨m, hran⟩ := exists_ran h
  obtain ⟨late, hlate, rfl, rfl⟩ := hran.outcome
  have hfindings := (interpretation_spec w p host port known hasKb s).2
  have hreported := List.length_filterMap_le (CallRecord.emitted w s.nextRun) (runCalls w p host port known hasKb s)
  have hlength : late.length ≤ 1 := by
    rcases hlate with rfl | ⟨state, what, rfl⟩
    · exact Nat.zero_le 1
    · exact Nat.le_refl 1
  simp only [RunState.outcome, Store.withRun, Function.update_self, List.length_append, hfindings]
  exact Nat.add_le_add hreported hlength

/-- Recording the `Call` nodes does not change a run. It evaluates each node of its program at most once,
makes at most as many native calls as the program has nodes, and returns at most one finding more. -/
theorem run_work_le_calls :
    (countedInterpretation w p host port known hasKb s).mapState Counting.machine =
        interpretation w p host port known hasKb s ∧
      (evaluatedCalls w p host port known hasKb s).Nodup ∧
      (∀ node ∈ evaluatedCalls w p host port known hasKb s, node < p.program.calls) ∧
      (runCalls w p host port known hasKb s).length ≤ p.program.calls ∧
      ∀ result ∈ runPlugin w p host port known hasKb s, result.1.findings.length ≤ p.program.calls + 1 := by
  obtain ⟨heq, visited, hvisited, hsub, htrace⟩ :=
    counts_interpretPlugin w p s.nextRun ⟨initialMachine p host port known hasKb s, []⟩
  have hnodes : evaluatedCalls w p host port known hasKb s = visited := hvisited
  have hvisited_length : visited.length ≤ p.program.calls := by
    rw [← List.length_range' (s := 0) (n := p.program.calls)]
    exact hsub.length_le
  have hcalls : (runCalls w p host port known hasKb s).length ≤ p.program.calls := by
    rw [runCalls, interpretation, ← heq, Outcome.state_mapState]
    apply htrace.trans
    rw [Nat.add_zero]
    exact (Nat.zero_add _).trans_le hvisited_length
  rw [hnodes]
  refine ⟨heq, hsub.nodup List.nodup_range', ?_, hcalls, ?_⟩
  · intro node hnode
    have hmem := List.mem_range'_1.mp (hsub.subset hnode)
    omega
  · intro result hresult
    exact (findings_length_le w p host port known hasKb s hresult).trans (Nat.add_le_add_right hcalls 1)

end Runs

end ZeroTrust.Ztl
