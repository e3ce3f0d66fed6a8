import ZeroTrust.Ztl.Callbacks
import ZeroTrust.Ztl.Interpreter

/-!
# Execution step by step

How trees are evaluated from a known machine, one rule for each form. A rule speaks of a tree without
positions and of all trees that differ from it in positions only, and it leaves open which calls are
recorded: neither has an effect that a program can see.
-/

namespace ZeroTrust.Ztl

variable {α β : Type}

/-- The value of a variable. -/
def Machine.var (m : Machine) (name : Bytes) : Option Value := lookup m.globals m.locals name

section

variable {name other : Bytes} {v : Value} {globals : Env} {scopes scopes' : List Env}

/-- A name that was assigned has its value. -/
theorem lookup_assignLocals_self (h : assignLocals name v scopes = some scopes') :
    lookup globals scopes' name = some v := by
  induction scopes generalizing scopes' with
  | nil => cases h
  | cons scope scopes ih =>
    rw [assignLocals] at h
    split at h
    · cases h
      simp [lookup, Env.set]
    next hscope =>
      obtain ⟨rest, hrest, rfl⟩ := Option.map_eq_some_iff.mp h
      rw [Bool.not_eq_true, Option.isSome_eq_false_iff, Option.isNone_iff_eq_none] at hscope
      rw [lookup, hscope, ih hrest]
      rfl

/-- Any other name has the value it had. -/
theorem lookup_assignLocals_of_ne (hne : other ≠ name) (h : assignLocals name v scopes = some scopes') :
    lookup globals scopes' other = lookup globals scopes other := by
  induction scopes generalizing scopes' with
  | nil => cases h
  | cons scope scopes ih =>
    rw [assignLocals] at h
    split at h
    · cases h
      simp [lookup, Env.set, hne]
    · obtain ⟨rest, hrest, rfl⟩ := Option.map_eq_some_iff.mp h
      rw [lookup, lookup, ih hrest]

/-- A name that no local scope has is looked up in the globals. -/
theorem lookup_of_assignLocals_eq_none (h : assignLocals name v scopes = none) :
    lookup globals scopes name = globals name := by
  induction scopes with
  | nil => rfl
  | cons scope scopes ih =>
    rw [assignLocals] at h
    split at h
    · cases h
    next hscope =>
      rw [Bool.not_eq_true, Option.isSome_eq_false_iff, Option.isNone_iff_eq_none] at hscope
      rw [lookup, hscope, ih (Option.map_eq_none_iff.mp h)]
      rfl

end

/-- After an assignment the variable has the value. -/
theorem Machine.var_assign_self (m : Machine) (name : Bytes) (v : Value) : (m.assign name v).var name = some v := by
  unfold Machine.assign Machine.define Machine.var
  cases hlocals : assignLocals name v m.locals with
  | some locals => exact lookup_assignLocals_self hlocals
  | none =>
    by_cases hglobal : (m.globals name).isSome
    · simp only [hglobal, if_true]
      rw [lookup_of_assignLocals_eq_none hlocals, Env.set, Function.update_self]
    · simp only [hglobal, Bool.false_eq_true, if_false]
      cases m.locals with
      | nil => simp [lookup, Env.set]
      | cons scope scopes => simp [lookup, Env.set]

/-- Other variables keep their values. -/
theorem Machine.var_assign_of_ne {name other : Bytes} (hne : other ≠ name) (m : Machine) (v : Value) :
    (m.assign name v).var other = m.var other := by
  unfold Machine.assign Machine.define Machine.var
  have hglobals : ∀ scopes : List Env, lookup (m.globals.set name v) scopes other = lookup m.globals scopes other := by
    intro scopes
    induction scopes with
    | nil => simp [lookup, Env.set, hne]
    | cons scope scopes ih => rw [lookup, lookup, ih]
  cases hlocals : assignLocals name v m.locals with
  | some locals => exact lookup_assignLocals_of_ne hne hlocals
  | none =>
    by_cases hglobal : (m.globals name).isSome
    · simp only [hglobal, if_true]
      exact hglobals m.locals
    · simp only [hglobal, Bool.false_eq_true, if_false]
      cases m.locals with
      | nil => exact hglobals []
      | cons scope scopes => simp [lookup, Env.set, hne]

/-- The machine with another record of calls. -/
def Machine.withTrace (m : Machine) (trace : List CallRecord) : Machine := { m with trace := trace }

/-- From a machine a computation yields a value and goes on with another machine. -/
def Yields (p : Eval α) (m : Machine) (a : α) (m' : Machine) : Prop :=
  ∀ before, ∃ after, p (m.withTrace before) = .ok a (m'.withTrace after)

/-- From a machine a computation throws something. -/
def Throws (p : Eval α) (m : Machine) (kind : Exn → Prop) (m' : Machine) : Prop :=
  ∀ before, ∃ after e, kind e ∧ p (m.withTrace before) = .throw e (m'.withTrace after)

/-- From a machine a computation ends the process. -/
def Faults (p : Eval α) (m : Machine) : Prop := ∀ before, (p (m.withTrace before)).IsFault

/-- A `return`. -/
def Exn.IsReturn : Exn → Prop
  | .returned _ => True
  | .runtimeError _ => False

variable {p : Eval α} {k : α → Eval β} {m m₁ m₂ m' : Machine} {a : α} {b : β} {kind : Exn → Prop}

/-- A value is yielded where it stands. -/
theorem yields_pure (a : α) (m : Machine) : Yields (pure a) m a m := fun before => ⟨before, rfl⟩

/-- Two computations that yield do so in a row. -/
theorem Yields.bind (hp : Yields p m a m₁) (hk : Yields (k a) m₁ b m₂) : Yields (p >>= k) m b m₂ := by
  intro before
  obtain ⟨between, hfirst⟩ := hp before
  obtain ⟨after, hsecond⟩ := hk between
  exact ⟨after, (Effect.bind_run_ok hfirst k).trans hsecond⟩

/-- A computation that throws after one that yields throws. -/
theorem Yields.bind_throws (hp : Yields p m a m₁) (hk : Throws (k a) m₁ kind m₂) : Throws (p >>= k) m kind m₂ := by
  intro before
  obtain ⟨between, hfirst⟩ := hp before
  obtain ⟨after, e, he, hsecond⟩ := hk between
  exact ⟨after, e, he, (Effect.bind_run_ok hfirst k).trans hsecond⟩

/-- A computation that throws is not followed by anything. -/
theorem Throws.bind (hp : Throws p m kind m') (k : α → Eval β) : Throws (p >>= k) m kind m' := by
  intro before
  obtain ⟨after, e, he, hfirst⟩ := hp before
  exact ⟨after, e, he, Effect.bind_run_throw hfirst k⟩

/-- A computation that meets a fault is not followed by anything. -/
theorem Faults.bind (hp : Faults p m) (k : α → Eval β) : Faults (p >>= k) m := by
  intro before
  have hfault := hp before
  cases hrun : p (m.withTrace before) with
  | fault f m' =>
    rw [Effect.bind_run_fault hrun]
    trivial
  | _ =>
    rw [hrun] at hfault
    exact hfault.elim

/-- A computation that meets a fault after one that yields meets it. -/
theorem Yields.bind_faults (hp : Yields p m a m₁) (hk : Faults (k a) m₁) : Faults (p >>= k) m := by
  intro before
  obtain ⟨between, hfirst⟩ := hp before
  rw [Effect.bind_run_ok hfirst]
  exact hk between

/-- A throw throws. -/
theorem throws_throw {e : Exn} (he : kind e) (m : Machine) : Throws (Effect.throw e : Eval α) m kind m :=
  fun before => ⟨before, e, he, rfl⟩

/-- A runtime error is an error. -/
theorem throws_runtimeError (pos : Pos) (msg : Bytes) (m : Machine) :
    Throws (runtimeError pos msg : Eval α) m Exn.IsError m := throws_throw trivial m

/-- Reading the store yields what is read. -/
theorem yields_readStore (f : Store → α) (m : Machine) : Yields (readStore f) m (f m.store) m :=
  fun before => ⟨before, rfl⟩

/-- What a computation does in a scope of its own. -/
theorem Throws.within {enter : Machine → Machine} {leave : Machine → Machine → Machine}
    (hp : Throws p (enter m) kind m') (henter : ∀ trace, enter (m.withTrace trace) = (enter m).withTrace trace)
    (hleave : ∀ before after, leave (m.withTrace before) (m'.withTrace after) = (leave m m').withTrace after) :
    Throws (p.within enter leave) m kind (leave m m') := by
  intro before
  obtain ⟨after, e, he, hthrow⟩ := hp before
  refine ⟨after, e, he, ?_⟩
  rw [Effect.within_run, henter, hthrow]
  exact congrArg (Outcome.throw e) (hleave before after)

/-- A fault inside a scope is a fault. -/
theorem Faults.within {enter : Machine → Machine} {leave : Machine → Machine → Machine} (hp : Faults p (enter m))
    (henter : ∀ trace, enter (m.withTrace trace) = (enter m).withTrace trace) : Faults (p.within enter leave) m := by
  intro before
  rw [Effect.within_run, Outcome.isFault_mapState, henter]
  exact hp before

/-- The record of a call is left open. -/
theorem Yields.invoke {w : World} {fn : NativeFn} {ctx : CallContext} {block : Option (Eval Unit)} {v : Value}
    (h : Yields (callNative w fn.op ctx block) m v m') : Yields (Ztl.invoke w fn ctx block) m v m' := by
  intro before
  obtain ⟨after, hcall⟩ := h (before ++ [⟨fn, ctx, m.store⟩])
  exact ⟨after, hcall⟩

/-- A native that throws throws when it is invoked. -/
theorem Throws.invoke {w : World} {fn : NativeFn} {ctx : CallContext} {block : Option (Eval Unit)}
    (h : Throws (callNative w fn.op ctx block) m kind m') : Throws (Ztl.invoke w fn ctx block) m kind m' := by
  intro before
  obtain ⟨after, e, he, hcall⟩ := h (before ++ [⟨fn, ctx, m.store⟩])
  exact ⟨after, e, he, hcall⟩

/-- A native that meets a fault meets it when it is invoked. -/
theorem Faults.invoke {w : World} {fn : NativeFn} {ctx : CallContext} {block : Option (Eval Unit)}
    (h : Faults (callNative w fn.op ctx block) m) : Faults (Ztl.invoke w fn ctx block) m := by
  intro before
  have hcall := h (before ++ [⟨fn, ctx, m.store⟩])
  exact hcall

section

variable {e : Expr} {s : Stmt} {name : Bytes}

/-- A term that erases to a variable is that variable. -/
theorem exists_of_erase_ident (h : e.erase = .ident {} name) : ∃ pos, e = .ident pos name := by
  cases e with
  | ident pos name' =>
    cases h
    exact ⟨pos, rfl⟩
  | _ => cases h

/-- A term that erases to a scoped name is that name. -/
theorem exists_of_erase_scoped {scope : Bytes} (h : e.erase = .scoped {} scope name) :
    ∃ pos, e = .scoped pos scope name := by
  cases e <;> cases h
  exact ⟨_, rfl⟩

/-- A term that erases to a member is a member of such a term. -/
theorem exists_of_erase_member {object : Expr} (h : e.erase = .member {} object name) :
    ∃ pos object', e = .member pos object' name ∧ object'.erase = object := by
  cases e with
  | member pos object' name' =>
    cases h
    exact ⟨pos, object', rfl, rfl⟩
  | _ => cases h

/-- A term that erases to a call is a call of such parts. -/
theorem exists_of_erase_call {callee : Expr} {args : List CallArg} {block : Option (List Stmt)}
    (h : e.erase = .call {} callee args block) : ∃ pos callee' args' block', e = .call pos callee' args' block' ∧
      callee'.erase = callee ∧ eraseArgs args' = args ∧ eraseBlock block' = block := by
  cases e with
  | call pos callee' args' block' =>
    cases h
    exact ⟨pos, callee', args', block', rfl, rfl, rfl, rfl⟩
  | _ => cases h

/-- A call without a block has none before erasure. -/
theorem exists_of_erase_plainCall {callee : Expr} {args : List CallArg} (h : e.erase = .call {} callee args none) :
    ∃ pos callee' args', e = .call pos callee' args' none ∧ callee'.erase = callee ∧ eraseArgs args' = args := by
  obtain ⟨pos, callee', args', block, rfl, hcallee, hargs, hblock⟩ := exists_of_erase_call h
  cases block with
  | none => exact ⟨pos, callee', args', rfl, hcallee, hargs⟩
  | some body => cases hblock

/-- A call of a method, without a block. -/
theorem exists_of_erase_method {object : Expr} {args : List CallArg}
    (h : e.erase = .call {} (.member {} object name) args none) :
    ∃ pos pos' object' args', e = .call pos (.member pos' object' name) args' none ∧ object'.erase = object ∧
      eraseArgs args' = args := by
  obtain ⟨pos, callee', args', rfl, hcallee, hargs⟩ := exists_of_erase_plainCall h
  obtain ⟨pos', object', rfl, hobject⟩ := exists_of_erase_member hcallee
  exact ⟨pos, pos', object', args', rfl, hobject, hargs⟩

/-- A call of a method with a trailing block. -/
theorem exists_of_erase_methodBlock {object : Expr} {args : List CallArg} {body : List Stmt}
    (h : e.erase = .call {} (.member {} object name) args (some body)) :
    ∃ pos pos' object' args' body', e = .call pos (.member pos' object' name) args' (some body') ∧
      object'.erase = object ∧ eraseArgs args' = args ∧ eraseStmts body' = body := by
  obtain ⟨pos, callee', args', block, rfl, hcallee, hargs, hblock⟩ := exists_of_erase_call h
  obtain ⟨pos', object', rfl, hobject⟩ := exists_of_erase_member hcallee
  cases block with
  | none => cases hblock
  | some body' => exact ⟨pos, pos', object', args', body', rfl, hobject, hargs, Option.some.inj hblock⟩

/-- A term that erases to a unary operation is one of such an operand. -/
theorem exists_of_erase_unary {op : UnOp} {operand : Expr} (h : e.erase = .unary {} op operand) :
    ∃ pos operand', e = .unary pos op operand' ∧ operand'.erase = operand := by
  cases e with
  | unary pos op' operand' =>
    cases h
    exact ⟨pos, operand', rfl, rfl⟩
  | _ => cases h

/-- A term that erases to a binary operation is one of such operands. -/
theorem exists_of_erase_binary {op : BinOp} {lhs rhs : Expr} (h : e.erase = .binary {} op lhs rhs) :
    ∃ pos lhs' rhs', e = .binary pos op lhs' rhs' ∧ lhs'.erase = lhs ∧ rhs'.erase = rhs := by
  cases e with
  | binary pos op' lhs' rhs' =>
    cases h
    exact ⟨pos, lhs', rhs', rfl, rfl, rfl⟩
  | _ => cases h

/-- A statement that erases to an expression is such an expression. -/
theorem exists_of_erase_expr {value : Expr} (h : s.erase = .expr {} value) :
    ∃ pos value', s = .expr pos value' ∧ value'.erase = value := by
  cases s with
  | expr pos value' =>
    cases h
    exact ⟨pos, value', rfl, rfl⟩
  | _ => cases h

/-- A statement that erases to an assignment is one of such a value. -/
theorem exists_of_erase_assign {value : Expr} (h : s.erase = .assign {} name value) :
    ∃ pos value', s = .assign pos name value' ∧ value'.erase = value := by
  cases s with
  | assign pos name' value' =>
    cases h
    exact ⟨pos, value', rfl, rfl⟩
  | _ => cases h

/-- A statement that erases to an `if` is one of such parts. -/
theorem exists_of_erase_ifThen {condition : Expr} {thenBranch elseBranch : List Stmt}
    (h : s.erase = .ifThen {} condition thenBranch elseBranch) : ∃ pos condition' thenBranch' elseBranch',
      s = .ifThen pos condition' thenBranch' elseBranch' ∧ condition'.erase = condition ∧
        eraseStmts thenBranch' = thenBranch ∧ eraseStmts elseBranch' = elseBranch := by
  cases s with
  | ifThen pos condition' thenBranch' elseBranch' =>
    cases h
    exact ⟨pos, condition', thenBranch', elseBranch', rfl, rfl, rfl, rfl⟩
  | _ => cases h

/-- Statements that erase to a list with a head have such a head. -/
theorem exists_of_eraseStmts_cons {ss : List Stmt} {first : Stmt} {rest : List Stmt}
    (h : eraseStmts ss = first :: rest) : ∃ first' rest', ss = first' :: rest' ∧ first'.erase = first ∧
      eraseStmts rest' = rest := by
  cases ss with
  | nil => cases h
  | cons first' rest' =>
    cases h
    exact ⟨first', rest', rfl, rfl, rfl⟩

/-- Statements of a shape come apart with the shape. -/
theorem exists_of_eraseStmts_append {ss before after : List Stmt} (h : eraseStmts ss = before ++ after) :
    ∃ before' after', ss = before' ++ after' ∧ eraseStmts before' = before ∧ eraseStmts after' = after := by
  induction before generalizing ss with
  | nil => exact ⟨[], ss, rfl, rfl, h⟩
  | cons s before ih =>
    obtain ⟨s', rest, rfl, rfl, hrest⟩ := exists_of_eraseStmts_cons h
    obtain ⟨before', after', rfl, rfl, rfl⟩ := ih hrest
    exact ⟨s' :: before', after', rfl, rfl, rfl⟩

/-- Only no statements erase to none. -/
theorem eq_nil_of_eraseStmts {ss : List Stmt} (h : eraseStmts ss = []) : ss = [] := by
  cases ss with
  | nil => rfl
  | cons s ss => cases h

end

section

variable (w : World)

/-- Every expression of a shape yields the value. -/
def ExprYields (t : Expr) (m : Machine) (v : Value) (m' : Machine) : Prop :=
  ∀ e, e.erase = t → Yields (evalExpr w e) m v m'

/-- Every expression of a shape throws. -/
def ExprThrows (t : Expr) (m : Machine) (kind : Exn → Prop) (m' : Machine) : Prop :=
  ∀ e, e.erase = t → Throws (evalExpr w e) m kind m'

/-- Every expression of a shape ends the process. -/
def ExprFaults (t : Expr) (m : Machine) : Prop := ∀ e, e.erase = t → Faults (evalExpr w e) m

/-- Arguments of a shape, behind those that are done. -/
def ArgsYield (ts : List CallArg) (done : Arguments) (m : Machine) (args : Arguments) (m' : Machine) : Prop :=
  ∀ as, eraseArgs as = ts → Yields (evalArgs w as done) m args m'

variable {w}
variable {t : Expr} {ts : List CallArg} {done args : Arguments} {v : Value} {name : Bytes} {address : ℕ} {fn : NativeFn}

/-- A boolean literal yields itself. -/
theorem exprYields_bool (value : Bool) (m : Machine) : ExprYields w (.bool {} value) m (.bool value) m := by
  intro e he
  cases e with
  | bool pos value' =>
    cases he
    exact yields_pure _ m
  | _ => cases he

/-- A number literal yields the number it reads as. -/
theorem exprYields_number (text : Bytes) (m : Machine) :
    ExprYields w (.number {} text) m (.number (numberValue text)) m := by
  intro e he
  cases e with
  | number pos value' =>
    cases he
    exact yields_pure _ m
  | _ => cases he

/-- A string literal yields itself. -/
theorem exprYields_string (value : Bytes) (m : Machine) : ExprYields w (.string {} value) m (.string value) m := by
  intro e he
  cases e with
  | string pos value' =>
    cases he
    exact yields_pure _ m
  | _ => cases he

/-- Reading a variable yields its value. -/
theorem yields_readVariable {msg : Bytes} {pos : Pos} (h : m.var name = some v) :
    Yields (readVariable name msg pos) m v m := by
  intro before
  refine ⟨before, ?_⟩
  have hvar : lookup (m.withTrace before).globals (m.withTrace before).locals name = some v := h
  rw [readVariable, Effect.gets_bind_run, hvar]
  rfl

/-- A variable yields its value. -/
theorem exprYields_ident (h : m.var name = some v) : ExprYields w (.ident {} name) m v m := by
  intro e he
  obtain ⟨pos, rfl⟩ := exists_of_erase_ident he
  exact yields_readVariable h

/-- A field of an object. -/
theorem exprYields_field (ho : ExprYields w t m (.object address) m')
    (h : (m'.store.objects address).fields name = some v) : ExprYields w (.member {} t name) m v m' := by
  intro e he
  obtain ⟨pos, object, rfl, hobject⟩ := exists_of_erase_member he
  refine (ho object hobject).bind fun before => ⟨before, ?_⟩
  have hfield : ((m'.withTrace before).store.objects address).fields name = some v := h
  simp only [memberOf, readStore, Effect.gets_bind_run, hfield, Effect.pure_run]

/-- No arguments yield what was collected. -/
theorem argsYield_nil (done : Arguments) (m : Machine) : ArgsYield w [] done m done m := by
  intro as has
  cases as with
  | nil => exact yields_pure done m
  | cons a as => cases a; cases has

/-- Arguments yield one after the other. -/
theorem argsYield_cons (hv : ExprYields w t m v m₁) (hargs : ArgsYield w ts (done.push name v) m₁ args m') :
    ArgsYield w (.mk name t :: ts) done m args m' := by
  intro as has
  cases as with
  | nil => cases has
  | cons a as =>
    obtain ⟨name', e⟩ := a
    cases has
    exact (hv e rfl).bind (hargs as rfl)

/-- A call of a method, without a block. -/
theorem exprYields_method (hargs : ArgsYield w ts {} m args m₁) (ho : ExprYields w t m₁ v m₂) {r : Value}
    (hcall : ∀ pos, Yields (invokeMethod w v name args none pos) m₂ r m') :
    ExprYields w (.call {} (.member {} t name) ts none) m r m' := by
  intro e he
  obtain ⟨pos, pos', object, as, rfl, hobject, has⟩ := exists_of_erase_method he
  exact (hargs as has).bind ((ho object hobject).bind (hcall pos))

/-- A method call throws when its method does. -/
theorem exprThrows_method (hargs : ArgsYield w ts {} m args m₁) (ho : ExprYields w t m₁ v m₂)
    (hcall : ∀ pos, Throws (invokeMethod w v name args none pos) m₂ kind m') :
    ExprThrows w (.call {} (.member {} t name) ts none) m kind m' := by
  intro e he
  obtain ⟨pos, pos', object, as, rfl, hobject, has⟩ := exists_of_erase_method he
  exact (hargs as has).bind_throws ((ho object hobject).bind_throws (hcall pos))

/-- A method call meets the fault of its method. -/
theorem exprFaults_method (hargs : ArgsYield w ts {} m args m₁) (ho : ExprYields w t m₁ v m₂)
    (hcall : ∀ pos, Faults (invokeMethod w v name args none pos) m₂) :
    ExprFaults w (.call {} (.member {} t name) ts none) m := by
  intro e he
  obtain ⟨pos, pos', object, as, rfl, hobject, has⟩ := exists_of_erase_method he
  exact (hargs as has).bind_faults ((ho object hobject).bind_faults (hcall pos))

/-- A call of a method with a trailing block. -/
theorem exprYields_methodBlock {body : List Stmt} (hargs : ArgsYield w ts {} m args m₁) (ho : ExprYields w t m₁ v m₂)
    {r : Value} (hcall : ∀ pos stmts, eraseStmts stmts = body →
      Yields (invokeMethod w v name args (some (execStmts w stmts)) pos) m₂ r m') :
    ExprYields w (.call {} (.member {} t name) ts (some body)) m r m' := by
  intro e he
  obtain ⟨pos, pos', object, as, stmts, rfl, hobject, has, hstmts⟩ := exists_of_erase_methodBlock he
  exact (hargs as has).bind ((ho object hobject).bind (hcall pos stmts hstmts))

/-- A method call with a block throws when its method does. -/
theorem exprThrows_methodBlock {body : List Stmt} (hargs : ArgsYield w ts {} m args m₁) (ho : ExprYields w t m₁ v m₂)
    (hcall : ∀ pos stmts, eraseStmts stmts = body →
      Throws (invokeMethod w v name args (some (execStmts w stmts)) pos) m₂ kind m') :
    ExprThrows w (.call {} (.member {} t name) ts (some body)) m kind m' := by
  intro e he
  obtain ⟨pos, pos', object, as, stmts, rfl, hobject, has, hstmts⟩ := exists_of_erase_methodBlock he
  exact (hargs as has).bind_throws ((ho object hobject).bind_throws (hcall pos stmts hstmts))

/-- A method call with a block meets the fault of its method. -/
theorem exprFaults_methodBlock {body : List Stmt} (hargs : ArgsYield w ts {} m args m₁) (ho : ExprYields w t m₁ v m₂)
    (hcall : ∀ pos stmts, eraseStmts stmts = body →
      Faults (invokeMethod w v name args (some (execStmts w stmts)) pos) m₂) :
    ExprFaults w (.call {} (.member {} t name) ts (some body)) m := by
  intro e he
  obtain ⟨pos, pos', object, as, stmts, rfl, hobject, has, hstmts⟩ := exists_of_erase_methodBlock he
  exact (hargs as has).bind_faults ((ho object hobject).bind_faults (hcall pos stmts hstmts))

/-- A call of a function with a scoped name. -/
theorem exprYields_scopedCall {scope : Bytes} (hargs : ArgsYield w ts {} m args m₁)
    (hf : m₁.var (scope ++ str "::" ++ name) = some (.function fn)) {r : Value}
    (hcall : ∀ pos, Yields (callNative w fn.op ⟨.null, args.positional, args.named, pos⟩ none) m₁ r m') :
    ExprYields w (.call {} (.scoped {} scope name) ts none) m r m' := by
  intro e he
  obtain ⟨pos, callee, as, rfl, hcallee, has⟩ := exists_of_erase_plainCall he
  obtain ⟨pos', rfl⟩ := exists_of_erase_scoped hcallee
  exact (hargs as has).bind ((yields_readVariable hf).bind (hcall pos).invoke)

/-- A call of a function by its name. -/
theorem exprYields_identCall (hargs : ArgsYield w ts {} m args m₁) (hf : m₁.var name = some (.function fn)) {r : Value}
    (hcall : ∀ pos, Yields (callNative w fn.op ⟨.null, args.positional, args.named, pos⟩ none) m₁ r m') :
    ExprYields w (.call {} (.ident {} name) ts none) m r m' := by
  intro e he
  obtain ⟨pos, callee, as, rfl, hcallee, has⟩ := exists_of_erase_plainCall he
  obtain ⟨pos', rfl⟩ := exists_of_erase_ident hcallee
  exact (hargs as has).bind ((yields_readVariable hf).bind (hcall pos).invoke)

/-- A call of a library function throws when the function does. -/
theorem exprThrows_scopedCall {scope : Bytes} (hargs : ArgsYield w ts {} m args m₁)
    (hf : m₁.var (scope ++ str "::" ++ name) = some (.function fn))
    (hcall : ∀ pos, Throws (callNative w fn.op ⟨.null, args.positional, args.named, pos⟩ none) m₁ kind m') :
    ExprThrows w (.call {} (.scoped {} scope name) ts none) m kind m' := by
  intro e he
  obtain ⟨pos, callee, as, rfl, hcallee, has⟩ := exists_of_erase_plainCall he
  obtain ⟨pos', rfl⟩ := exists_of_erase_scoped hcallee
  exact (hargs as has).bind_throws ((yields_readVariable hf).bind_throws (hcall pos).invoke)

/-- A negation yields the opposite of its operand. -/
theorem exprYields_not (h : ExprYields w t m v m') : ExprYields w (.unary {} .not t) m (.bool !isTruthy v) m' := by
  intro e he
  obtain ⟨pos, operand, rfl, hoperand⟩ := exists_of_erase_unary he
  exact (h operand hoperand).bind (yields_pure _ m')

/-- An operator that evaluates both operands. -/
theorem exprYields_binary {op : BinOp} {lhs rhs : Expr} {l r result : Value} (hop : op ≠ .and ∧ op ≠ .or)
    (hl : ExprYields w lhs m l m₁) (hr : ExprYields w rhs m₁ r m')
    (hresult : ∀ pos, applyBinary m'.store op l r pos = .ok result) :
    ExprYields w (.binary {} op lhs rhs) m result m' := by
  intro e he
  obtain ⟨pos, lhs', rhs', rfl, hlhs, hrhs⟩ := exists_of_erase_binary he
  have hboth : Yields (evalExpr w rhs' >>= fun r => readStore (fun s => applyBinary s op l r pos) >>= orThrow)
      m₁ result m' := by
    refine (hr rhs' hrhs).bind ((yields_readStore _ m').bind ?_)
    rw [hresult pos]
    exact yields_pure result m'
  refine (hl lhs' hlhs).bind ?_
  cases op with
  | and => exact absurd rfl hop.1
  | or => exact absurd rfl hop.2
  | _ => exact hboth

/-- The second operand of `&&` decides if the first one is true. -/
theorem exprYields_and {lhs rhs : Expr} {l r : Value} (hl : ExprYields w lhs m l m₁) (hr : ExprYields w rhs m₁ r m')
    (htrue : isTruthy l = true) : ExprYields w (.binary {} .and lhs rhs) m r m' := by
  intro e he
  obtain ⟨pos, lhs', rhs', rfl, hlhs, hrhs⟩ := exists_of_erase_binary he
  refine (hl lhs' hlhs).bind ?_
  change Yields (if isTruthy l = true then evalExpr w rhs' else pure l) m₁ r m'
  rw [if_pos htrue]
  exact hr rhs' hrhs

/-- The first operand of `||` decides if it is true. -/
theorem exprYields_or_left {lhs rhs : Expr} {l : Value} (hl : ExprYields w lhs m l m')
    (htrue : isTruthy l = true) : ExprYields w (.binary {} .or lhs rhs) m l m' := by
  intro e he
  obtain ⟨pos, lhs', rhs', rfl, hlhs, hrhs⟩ := exists_of_erase_binary he
  refine (hl lhs' hlhs).bind ?_
  change Yields (if isTruthy l = true then pure l else evalExpr w rhs') m' l m'
  rw [if_pos htrue]
  exact yields_pure l m'

/-- Otherwise the second one does. -/
theorem exprYields_or_right {lhs rhs : Expr} {l r : Value} (hl : ExprYields w lhs m l m₁)
    (hr : ExprYields w rhs m₁ r m') (hfalse : isTruthy l = false) : ExprYields w (.binary {} .or lhs rhs) m r m' := by
  intro e he
  obtain ⟨pos, lhs', rhs', rfl, hlhs, hrhs⟩ := exists_of_erase_binary he
  refine (hl lhs' hlhs).bind ?_
  change Yields (if isTruthy l = true then pure l else evalExpr w rhs') m₁ r m'
  rw [if_neg (by rw [hfalse]; exact Bool.false_ne_true)]
  exact hr rhs' hrhs

/-- The machine with another store. -/
def Machine.withStore (m : Machine) (s : Store) : Machine := { m with store := s }

/-- An object has the methods of a table. -/
def Store.HasMethods (s : Store) (address : ℕ) (methods : List (Bytes × Native)) : Prop :=
  ∃ id, (s.objects address).methods = methodTable id methods

/-- The store with a new object. -/
def Store.withObject (s : Store) (typeName : Bytes) (fields : List (Bytes × Value)) (methods : List (Bytes × Native)) :
    Store :=
  { s with next := s.next + methods.length }.alloc
    { typeName := typeName, fields := fieldTable fields, methods := methodTable s.next methods }

/-- A new object has its methods. -/
theorem Store.withObject_hasMethods (s : Store) (typeName : Bytes) (fields : List (Bytes × Value))
    (methods : List (Bytes × Native)) :
    (s.withObject typeName fields methods).HasMethods (s.next + methods.length) methods := by
  have hobject : (s.withObject typeName fields methods).objects (s.next + methods.length) =
      { typeName := typeName, fields := fieldTable fields, methods := methodTable s.next methods } :=
    Function.update_self _ _ _
  exact ⟨s.next, by rw [hobject]⟩

/-- A new object has its fields. -/
theorem Store.withObject_fields (s : Store) (typeName : Bytes) (fields : List (Bytes × Value))
    (methods : List (Bytes × Native)) :
    ((s.withObject typeName fields methods).objects (s.next + methods.length)).fields = fieldTable fields := by
  have hobject : (s.withObject typeName fields methods).objects (s.next + methods.length) =
      { typeName := typeName, fields := fieldTable fields, methods := methodTable s.next methods } :=
    Function.update_self _ _ _
  rw [hobject]

/-- Building an object yields it. -/
theorem yields_newObject (typeName : Bytes) (fields : List (Bytes × Value)) (methods : List (Bytes × Native))
    (m : Machine) : Yields (newObject typeName fields methods) m (.object (m.store.next + methods.length))
      (m.withStore (m.store.withObject typeName fields methods)) := fun before => ⟨before, rfl⟩

/-- A method of an object is called with the object as its receiver. -/
theorem invokeMethod_object (h : (m.store.objects address).methods name = some fn) (args : Arguments)
    (block : Option (Eval Unit)) (pos : Pos) :
    invokeMethod w (.object address) name args block pos m =
      invoke w fn ⟨.object address, args.positional, args.named, pos⟩ block m := by
  simp only [invokeMethod, readStore, Effect.gets_bind_run, h]

/-- A method of an object yields what its native does. -/
theorem yields_objectMethod {block : Option (Eval Unit)} {pos : Pos} {r : Value}
    (h : (m.store.objects address).methods name = some fn)
    (hcall : Yields (callNative w fn.op ⟨.object address, args.positional, args.named, pos⟩ block) m r m') :
    Yields (invokeMethod w (.object address) name args block pos) m r m' := by
  intro before
  obtain ⟨after, hinvoke⟩ := hcall.invoke before
  have hsame : ((m.withTrace before).store.objects address).methods name = some fn := h
  exact ⟨after, (invokeMethod_object hsame args block pos).trans hinvoke⟩

/-- A method of an object throws when its native does. -/
theorem throws_objectMethod {block : Option (Eval Unit)} {pos : Pos}
    (h : (m.store.objects address).methods name = some fn)
    (hcall : Throws (callNative w fn.op ⟨.object address, args.positional, args.named, pos⟩ block) m kind m') :
    Throws (invokeMethod w (.object address) name args block pos) m kind m' := by
  intro before
  obtain ⟨after, e, he, hinvoke⟩ := hcall.invoke before
  have hsame : ((m.withTrace before).store.objects address).methods name = some fn := h
  exact ⟨after, e, he, (invokeMethod_object hsame args block pos).trans hinvoke⟩

/-- A method of an object meets the fault of its native. -/
theorem faults_objectMethod {block : Option (Eval Unit)} {pos : Pos}
    (h : (m.store.objects address).methods name = some fn)
    (hcall : Faults (callNative w fn.op ⟨.object address, args.positional, args.named, pos⟩ block) m) :
    Faults (invokeMethod w (.object address) name args block pos) m := by
  intro before
  have hsame : ((m.withTrace before).store.objects address).methods name = some fn := h
  rw [invokeMethod_object hsame args block pos]
  exact hcall.invoke before

/-- A method of a string yields its result. -/
theorem yields_stringMethod {s : Bytes} {r : Value} {block : Option (Eval Unit)} {pos : Pos}
    (h : callStringMethod s name args.positional pos = .ok r) :
    Yields (invokeMethod w (.string s) name args block pos) m r m := by
  rw [invokeMethod, h]
  exact yields_pure r m

/-- A method of a string throws its error. -/
theorem throws_stringMethod {s : Bytes} {e : RuntimeError} {block : Option (Eval Unit)} {pos : Pos}
    (h : callStringMethod s name args.positional pos = .error e) :
    Throws (invokeMethod w (.string s) name args block pos) m Exn.IsError m := by
  rw [invokeMethod, h]
  exact throws_throw trivial m

/-- A method of null is an error. -/
theorem throws_nullMethod {block : Option (Eval Unit)} {pos : Pos} :
    Throws (invokeMethod w .null name args block pos) m Exn.IsError m := throws_runtimeError _ _ m

end

section

variable (w : World)

/-- Every statement of a shape runs to its end. -/
def StmtYields (t : Stmt) (m m' : Machine) : Prop := ∀ s, s.erase = t → Yields (execStmt w s) m () m'

/-- Every statement of a shape throws. -/
def StmtThrows (t : Stmt) (m : Machine) (kind : Exn → Prop) (m' : Machine) : Prop :=
  ∀ s, s.erase = t → Throws (execStmt w s) m kind m'

/-- Every statement of a shape ends the process. -/
def StmtFaults (t : Stmt) (m : Machine) : Prop := ∀ s, s.erase = t → Faults (execStmt w s) m

/-- All sequences of a shape run to their end. -/
def StmtsYield (ts : List Stmt) (m m' : Machine) : Prop := ∀ ss, eraseStmts ss = ts → Yields (execStmts w ss) m () m'

/-- All sequences of a shape throw. -/
def StmtsThrow (ts : List Stmt) (m : Machine) (kind : Exn → Prop) (m' : Machine) : Prop :=
  ∀ ss, eraseStmts ss = ts → Throws (execStmts w ss) m kind m'

/-- All sequences of a shape end the process. -/
def StmtsFault (ts : List Stmt) (m : Machine) : Prop := ∀ ss, eraseStmts ss = ts → Faults (execStmts w ss) m

variable {w}
variable {c : Expr} {t : Expr} {first : Stmt} {rest : List Stmt} {v : Value} {name : Bytes}

/-- An include yields nothing. -/
theorem stmtYields_include (name : Bytes) (m : Machine) : StmtYields w (.includeModule {} name) m m := by
  intro s hs
  cases s with
  | includeModule pos name' => exact yields_pure () m
  | _ => cases hs

/-- An expression statement changes what its expression changes. -/
theorem stmtYields_expr (h : ExprYields w t m v m') : StmtYields w (.expr {} t) m m' := by
  intro s hs
  obtain ⟨pos, value, rfl, hvalue⟩ := exists_of_erase_expr hs
  exact (h value hvalue).bind (yields_pure () m')

/-- An expression statement throws when its expression does. -/
theorem stmtThrows_expr (h : ExprThrows w t m kind m') : StmtThrows w (.expr {} t) m kind m' := by
  intro s hs
  obtain ⟨pos, value, rfl, hvalue⟩ := exists_of_erase_expr hs
  exact (h value hvalue).bind _

/-- An expression statement meets the fault of its expression. -/
theorem stmtFaults_expr (h : ExprFaults w t m) : StmtFaults w (.expr {} t) m := by
  intro s hs
  obtain ⟨pos, value, rfl, hvalue⟩ := exists_of_erase_expr hs
  exact (h value hvalue).bind _

/-- An assignment leaves the record of calls alone. -/
theorem Machine.assign_withTrace (m : Machine) (trace : List CallRecord) (name : Bytes) (v : Value) :
    (m.withTrace trace).assign name v = (m.assign name v).withTrace trace := by
  simp only [Machine.assign, Machine.define, Machine.withTrace]
  cases assignLocals name v m.locals with
  | some locals => rfl
  | none =>
    by_cases hglobal : (m.globals name).isSome
    · simp only [hglobal, if_true]
    · simp only [hglobal, Bool.false_eq_true, if_false]
      cases m.locals <;> rfl

/-- An assignment binds the value its expression yields. -/
theorem stmtYields_assign (h : ExprYields w t m v m') : StmtYields w (.assign {} name t) m (m'.assign name v) := by
  intro s hs
  obtain ⟨pos, value, rfl, hvalue⟩ := exists_of_erase_assign hs
  exact (h value hvalue).bind fun before => ⟨before, congrArg (Outcome.ok ()) (m'.assign_withTrace before name v)⟩

/-- An assignment throws when its expression does. -/
theorem stmtThrows_assign (h : ExprThrows w t m kind m') : StmtThrows w (.assign {} name t) m kind m' := by
  intro s hs
  obtain ⟨pos, value, rfl, hvalue⟩ := exists_of_erase_assign hs
  exact (h value hvalue).bind _

/-- An assignment meets the fault of its expression. -/
theorem stmtFaults_assign (h : ExprFaults w t m) : StmtFaults w (.assign {} name t) m := by
  intro s hs
  obtain ⟨pos, value, rfl, hvalue⟩ := exists_of_erase_assign hs
  exact (h value hvalue).bind _

/-- A conditional without alternative whose condition is false. -/
theorem stmtYields_unless (h : ExprYields w c m v m') (hfalse : isTruthy v = false) (body : List Stmt) :
    StmtYields w (.ifThen {} c body []) m m' := by
  intro s hs
  obtain ⟨pos, condition, thenBranch, elseBranch, rfl, hcondition, -, helse⟩ := exists_of_erase_ifThen hs
  cases eq_nil_of_eraseStmts helse
  refine (h condition hcondition).bind ?_
  change Yields (if isTruthy v = true then inBlockScope (execStmts w thenBranch) else pure ()) m' () m'
  rw [if_neg (by rw [hfalse]; exact Bool.false_ne_true)]
  exact yields_pure () m'

/-- A conditional whose condition is true and whose first branch throws. -/
theorem stmtThrows_if {body other : List Stmt} (h : ExprYields w c m v m₁) (htrue : isTruthy v = true)
    (hbody : StmtsThrow w body m₁.push kind m') : StmtThrows w (.ifThen {} c body other) m kind m'.pop := by
  intro s hs
  obtain ⟨pos, condition, thenBranch, elseBranch, rfl, hcondition, hthen, -⟩ := exists_of_erase_ifThen hs
  refine (h condition hcondition).bind_throws ?_
  rw [if_pos htrue]
  exact (hbody thenBranch hthen).within (fun _ => rfl) fun _ _ => rfl

/-- A return without a value throws a return. -/
theorem stmtThrows_return (m : Machine) : StmtThrows w (.ret {} none) m Exn.IsReturn m := by
  intro s hs
  cases s with
  | ret pos value =>
    cases value with
    | none => exact throws_throw trivial m
    | some value => cases hs
  | _ => cases hs

/-- No statements change nothing. -/
theorem stmtsYield_nil (m : Machine) : StmtsYield w [] m m := by
  intro ss hss
  cases eq_nil_of_eraseStmts hss
  exact yields_pure () m

/-- Statements run one after the other. -/
theorem stmtsYield_cons (hfirst : StmtYields w first m m₁) (hrest : StmtsYield w rest m₁ m') :
    StmtsYield w (first :: rest) m m' := by
  intro ss hss
  obtain ⟨first', rest', rfl, hfirst', hrest'⟩ := exists_of_eraseStmts_cons hss
  exact (hfirst first' hfirst').bind (hrest rest' hrest')

/-- A first statement that throws ends the list. -/
theorem stmtsThrow_first (hfirst : StmtThrows w first m kind m') (rest : List Stmt) :
    StmtsThrow w (first :: rest) m kind m' := by
  intro ss hss
  obtain ⟨first', rest', rfl, hfirst', -⟩ := exists_of_eraseStmts_cons hss
  exact (hfirst first' hfirst').bind _

/-- A later statement that throws ends the list. -/
theorem stmtsThrow_cons (hfirst : StmtYields w first m m₁) (hrest : StmtsThrow w rest m₁ kind m') :
    StmtsThrow w (first :: rest) m kind m' := by
  intro ss hss
  obtain ⟨first', rest', rfl, hfirst', hrest'⟩ := exists_of_eraseStmts_cons hss
  exact (hfirst first' hfirst').bind_throws (hrest rest' hrest')

/-- A first statement that meets a fault ends the list. -/
theorem stmtsFault_first (hfirst : StmtFaults w first m) (rest : List Stmt) : StmtsFault w (first :: rest) m := by
  intro ss hss
  obtain ⟨first', rest', rfl, hfirst', -⟩ := exists_of_eraseStmts_cons hss
  exact (hfirst first' hfirst').bind _

/-- A later statement that meets a fault ends the list. -/
theorem stmtsFault_cons (hfirst : StmtYields w first m m₁) (hrest : StmtsFault w rest m₁) :
    StmtsFault w (first :: rest) m := by
  intro ss hss
  obtain ⟨first', rest', rfl, hfirst', hrest'⟩ := exists_of_eraseStmts_cons hss
  exact (hfirst first' hfirst').bind_faults (hrest rest' hrest')

/-- A conditional return that is taken. -/
theorem stmtsThrow_returnIf (h : ExprYields w c m v m') (htrue : isTruthy v = true) (rest : List Stmt) :
    StmtsThrow w (.ifThen {} c [.ret {} none] [] :: rest) m Exn.IsReturn m' :=
  stmtsThrow_first (stmtThrows_if h htrue (stmtsThrow_first (stmtThrows_return _) [])) rest

end

end ZeroTrust.Ztl
