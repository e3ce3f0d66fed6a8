import ZeroTrust.Ztl.Stdlib

/-!
# The interpreter

The tree walk of `interpreter.cpp`. The language has no loops and no user-defined functions, so
evaluation is by recursion on the syntax; a trailing block reaches its callback as a computation.
-/

namespace ZeroTrust.Ztl

/-- `need_str` of `call_string_method`. -/
def stringArgument (args : List Value) (i : ℕ) (what : Bytes) (pos : Pos) : Except RuntimeError Bytes :=
  match args[i]? with
  | none => .error (errorAt pos (what ++ str " missing"))
  | some (.string s) => .ok s
  | some _ => .error (errorAt pos (what ++ str " must be a string"))

/-- `need_num` of `call_string_method`. -/
def numberArgument (args : List Value) (i : ℕ) (what : Bytes) (pos : Pos) : Except RuntimeError ℚ :=
  match args[i]? with
  | none => .error (errorAt pos (what ++ str " missing"))
  | some (.number q) => .ok q
  | some _ => .error (errorAt pos (what ++ str " must be a number"))

/-- `s.slice(start[, end])`. -/
def sliceString (s : Bytes) (args : List Value) (pos : Pos) : Except RuntimeError Value := do
  let start ← numberArgument args 0 (str "start") pos
  let start := min (toSizeT start) s.length
  let stop ← if args.length > 1 then do
      let e ← numberArgument args 1 (str "end") pos
      pure (if e < 0 then 0 else min (toSizeT e) s.length)
    else pure s.length
  return .string ((s.drop start).take (stop - start))

/-- `s.byte_at(index)`. -/
def byteAt (s : Bytes) (args : List Value) (pos : Pos) : Except RuntimeError Value := do
  let index ← numberArgument args 0 (str "index") pos
  match s[toSizeT index]? with
  | none => return .number (-1)
  | some c => return .number c.toNat

/-- `call_string_method`. -/
def callStringMethod (s method : Bytes) (args : List Value) (pos : Pos) : Except RuntimeError Value :=
  if method = str "length" ∨ method = str "size" then .ok (.number s.length)
  else if method = str "starts_with" then do
    let p ← stringArgument args 0 (str "prefix") pos
    return .bool (p.isPrefixOf s)
  else if method = str "ends_with" then do
    let p ← stringArgument args 0 (str "suffix") pos
    return .bool (p.isSuffixOf s)
  else if method = str "contains" then do
    let p ← stringArgument args 0 (str "substring") pos
    return .bool (contains s p)
  else if method = str "slice" then sliceString s args pos
  else if method = str "to_lower" then .ok (.string (toLower s))
  else if method = str "to_upper" then .ok (.string (toUpper s))
  else if method = str "trim" then .ok (.string (trim s))
  else if method = str "index_of" then do
    let p ← stringArgument args 0 (str "substring") pos
    return .number (match findSub p s with | none => -1 | some i => i)
  else if method = str "byte_at" then byteAt s args pos
  else .error (errorAt pos (str "string has no method '" ++ method ++ str "'"))

/-- The operators `!` and `-`. -/
def applyUnary (op : UnOp) (operand : Value) (pos : Pos) : Except RuntimeError Value :=
  match op, operand with
  | .not, v => .ok (.bool !isTruthy v)
  | .neg, .number q => .ok (.number (-q))
  | .neg, _ => .error (errorAt pos (str "cannot negate non-number"))

/-- The order comparisons. -/
def compareNumbers (test : ℚ → ℚ → Bool) (l r : Value) (pos : Pos) : Except RuntimeError Value :=
  match l, r with
  | .number a, .number b => .ok (.bool (test a b))
  | _, _ => .error (errorAt pos (str "comparison requires numbers"))

/-- The operators that evaluate both operands. -/
def applyBinary (s : Store) (op : BinOp) (l r : Value) (pos : Pos) : Except RuntimeError Value :=
  match op with
  | .and => .ok (if isTruthy l then r else l)
  | .or => .ok (if isTruthy l then l else r)
  | .eq => .ok (.bool (valuesEqual l r))
  | .neq => .ok (.bool !valuesEqual l r)
  | .add => match l, r with
    | .number a, .number b => .ok (.number (toDouble (a + b)))
    | l, r => .ok (.string (valueToString s l ++ valueToString s r))
  | .sub => match l, r with
    | .number a, .number b => .ok (.number (toDouble (a - b)))
    | _, _ => .error (errorAt pos (str "'-' requires numbers"))
  | .lt => compareNumbers (· < ·) l r pos
  | .gt => compareNumbers (· > ·) l r pos
  | .lte => compareNumbers (· ≤ ·) l r pos
  | .gte => compareNumbers (· ≥ ·) l r pos

/-- A variable, with the error for an unknown one. -/
def readVariable (name msg : Bytes) (pos : Pos) : Eval Value := do
  match ← Effect.gets fun m => lookup m.globals m.locals name with
  | some v => return v
  | none => runtimeError pos msg

/-- `eval_member` on a receiver: a field, else a method as a function. -/
def memberOf (receiver : Value) (member : Bytes) (pos : Pos) : Eval Value :=
  match receiver with
  | .object address => do
    let o ← readStore (·.objects address)
    match o.fields member, o.methods member with
    | some v, _ => return v
    | none, some fn => return .function fn
    | none, none =>
      runtimeError pos (str "object '" ++ o.typeName ++ str "' has no member '" ++ member ++ str "'")
  | v => runtimeError pos
      (str "cannot access '." ++ member ++ str "' on non-object (" ++ typeNameOf v ++ str ")")

/-- Positional and named arguments. -/
structure Arguments where
  positional : List Value := []
  named : Env := Env.empty

/-- Add an argument behind the others. -/
def Arguments.push (args : Arguments) (name : Bytes) (v : Value) : Arguments :=
  if name.isEmpty then { args with positional := args.positional ++ [v] }
  else { args with named := args.named.set name v }

/-- `invoke_method`. -/
def invokeMethod (w : World) (receiver : Value) (method : Bytes) (args : Arguments)
    (block : Option (Eval Unit)) (pos : Pos) : Eval Value :=
  match receiver with
  | .string s => orThrow (callStringMethod s method args.positional pos)
  | .object address => do
    let o ← readStore (·.objects address)
    match o.methods method with
    | some fn => invoke w fn ⟨receiver, args.positional, args.named, pos⟩ block
    | none => runtimeError pos (str "object '" ++ o.typeName ++ str "' has no method '" ++ method ++ str "'")
  | v => runtimeError pos (str "cannot call method '" ++ method ++ str "' on " ++ typeNameOf v)

/-- `invoke_function`: a plain call has no receiver. -/
def invokeFunction (w : World) (callee : Value) (args : Arguments) (block : Option (Eval Unit))
    (pos : Pos) : Eval Value :=
  match callee with
  | .function fn => invoke w fn ⟨.null, args.positional, args.named, pos⟩ block
  | v => runtimeError pos (str "value is not callable (" ++ typeNameOf v ++ str ")")

/-- Run in a fresh scope inside the current one. -/
def inBlockScope (body : Eval Unit) : Eval Unit := body.within Machine.push fun _ m => m.pop

mutual

/-- `eval_expr`. -/
def evalExpr (w : World) : Expr → Eval Value
  | .null _ => return .null
  | .bool _ value => return .bool value
  | .number _ text => return .number (numberValue text)
  | .string _ value => return .string value
  | .ident pos name => readVariable name (str "undefined identifier '" ++ name ++ str "'") pos
  | .scoped pos scope name =>
    let key := scope ++ str "::" ++ name
    readVariable key (str "undefined scoped name '" ++ key ++ str "'") pos
  | .member _ object member => do
    let receiver ← evalExpr w object
    memberOf receiver member object.pos
  | .call pos (.member _ object method) args block => do
    let args ← evalArgs w args {}
    let receiver ← evalExpr w object
    invokeMethod w receiver method args (evalBlock w block) pos
  | .call pos callee args block => do
    let args ← evalArgs w args {}
    let callee ← evalExpr w callee
    invokeFunction w callee args (evalBlock w block) pos
  | .unary pos op operand => do
    let operand ← evalExpr w operand
    orThrow (applyUnary op operand pos)
  | .binary pos op lhs rhs => do
    let l ← evalExpr w lhs
    match op with
    | .and => if isTruthy l then evalExpr w rhs else return l
    | .or => if isTruthy l then return l else evalExpr w rhs
    | op =>
      let r ← evalExpr w rhs
      let result ← readStore fun s => applyBinary s op l r pos
      orThrow result

/-- The arguments of a call, from left to right. -/
def evalArgs (w : World) : List CallArg → Arguments → Eval Arguments
  | [], done => return done
  | .mk name value :: args, done => do
    let v ← evalExpr w value
    evalArgs w args (done.push name v)

/-- A trailing block as a computation for its callback. -/
def evalBlock (w : World) : Option (List Stmt) → Option (Eval Unit)
  | none => none
  | some body => some (execStmts w body)

/-- `exec_stmt`. -/
def execStmt (w : World) : Stmt → Eval Unit
  | .includeModule _ _ => return ()
  | .expr _ value => do
    let _ ← evalExpr w value
    return ()
  | .assign _ targetName value => do
    let v ← evalExpr w value
    Effect.modify fun m => m.assign targetName v
  | .ifThen _ condition thenBranch elseBranch => do
    let cond ← evalExpr w condition
    if isTruthy cond then inBlockScope (execStmts w thenBranch)
    else if elseBranch.isEmpty then return ()
    else inBlockScope (execStmts w elseBranch)
  | .ret _ value => do
    let v ← evalReturnValue w value
    Effect.throw (.returned v)

/-- The value of a `return`, null without one. -/
def evalReturnValue (w : World) : Option Expr → Eval Value
  | none => return .null
  | some value => evalExpr w value

/-- Statements in order. -/
def execStmts (w : World) : List Stmt → Eval Unit
  | [] => return ()
  | stmt :: stmts => do
    execStmt w stmt
    execStmts w stmts

end

/-- `run_program`. -/
def runProgram (w : World) (p : Program) : Eval Unit := execStmts w p.statements

end ZeroTrust.Ztl
