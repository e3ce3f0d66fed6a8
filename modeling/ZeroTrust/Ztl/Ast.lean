import ZeroTrust.Ztl.Token

/-!
# Syntax trees

The trees of `ast.hpp`. A number literal keeps the text of its token, and an operator is one
of the operators of the language instead of its spelling. Trees that differ only in their
positions have the same `erase`.
-/

namespace ZeroTrust.Ztl

/-- The operators of `UnaryOp`. -/
inductive UnOp
  | not | neg
deriving DecidableEq, Repr

/-- The operators of `BinaryOp`. -/
inductive BinOp
  | or | and | eq | neq | lt | gt | lte | gte | add | sub
deriving DecidableEq, Repr

mutual

/-- `ztl::Expr`. -/
inductive Expr
  | null (pos : Pos)
  | bool (pos : Pos) (value : Bool)
  | number (pos : Pos) (text : Bytes)
  | string (pos : Pos) (value : Bytes)
  | ident (pos : Pos) (name : Bytes)
  | member (pos : Pos) (object : Expr) (member : Bytes)
  | scoped (pos : Pos) (scope name : Bytes)
  | call (pos : Pos) (callee : Expr) (args : List CallArg) (block : Option (List Stmt))
  | unary (pos : Pos) (op : UnOp) (operand : Expr)
  | binary (pos : Pos) (op : BinOp) (lhs rhs : Expr)

/-- `ztl::CallArg`; a positional argument has an empty name. -/
inductive CallArg
  | mk (name : Bytes) (value : Expr)

/-- `ztl::Stmt`. -/
inductive Stmt
  | expr (pos : Pos) (value : Expr)
  | assign (pos : Pos) (targetName : Bytes) (value : Expr)
  | ifThen (pos : Pos) (condition : Expr) (thenBranch elseBranch : List Stmt)
  | ret (pos : Pos) (value : Option Expr)
  | includeModule (pos : Pos) (moduleName : Bytes)

end

/-- `ztl::Program`. -/
structure Program where
  statements : List Stmt

/-- Where an expression stands. -/
def Expr.pos : Expr → Pos
  | .null pos | .bool pos _ | .number pos _ | .string pos _ | .ident pos _ | .member pos _ _
  | .scoped pos _ _ | .call pos _ _ _ | .unary pos _ _ | .binary pos _ _ _ => pos

mutual

/-- The expression without positions. -/
def Expr.erase : Expr → Expr
  | .null _ => .null {}
  | .bool _ value => .bool {} value
  | .number _ text => .number {} text
  | .string _ value => .string {} value
  | .ident _ name => .ident {} name
  | .member _ object member => .member {} object.erase member
  | .scoped _ scope name => .scoped {} scope name
  | .call _ callee args block => .call {} callee.erase (eraseArgs args) (eraseBlock block)
  | .unary _ op operand => .unary {} op operand.erase
  | .binary _ op lhs rhs => .binary {} op lhs.erase rhs.erase

/-- Arguments without positions. -/
def eraseArgs : List CallArg → List CallArg
  | [] => []
  | .mk name value :: args => .mk name value.erase :: eraseArgs args

/-- A block without positions. -/
def eraseBlock : Option (List Stmt) → Option (List Stmt)
  | none => none
  | some body => some (eraseStmts body)

/-- A value without positions. -/
def eraseValue : Option Expr → Option Expr
  | none => none
  | some value => some value.erase

/-- The statement without positions. -/
def Stmt.erase : Stmt → Stmt
  | .expr _ value => .expr {} value.erase
  | .assign _ targetName value => .assign {} targetName value.erase
  | .ifThen _ condition thenBranch elseBranch =>
    .ifThen {} condition.erase (eraseStmts thenBranch) (eraseStmts elseBranch)
  | .ret _ value => .ret {} (eraseValue value)
  | .includeModule _ moduleName => .includeModule {} moduleName

/-- Statements without positions. -/
def eraseStmts : List Stmt → List Stmt
  | [] => []
  | stmt :: stmts => stmt.erase :: eraseStmts stmts

end

attribute [simp] Expr.erase eraseArgs eraseBlock eraseValue Stmt.erase eraseStmts

/-- The program without positions. -/
def Program.erase (p : Program) : Program := ⟨eraseStmts p.statements⟩

end ZeroTrust.Ztl
