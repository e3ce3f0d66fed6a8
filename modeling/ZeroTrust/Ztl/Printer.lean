import ZeroTrust.Ztl.Parser

/-!
# Printing

Programs are printed to tokens with the parentheses that the precedence levels require and
no others. A call without arguments but with a block may be printed without its empty
parentheses, as in `plugin.run { … }`; `implicit` decides per callee. Behind a call that has
no block of its own the parentheses are needed.
-/

namespace ZeroTrust.Ztl

/-- The token of an operator. -/
def UnOp.lexeme : UnOp → Lexeme
  | .not => (.bang, str "!")
  | .neg => (.minus, str "-")

/-- The token of an operator. -/
def BinOp.lexeme : BinOp → Lexeme
  | .or => (.or, str "||")
  | .and => (.and, str "&&")
  | .eq => (.eq, str "==")
  | .neq => (.neq, str "!=")
  | .lt => (.lt, str "<")
  | .gt => (.gt, str ">")
  | .lte => (.lte, str "<=")
  | .gte => (.gte, str ">=")
  | .add => (.plus, str "+")
  | .sub => (.minus, str "-")

/-- The precedence of an operator. -/
def BinOp.level : BinOp → ℕ
  | .or => 1
  | .and => 2
  | .eq | .neq => 3
  | .lt | .gt | .lte | .gte => 4
  | .add | .sub => 5

/-- The precedence of an expression: binary operators, unary operators, postfix, primary. -/
def Expr.level : Expr → ℕ
  | .binary _ op _ _ => op.level
  | .unary _ _ _ => 6
  | .member _ _ _ | .call _ _ _ _ => 7
  | _ => 8

/-- A call that a following block would be attached to. -/
def Expr.isOpenCall : Expr → Bool
  | .call _ _ _ none => true
  | _ => false

/-- An else branch that is printed as `else if`. -/
def isElseIf : List Stmt → Bool
  | [.ifThen _ _ _ _] => true
  | _ => false

/-- Put parentheses around an expression whose precedence is below `level`. -/
def wrap (level : ℕ) (e : Expr) (printed : List Lexeme) : List Lexeme :=
  if e.level < level then (.lparen, str "(") :: printed ++ [(.rparen, str ")")] else printed

/-- The name of an argument and its colon. -/
def printName (name : Bytes) : List Lexeme :=
  if name = [] then [] else [(.ident, name), (.colon, str ":")]

/-- A block around printed statements. -/
def braces (printed : List Lexeme) : List Lexeme :=
  (.lbrace, str "\x7b") :: printed ++ [(.rbrace, str "\x7d")]

/-- An argument list around printed arguments. -/
def parens (printed : List Lexeme) : List Lexeme :=
  (.lparen, str "(") :: printed ++ [(.rparen, str ")")]

/-- Whether the empty parentheses of a call with a block are left out. -/
def omitsParens (implicit : Expr → Bool) (callee : Expr) (args : List CallArg) : Bool :=
  implicit callee && args.isEmpty && !callee.isOpenCall

section

variable (implicit : Expr → Bool)

mutual

/-- The tokens of an expression. -/
def printExpr : Expr → List Lexeme
  | .null _ => [(.nullKw, str "null")]
  | .bool _ value => [if value then (.trueKw, str "true") else (.falseKw, str "false")]
  | .number _ text => [(.number, text)]
  | .string _ value => [(.string, value)]
  | .ident _ name => [(.ident, name)]
  | .member _ object member => wrap 7 object (printExpr object) ++ [(.dot, str "."), (.ident, member)]
  | .scoped _ scope name => [(.ident, scope), (.scope, str "::"), (.ident, name)]
  | .call _ callee args none => wrap 7 callee (printExpr callee) ++ parens (printArgs args)
  | .call _ callee args (some body) =>
    wrap 7 callee (printExpr callee) ++
      ((if omitsParens implicit callee args then [] else parens (printArgs args)) ++
        braces (printStmts body))
  | .unary _ op operand => op.lexeme :: wrap 6 operand (printExpr operand)
  | .binary _ op lhs rhs =>
    wrap op.level lhs (printExpr lhs) ++ op.lexeme :: wrap (op.level + 1) rhs (printExpr rhs)

/-- The tokens of an argument list. -/
def printArgs : List CallArg → List Lexeme
  | [] => []
  | .mk name value :: args =>
    printName name ++ (printExpr value ++
      (if args.isEmpty then [] else (.comma, str ",") :: printArgs args))

/-- The tokens of a statement. -/
def printStmt : Stmt → List Lexeme
  | .expr _ value => printExpr value ++ [(.semicolon, str ";")]
  | .assign _ targetName value =>
    (.ident, targetName) :: (.assign, str "=") :: (printExpr value ++ [(.semicolon, str ";")])
  | .ifThen _ condition thenBranch elseBranch =>
    (.ifKw, str "if") :: (.lparen, str "(") :: (printExpr condition ++ (.rparen, str ")") ::
      (braces (printStmts thenBranch) ++
        if elseBranch.isEmpty then []
        else (.elseKw, str "else") ::
          (if isElseIf elseBranch then printStmts elseBranch else braces (printStmts elseBranch))))
  | .ret _ none => [(.returnKw, str "return"), (.semicolon, str ";")]
  | .ret _ (some value) => (.returnKw, str "return") :: (printExpr value ++ [(.semicolon, str ";")])
  | .includeModule _ moduleName =>
    [(.includeKw, str "include"), (.lparen, str "("), (.string, moduleName), (.rparen, str ")"),
     (.semicolon, str ";")]

/-- The tokens of statements in order. -/
def printStmts : List Stmt → List Lexeme
  | [] => []
  | stmt :: stmts => printStmt stmt ++ printStmts stmts

end

attribute [simp] printExpr printArgs printStmt printStmts

/-- The tokens of a program. -/
def printProgram (p : Program) : List Lexeme :=
  printStmts implicit p.statements ++ [(.endOfFile, [])]

end

mutual

/-- Every number literal is the text of a `double`. -/
def Expr.Valid : Expr → Prop
  | .number _ text => stodInRange text
  | .member _ object _ => object.Valid
  | .call _ callee args block => callee.Valid ∧ ValidArgs args ∧ ValidBlock block
  | .unary _ _ operand => operand.Valid
  | .binary _ _ lhs rhs => lhs.Valid ∧ rhs.Valid
  | _ => True

/-- Every number literal in the arguments is the text of a `double`. -/
def ValidArgs : List CallArg → Prop
  | [] => True
  | .mk _ value :: args => value.Valid ∧ ValidArgs args

/-- Every number literal in the block is the text of a `double`. -/
def ValidBlock : Option (List Stmt) → Prop
  | none => True
  | some body => ValidStmts body

/-- Every number literal in the value is the text of a `double`. -/
def ValidValue : Option Expr → Prop
  | none => True
  | some value => value.Valid

/-- Every number literal in the statement is the text of a `double`. -/
def Stmt.Valid : Stmt → Prop
  | .expr _ value => value.Valid
  | .assign _ _ value => value.Valid
  | .ifThen _ condition thenBranch elseBranch =>
    condition.Valid ∧ ValidStmts thenBranch ∧ ValidStmts elseBranch
  | .ret _ value => ValidValue value
  | .includeModule _ _ => True

/-- Every number literal in the statements is the text of a `double`. -/
def ValidStmts : List Stmt → Prop
  | [] => True
  | stmt :: stmts => stmt.Valid ∧ ValidStmts stmts

end

end ZeroTrust.Ztl
