import ZeroTrust.Ztl.Ast
import ZeroTrust.Ztl.Number

/-!
# The parser

The recursive descent of `parser.cpp`. A parser reads a token stream that never becomes
empty: at its last token it stands still. The descent is bounded by a budget that every call
decreases. No call consumes more than `20` units for a token, so a budget in proportion to the
number of tokens is exhausted only by streams without an end of file.
-/

namespace ZeroTrust.Ztl

/-- The token at `pos_` and the tokens behind it. -/
structure TokenStream where
  cur : Token
  rest : List Token

/-- How parsing can fail: a `ParseError`, a number beyond `double`, or no end at all. -/
inductive ParseFailure
  | parseError (msg : Bytes) (pos : Pos)
  | outOfRange
  | diverges
deriving DecidableEq, Repr

/-- The text of a parse error. -/
def ParseFailure.what : ParseFailure → Bytes
  | .parseError msg pos =>
    str "parse error at " ++ decimal pos.line ++ str ":" ++ decimal pos.col ++ str ": " ++ msg
  | .outOfRange => str "stod"
  | .diverges => []

/-- A parser reads from the stream or fails. -/
def Parser (α : Type) := TokenStream → Except ParseFailure (α × TokenStream)

namespace Parser

variable {α β : Type}

/-- Run both parsers in turn. -/
def bind (p : Parser α) (k : α → Parser β) : Parser β := fun s =>
  match p s with
  | .ok (a, s) => k a s
  | .error e => .error e

instance : Monad Parser where
  pure a := fun s => .ok (a, s)
  bind := bind

/-- A parser that succeeds hands its result and the rest of the stream on. -/
theorem bind_of_ok {p : Parser α} {k : α → Parser β} {s s' : TokenStream} {a : α}
    (h : p s = .ok (a, s')) : (p >>= k) s = k a s' := by
  show bind p k s = _
  rw [bind, h]

/-- Fail with a parse error. -/
def fail (msg : Bytes) (pos : Pos) : Parser α := fun _ => .error (.parseError msg pos)

/-- `std::stod` raises `out_of_range`. -/
def outOfRange : Parser α := fun _ => .error .outOfRange

/-- Exhausted budget. -/
def diverges : Parser α := fun _ => .error .diverges

end Parser

/-- `peek()`. -/
def peek : Parser Token := fun s => .ok (s.cur, s)

/-- `peek(1)`; behind the last token it is the last token. -/
def peekNext : Parser Token := fun s => .ok (s.rest.headD s.cur, s)

/-- `advance`. -/
def advance : Parser Token := fun s =>
  match s.rest with
  | [] => .ok (s.cur, s)
  | t :: rest => .ok (s.cur, ⟨t, rest⟩)

/-- `check`. -/
def check (t : TokenType) : Parser Bool := fun s => .ok (s.cur.type == t, s)

/-- `match`. -/
def matchType (t : TokenType) : Parser Bool := do
  if ← check t then
    let _ ← advance
    return true
  else return false

/-- `expect`. -/
def expect (t : TokenType) (what : Bytes) : Parser Token := do
  if ← check t then advance
  else
    let tk ← peek
    Parser.fail (str "expected " ++ what ++ str ", got '" ++ tk.text ++ str "'") tk.pos

/-- The binary levels of the grammar, from low to high precedence. -/
inductive BinLevel
  | or | and | equality | comparison | additive
deriving DecidableEq, Repr

/-- The operators of a level. -/
def BinLevel.operator : BinLevel → TokenType → Option BinOp
  | .or, .or => some .or
  | .and, .and => some .and
  | .equality, .eq => some .eq
  | .equality, .neq => some .neq
  | .comparison, .lt => some .lt
  | .comparison, .gt => some .gt
  | .comparison, .lte => some .lte
  | .comparison, .gte => some .gte
  | .additive, .plus => some .add
  | .additive, .minus => some .sub
  | _, _ => none

/-- `parse_include`. -/
def parseInclude : Parser Stmt := do
  let kw ← advance
  let _ ← expect .lparen (str "'(' after include")
  let s ← expect .string (str "module name string")
  let _ ← expect .rparen (str "')' after include argument")
  let _ ← matchType .semicolon
  return .includeModule kw.pos s.text

mutual

/-- `parse_or`. -/
def parseOr : ℕ → Parser Expr
  | 0 => Parser.diverges
  | n + 1 => do
    let lhs ← parseAnd n
    binaryLoop n .or lhs

/-- `parse_and`. -/
def parseAnd : ℕ → Parser Expr
  | 0 => Parser.diverges
  | n + 1 => do
    let lhs ← parseEquality n
    binaryLoop n .and lhs

/-- `parse_equality`. -/
def parseEquality : ℕ → Parser Expr
  | 0 => Parser.diverges
  | n + 1 => do
    let lhs ← parseComparison n
    binaryLoop n .equality lhs

/-- `parse_comparison`. -/
def parseComparison : ℕ → Parser Expr
  | 0 => Parser.diverges
  | n + 1 => do
    let lhs ← parseAdditive n
    binaryLoop n .comparison lhs

/-- `parse_additive`. -/
def parseAdditive : ℕ → Parser Expr
  | 0 => Parser.diverges
  | n + 1 => do
    let lhs ← parseUnary n
    binaryLoop n .additive lhs

/-- The loop of a binary level; its operands are expressions of the next level. -/
def binaryLoop : ℕ → BinLevel → Expr → Parser Expr
  | 0, _, _ => Parser.diverges
  | n + 1, level, lhs => do
    match level.operator (← peek).type with
    | some op =>
      let t ← advance
      let rhs ← match level with
        | .or => parseAnd n
        | .and => parseEquality n
        | .equality => parseComparison n
        | .comparison => parseAdditive n
        | .additive => parseUnary n
      binaryLoop n level (.binary t.pos op lhs rhs)
    | none => return lhs

/-- `parse_unary`. -/
def parseUnary : ℕ → Parser Expr
  | 0 => Parser.diverges
  | n + 1 => do
    if ← check .bang then
      let t ← advance
      let operand ← parseUnary n
      return .unary t.pos .not operand
    else if ← check .minus then
      let t ← advance
      let operand ← parseUnary n
      return .unary t.pos .neg operand
    else parsePostfix n

/-- `parse_postfix`. -/
def parsePostfix : ℕ → Parser Expr
  | 0 => Parser.diverges
  | n + 1 => do
    let node ← parsePrimary n
    postfixLoop n node

/-- The loop of `parse_postfix`. -/
def postfixLoop : ℕ → Expr → Parser Expr
  | 0, _ => Parser.diverges
  | n + 1, node => do
    if ← check .dot then
      let dot ← advance
      let name ← expect .ident (str "member name after '.'")
      postfixLoop n (.member dot.pos node name.text)
    else if ← check .lparen then
      let t ← peek
      let args ← parseCallArgs n
      if ← check .lbrace then
        let block ← parseBlock n
        postfixLoop n (.call t.pos node args (some block))
      else postfixLoop n (.call t.pos node args none)
    else if ← check .lbrace then
      let t ← peek
      let block ← parseBlock n
      postfixLoop n (.call t.pos node [] (some block))
    else return node

/-- `parse_primary`. -/
def parsePrimary : ℕ → Parser Expr
  | 0 => Parser.diverges
  | n + 1 => do
    let t ← peek
    match t.type with
    | .number =>
      let _ ← advance
      if stodInRange t.text then return .number t.pos t.text
      else Parser.outOfRange
    | .string =>
      let _ ← advance
      return .string t.pos t.text
    | .trueKw =>
      let _ ← advance
      return .bool t.pos true
    | .falseKw =>
      let _ ← advance
      return .bool t.pos false
    | .nullKw =>
      let _ ← advance
      return .null t.pos
    | .ident =>
      let _ ← advance
      if ← check .scope then
        let _ ← advance
        let name ← expect .ident (str "name after '::'")
        return .scoped t.pos t.text name.text
      else return .ident t.pos t.text
    | .lparen =>
      let _ ← advance
      let e ← parseExpression n
      let _ ← expect .rparen (str "')'")
      return e
    | _ => Parser.fail (str "unexpected token '" ++ t.text ++ str "'") t.pos

/-- `parse_expression`. -/
def parseExpression : ℕ → Parser Expr
  | 0 => Parser.diverges
  | n + 1 => parseOr n

/-- `parse_call_args`. -/
def parseCallArgs : ℕ → Parser (List CallArg)
  | 0 => Parser.diverges
  | n + 1 => do
    let _ ← expect .lparen (str "'('")
    let args ← callArgsLoop n []
    let _ ← expect .rparen (str "')'")
    return args

/-- The loop of `parse_call_args`. -/
def callArgsLoop : ℕ → List CallArg → Parser (List CallArg)
  | 0, _ => Parser.diverges
  | n + 1, args => do
    let t ← peek
    if t.type = .rparen ∨ t.type = .endOfFile then return args
    else
      let next ← peekNext
      let name ← if t.type = .ident ∧ next.type = .colon then do
          let id ← advance
          let _ ← advance
          pure id.text
        else pure []
      let value ← parseExpression n
      let args := args ++ [.mk name value]
      if ← matchType .comma then callArgsLoop n args else return args

/-- `parse_block`. -/
def parseBlock : ℕ → Parser (List Stmt)
  | 0 => Parser.diverges
  | n + 1 => do
    let _ ← expect .lbrace (str "'\x7b'")
    let stmts ← blockLoop n []
    let _ ← expect .rbrace (str "'\x7d'")
    return stmts

/-- The loop of `parse_block`. -/
def blockLoop : ℕ → List Stmt → Parser (List Stmt)
  | 0, _ => Parser.diverges
  | n + 1, stmts => do
    let t ← peek
    if t.type = .rbrace ∨ t.type = .endOfFile then return stmts
    else
      let stmt ← parseStatement n
      blockLoop n (stmts ++ [stmt])

/-- `parse_statement`. -/
def parseStatement : ℕ → Parser Stmt
  | 0 => Parser.diverges
  | n + 1 => do
    let t ← peek
    let next ← peekNext
    match t.type with
    | .includeKw => parseInclude
    | .ifKw => parseIf n
    | .returnKw => parseReturn n
    | type =>
      if type = .ident ∧ next.type = .assign then do
        let id ← advance
        let _ ← advance
        let value ← parseExpression n
        let _ ← matchType .semicolon
        return .assign id.pos id.text value
      else do
        let e ← parseExpression n
        let _ ← matchType .semicolon
        return .expr t.pos e

/-- `parse_if`. -/
def parseIf : ℕ → Parser Stmt
  | 0 => Parser.diverges
  | n + 1 => do
    let kw ← advance
    let _ ← expect .lparen (str "'(' after if")
    let condition ← parseExpression n
    let _ ← expect .rparen (str "')' after if condition")
    let thenBranch ← parseBlock n
    if ← matchType .elseKw then
      if ← check .ifKw then
        let nested ← parseIf n
        return .ifThen kw.pos condition thenBranch [nested]
      else
        let elseBranch ← parseBlock n
        return .ifThen kw.pos condition thenBranch elseBranch
    else return .ifThen kw.pos condition thenBranch []

/-- `parse_return`. -/
def parseReturn : ℕ → Parser Stmt
  | 0 => Parser.diverges
  | n + 1 => do
    let kw ← advance
    let t ← peek
    let value ← if t.type = .semicolon ∨ t.type = .rbrace ∨ t.type = .endOfFile then pure none
      else do
        let e ← parseExpression n
        pure (some e)
    let _ ← matchType .semicolon
    return .ret kw.pos value

end

/-- The loop of `parse_program`. -/
def programLoop : ℕ → List Stmt → Parser Program
  | 0, _ => Parser.diverges
  | n + 1, stmts => do
    if ← check .endOfFile then return ⟨stmts⟩
    else
      let stmt ← parseStatement n
      programLoop n (stmts ++ [stmt])

/-- `parse_program` on a token vector, which is never empty. -/
def parseProgram (cur : Token) (rest : List Token) : Except ParseFailure Program :=
  (programLoop (20 * (rest.length + 2)) [] ⟨cur, rest⟩).map Prod.fst

end ZeroTrust.Ztl
