import ZeroTrust.Ztl.Parser

/-!
# Parsing ignores positions

Lines and columns are copied into trees and errors and never looked at: erasing them before
parsing gives the same as erasing them afterwards. `Blind` states this for two parsers at once
and is closed under everything that the parser is made of.
-/

namespace ZeroTrust.Ztl

/-- The token without its position. -/
def Token.erase (t : Token) : Token := { t with pos := {} }

/-- The stream without positions. -/
def TokenStream.erase (s : TokenStream) : TokenStream := ⟨s.cur.erase, s.rest.map Token.erase⟩

/-- The failure without its position. -/
def ParseFailure.erase : ParseFailure → ParseFailure
  | .parseError msg _ => .parseError msg {}
  | .outOfRange => .outOfRange
  | .diverges => .diverges

section

variable {α β : Type}

/-- A result without positions. -/
def eraseResult (f : α → α) : Except ParseFailure (α × TokenStream) → Except ParseFailure (α × TokenStream)
  | .ok (a, s) => .ok (f a, s.erase)
  | .error e => .error e.erase

/-- On the erased stream `q` does what `p` does on the stream, up to positions. -/
def Blind (f : α → α) (p q : Parser α) : Prop := ∀ s, q s.erase = eraseResult f (p s)

variable {f : α → α} {g : β → β}

/-- Blind parsers in a row are blind. -/
theorem Blind.bind {p q : Parser α} {k l : α → Parser β} (h : Blind f p q)
    (hk : ∀ a, Blind g (k a) (l (f a))) : Blind g (p >>= k) (q >>= l) := by
  intro s
  show Parser.bind q l s.erase = eraseResult g (Parser.bind p k s)
  unfold Parser.bind
  rw [h s]
  cases p s with
  | ok r => exact hk r.1 r.2
  | error e => rfl

/-- A value is parsed blindly. -/
theorem blind_pure {a b : α} (h : b = f a) : Blind f (pure a) (pure b) := by
  intro s
  rw [h]
  rfl

/-- Running out of budget is blind. -/
theorem blind_diverges : Blind f Parser.diverges Parser.diverges := fun _ => rfl

/-- A number out of range is blind. -/
theorem blind_outOfRange : Blind f Parser.outOfRange Parser.outOfRange := fun _ => rfl

/-- A failure is blind. -/
theorem blind_fail (msg : Bytes) (pos : Pos) : Blind f (Parser.fail msg pos) (Parser.fail msg {}) :=
  fun _ => rfl

/-- A conditional of blind parsers is blind. -/
theorem Blind.ite {c : Prop} [Decidable c] {p q p' q' : Parser α} (h : Blind f p p') (h' : Blind f q q') :
    Blind f (if c then p else q) (if c then p' else q') := by
  split
  · exact h
  · exact h'

end

/-- Looking at the current token is blind. -/
theorem blind_peek : Blind Token.erase peek peek := fun _ => rfl

/-- Looking one token ahead is blind. -/
theorem blind_peekNext : Blind Token.erase peekNext peekNext := by
  rintro ⟨cur, _ | ⟨t, rest⟩⟩ <;> rfl

/-- Advancing is blind. -/
theorem blind_advance : Blind Token.erase advance advance := by
  rintro ⟨cur, _ | ⟨t, rest⟩⟩ <;> rfl

/-- Checking the type is blind. -/
theorem blind_check (t : TokenType) : Blind id (check t) (check t) := fun _ => rfl

/-- Matching a type is blind. -/
theorem blind_matchType (t : TokenType) : Blind id (matchType t) (matchType t) :=
  (blind_check t).bind fun _ => Blind.ite (blind_advance.bind fun _ => blind_pure rfl) (blind_pure rfl)

/-- Expecting a type is blind. -/
theorem blind_expect (t : TokenType) (what : Bytes) : Blind Token.erase (expect t what) (expect t what) :=
  (blind_check t).bind fun _ => Blind.ite blind_advance (blind_peek.bind fun _ => blind_fail _ _)

/-- Two stretches of arguments are erased one after the other. -/
theorem eraseArgs_append (as bs : List CallArg) : eraseArgs (as ++ bs) = eraseArgs as ++ eraseArgs bs := by
  induction as with
  | nil => rw [List.nil_append, eraseArgs, List.nil_append]
  | cons a as ih =>
    obtain ⟨name, value⟩ := a
    rw [List.cons_append, eraseArgs, eraseArgs, ih, List.cons_append]

/-- Two stretches of statements are erased one after the other. -/
theorem eraseStmts_append (as bs : List Stmt) : eraseStmts (as ++ bs) = eraseStmts as ++ eraseStmts bs := by
  induction as with
  | nil => rw [List.nil_append, eraseStmts, List.nil_append]
  | cons a as ih => rw [List.cons_append, eraseStmts, eraseStmts, ih, List.cons_append]

/-- Every function of the descent is blind to positions, with a given budget. -/
structure BlindDescent (n : ℕ) : Prop where
  or : Blind Expr.erase (parseOr n) (parseOr n)
  and : Blind Expr.erase (parseAnd n) (parseAnd n)
  equality : Blind Expr.erase (parseEquality n) (parseEquality n)
  comparison : Blind Expr.erase (parseComparison n) (parseComparison n)
  additive : Blind Expr.erase (parseAdditive n) (parseAdditive n)
  binaryLoop : ∀ level e, Blind Expr.erase (binaryLoop n level e) (binaryLoop n level e.erase)
  unary : Blind Expr.erase (parseUnary n) (parseUnary n)
  postfixExpr : Blind Expr.erase (parsePostfix n) (parsePostfix n)
  postfixLoop : ∀ e, Blind Expr.erase (postfixLoop n e) (postfixLoop n e.erase)
  primary : Blind Expr.erase (parsePrimary n) (parsePrimary n)
  expression : Blind Expr.erase (parseExpression n) (parseExpression n)
  callArgs : Blind eraseArgs (parseCallArgs n) (parseCallArgs n)
  callArgsLoop : ∀ args, Blind eraseArgs (callArgsLoop n args) (callArgsLoop n (eraseArgs args))
  block : Blind eraseStmts (parseBlock n) (parseBlock n)
  blockLoop : ∀ stmts, Blind eraseStmts (blockLoop n stmts) (blockLoop n (eraseStmts stmts))
  statement : Blind Stmt.erase (parseStatement n) (parseStatement n)
  ifStatement : Blind Stmt.erase (parseIf n) (parseIf n)
  returnStatement : Blind Stmt.erase (parseReturn n) (parseReturn n)

namespace BlindDescent

variable {n : ℕ}

/-- Without a budget the descent is blind. -/
theorem zero : BlindDescent 0 where
  or := blind_diverges
  and := blind_diverges
  equality := blind_diverges
  comparison := blind_diverges
  additive := blind_diverges
  binaryLoop _ _ := blind_diverges
  unary := blind_diverges
  postfixExpr := blind_diverges
  postfixLoop _ := blind_diverges
  primary := blind_diverges
  expression := blind_diverges
  callArgs := blind_diverges
  callArgsLoop _ := blind_diverges
  block := blind_diverges
  blockLoop _ := blind_diverges
  statement := blind_diverges
  ifStatement := blind_diverges
  returnStatement := blind_diverges

/-- One turn of a binary loop is blind. -/
theorem binaryLoop_succ (h : BlindDescent n) (level : BinLevel) (e : Expr) :
    Blind Expr.erase (Ztl.binaryLoop (n + 1) level e) (Ztl.binaryLoop (n + 1) level e.erase) := by
  rw [Ztl.binaryLoop, Ztl.binaryLoop]
  refine blind_peek.bind fun t => ?_
  rw [show t.erase.type = t.type from rfl]
  cases level.operator t.type with
  | none => exact blind_pure rfl
  | some op =>
    refine blind_advance.bind fun t => ?_
    have hloop : ∀ rhs, Blind Expr.erase (Ztl.binaryLoop n level (.binary t.pos op e rhs))
        (Ztl.binaryLoop n level (.binary t.erase.pos op e.erase rhs.erase)) := by
      intro rhs
      have hnext := h.binaryLoop level (.binary t.pos op e rhs)
      rwa [Expr.erase] at hnext
    cases level with
    | or => exact h.and.bind hloop
    | and => exact h.equality.bind hloop
    | equality => exact h.comparison.bind hloop
    | comparison => exact h.additive.bind hloop
    | additive => exact h.unary.bind hloop

/-- A unary expression is parsed blindly. -/
theorem unary_succ (h : BlindDescent n) : Blind Expr.erase (parseUnary (n + 1)) (parseUnary (n + 1)) := by
  have hop : ∀ op : UnOp, Blind Expr.erase
      (advance >>= fun t => parseUnary n >>= fun operand => pure (.unary t.pos op operand))
      (advance >>= fun t => parseUnary n >>= fun operand => pure (.unary t.pos op operand)) :=
    fun op => blind_advance.bind fun t => h.unary.bind fun operand => blind_pure (by rw [Expr.erase]; rfl)
  rw [parseUnary]
  exact (blind_check .bang).bind fun _ => (hop .not).ite
    ((blind_check .minus).bind fun _ => (hop .neg).ite h.postfixExpr)

/-- One turn of the postfix loop is blind. -/
theorem postfixLoop_succ (h : BlindDescent n) (e : Expr) :
    Blind Expr.erase (Ztl.postfixLoop (n + 1) e) (Ztl.postfixLoop (n + 1) e.erase) := by
  have hcall : ∀ (pos : Pos) (args : List CallArg) (block : Option (List Stmt)), Blind Expr.erase
      (Ztl.postfixLoop n (.call pos e args block))
      (Ztl.postfixLoop n (.call {} e.erase (eraseArgs args) (eraseBlock block))) := by
    intro pos args block
    have hnext := h.postfixLoop (.call pos e args block)
    rwa [Expr.erase] at hnext
  have hblock : ∀ (pos : Pos) (args : List CallArg), Blind Expr.erase
      (parseBlock n >>= fun block => Ztl.postfixLoop n (.call pos e args (some block)))
      (parseBlock n >>= fun block => Ztl.postfixLoop n (.call {} e.erase (eraseArgs args) (some block))) :=
    fun pos args => h.block.bind fun block => hcall pos args (some block)
  rw [Ztl.postfixLoop, Ztl.postfixLoop]
  refine (blind_check .dot).bind fun _ => Blind.ite ?_ ((blind_check .lparen).bind fun _ => Blind.ite ?_
    ((blind_check .lbrace).bind fun _ => Blind.ite ?_ (blind_pure rfl)))
  · refine blind_advance.bind fun dot => (blind_expect .ident _).bind fun name => ?_
    have hnext := h.postfixLoop (.member dot.pos e name.text)
    rwa [Expr.erase] at hnext
  · exact blind_peek.bind fun t => h.callArgs.bind fun args => (blind_check .lbrace).bind fun _ =>
      (hblock t.pos args).ite (hcall t.pos args none)
  · exact blind_peek.bind fun t => hblock t.pos []

/-- A primary expression is parsed blindly. -/
theorem primary_succ (h : BlindDescent n) : Blind Expr.erase (parsePrimary (n + 1)) (parsePrimary (n + 1)) := by
  have hleaf : ∀ e : Expr, Blind Expr.erase (advance >>= fun _ => pure e) (advance >>= fun _ => pure e.erase) :=
    fun e => blind_advance.bind fun _ => blind_pure rfl
  rw [parsePrimary]
  refine blind_peek.bind fun t => ?_
  obtain ⟨type, text, pos⟩ := t
  cases type
  case number => exact blind_advance.bind fun _ => Blind.ite (blind_pure (by rw [Expr.erase]; rfl)) blind_outOfRange
  case string => exact blind_advance.bind fun _ => blind_pure (by rw [Expr.erase]; rfl)
  case trueKw => exact blind_advance.bind fun _ => blind_pure (by rw [Expr.erase]; rfl)
  case falseKw => exact blind_advance.bind fun _ => blind_pure (by rw [Expr.erase]; rfl)
  case nullKw => exact blind_advance.bind fun _ => blind_pure (by rw [Expr.erase]; rfl)
  case ident =>
    exact blind_advance.bind fun _ => (blind_check .scope).bind fun _ => Blind.ite
      (blind_advance.bind fun _ => (blind_expect .ident _).bind fun _ => blind_pure (by rw [Expr.erase]; rfl))
      (blind_pure (by rw [Expr.erase]; rfl))
  case lparen =>
    exact blind_advance.bind fun _ => h.expression.bind fun _ => (blind_expect .rparen _).bind fun _ =>
      blind_pure rfl
  all_goals exact blind_fail _ _

/-- Call arguments are parsed blindly. -/
theorem callArgs_succ (h : BlindDescent n) :
    Blind eraseArgs (parseCallArgs (n + 1)) (parseCallArgs (n + 1)) := by
  rw [parseCallArgs]
  refine (blind_expect .lparen _).bind fun _ => ?_
  have hloop := h.callArgsLoop []
  rw [eraseArgs] at hloop
  exact hloop.bind fun _ => (blind_expect .rparen _).bind fun _ => blind_pure rfl

/-- One turn of the argument loop is blind. -/
theorem callArgsLoop_succ (h : BlindDescent n) (args : List CallArg) :
    Blind eraseArgs (Ztl.callArgsLoop (n + 1) args) (Ztl.callArgsLoop (n + 1) (eraseArgs args)) := by
  have hvalue : ∀ name : Bytes, Blind eraseArgs
      (parseExpression n >>= fun value => matchType .comma >>= fun b : Bool =>
        if b then Ztl.callArgsLoop n (args ++ [.mk name value]) else pure (args ++ [.mk name value]))
      (parseExpression n >>= fun value => matchType .comma >>= fun b : Bool =>
        if b then Ztl.callArgsLoop n (eraseArgs args ++ [.mk name value])
        else pure (eraseArgs args ++ [.mk name value])) := by
    refine fun name => h.expression.bind fun value => (blind_matchType .comma).bind fun _ => ?_
    have happend : eraseArgs (args ++ [.mk name value]) = eraseArgs args ++ [.mk name value.erase] := by
      rw [eraseArgs_append, eraseArgs, eraseArgs]
    rw [← happend]
    exact (h.callArgsLoop _).ite (blind_pure rfl)
  rw [Ztl.callArgsLoop, Ztl.callArgsLoop]
  refine blind_peek.bind fun t => Blind.ite (blind_pure rfl) (blind_peekNext.bind fun next => ?_)
  exact Blind.ite (blind_advance.bind fun id => blind_advance.bind fun _ =>
    (blind_pure (f := fun b : Bytes => b) rfl).bind hvalue)
    ((blind_pure (f := fun b : Bytes => b) rfl).bind hvalue)

/-- A block is parsed blindly. -/
theorem block_succ (h : BlindDescent n) : Blind eraseStmts (parseBlock (n + 1)) (parseBlock (n + 1)) := by
  rw [parseBlock]
  refine (blind_expect .lbrace _).bind fun _ => ?_
  have hloop := h.blockLoop []
  rw [eraseStmts] at hloop
  exact hloop.bind fun _ => (blind_expect .rbrace _).bind fun _ => blind_pure rfl

/-- One turn of the block loop is blind. -/
theorem blockLoop_succ (h : BlindDescent n) (stmts : List Stmt) :
    Blind eraseStmts (Ztl.blockLoop (n + 1) stmts) (Ztl.blockLoop (n + 1) (eraseStmts stmts)) := by
  rw [Ztl.blockLoop, Ztl.blockLoop]
  refine blind_peek.bind fun t => Blind.ite (blind_pure rfl) (h.statement.bind fun stmt => ?_)
  have hnext := h.blockLoop (stmts ++ [stmt])
  rwa [eraseStmts_append, eraseStmts, eraseStmts] at hnext

/-- An include is parsed blindly. -/
theorem blind_parseInclude : Blind Stmt.erase parseInclude parseInclude :=
  blind_advance.bind fun _ => (blind_expect _ _).bind fun _ => (blind_expect _ _).bind fun _ =>
    (blind_expect _ _).bind fun _ => (blind_matchType _).bind fun _ => blind_pure (by rw [Stmt.erase]; rfl)

/-- A statement is parsed blindly. -/
theorem statement_succ (h : BlindDescent n) :
    Blind Stmt.erase (parseStatement (n + 1)) (parseStatement (n + 1)) := by
  have hexpr : ∀ pos : Pos, Blind Stmt.erase
      (parseExpression n >>= fun e => matchType .semicolon >>= fun _ => pure (.expr pos e))
      (parseExpression n >>= fun e => matchType .semicolon >>= fun _ => pure (.expr {} e)) :=
    fun pos => h.expression.bind fun e => (blind_matchType _).bind fun _ => blind_pure (by rw [Stmt.erase])
  have hassign : Blind Stmt.erase
      (advance >>= fun id => advance >>= fun _ => parseExpression n >>= fun value =>
        matchType .semicolon >>= fun _ => pure (.assign id.pos id.text value))
      (advance >>= fun id => advance >>= fun _ => parseExpression n >>= fun value =>
        matchType .semicolon >>= fun _ => pure (.assign id.pos id.text value)) :=
    blind_advance.bind fun id => blind_advance.bind fun _ => h.expression.bind fun value =>
      (blind_matchType _).bind fun _ => blind_pure (by rw [Stmt.erase]; rfl)
  rw [parseStatement]
  refine blind_peek.bind fun t => blind_peekNext.bind fun next => ?_
  obtain ⟨type, text, pos⟩ := t
  cases type
  case includeKw => exact blind_parseInclude
  case ifKw => exact h.ifStatement
  case returnKw => exact h.returnStatement
  all_goals exact hassign.ite (hexpr pos)

/-- An `if` is parsed blindly. -/
theorem ifStatement_succ (h : BlindDescent n) : Blind Stmt.erase (parseIf (n + 1)) (parseIf (n + 1)) := by
  rw [parseIf]
  refine blind_advance.bind fun kw => (blind_expect _ _).bind fun _ => h.expression.bind fun condition =>
    (blind_expect _ _).bind fun _ => h.block.bind fun thenBranch => (blind_matchType _).bind fun _ => ?_
  refine Blind.ite ((blind_check _).bind fun _ => Blind.ite ?_ ?_) ?_
  · exact h.ifStatement.bind fun nested => blind_pure (by rw [Stmt.erase, eraseStmts, eraseStmts]; rfl)
  · exact h.block.bind fun elseBranch => blind_pure (by rw [Stmt.erase]; rfl)
  · exact blind_pure (by rw [Stmt.erase, eraseStmts]; rfl)

/-- A `return` is parsed blindly. -/
theorem returnStatement_succ (h : BlindDescent n) :
    Blind Stmt.erase (parseReturn (n + 1)) (parseReturn (n + 1)) := by
  rw [parseReturn]
  have hend : ∀ (kw : Token) (value : Option Expr), Blind Stmt.erase
      (matchType .semicolon >>= fun _ => pure (.ret kw.pos value))
      (matchType .semicolon >>= fun _ => pure (.ret kw.erase.pos (eraseValue value))) :=
    fun kw value => (blind_matchType _).bind fun _ => blind_pure (by rw [Stmt.erase]; rfl)
  refine blind_advance.bind fun kw => blind_peek.bind fun t => Blind.ite ?_ ?_
  · exact (blind_pure (f := eraseValue) (by rw [eraseValue])).bind (hend kw)
  · exact h.expression.bind fun e => (blind_pure (f := eraseValue) (by rw [eraseValue])).bind (hend kw)

/-- One more unit of budget keeps every function blind. -/
theorem succ (h : BlindDescent n) : BlindDescent (n + 1) where
  or := by rw [parseOr]; exact h.and.bind (h.binaryLoop .or)
  and := by rw [parseAnd]; exact h.equality.bind (h.binaryLoop .and)
  equality := by rw [parseEquality]; exact h.comparison.bind (h.binaryLoop .equality)
  comparison := by rw [parseComparison]; exact h.additive.bind (h.binaryLoop .comparison)
  additive := by rw [parseAdditive]; exact h.unary.bind (h.binaryLoop .additive)
  binaryLoop := h.binaryLoop_succ
  unary := h.unary_succ
  postfixExpr := by rw [parsePostfix]; exact h.primary.bind h.postfixLoop
  postfixLoop := h.postfixLoop_succ
  primary := h.primary_succ
  expression := by rw [parseExpression]; exact h.or
  callArgs := h.callArgs_succ
  callArgsLoop := h.callArgsLoop_succ
  block := h.block_succ
  blockLoop := h.blockLoop_succ
  statement := h.statement_succ
  ifStatement := h.ifStatement_succ
  returnStatement := h.returnStatement_succ

end BlindDescent

/-- The whole descent is blind, by induction on the budget. -/
theorem blindDescent (n : ℕ) : BlindDescent n := by
  induction n with
  | zero => exact .zero
  | succ n ih => exact ih.succ

/-- The loop over a program is blind. -/
theorem blind_programLoop (n : ℕ) (stmts : List Stmt) :
    Blind Program.erase (programLoop n stmts) (programLoop n (eraseStmts stmts)) := by
  induction n generalizing stmts with
  | zero => exact blind_diverges
  | succ n ih =>
    refine (blind_check .endOfFile).bind fun _ => Blind.ite (blind_pure rfl)
      ((blindDescent n).statement.bind fun stmt => ?_)
    have hnext := ih (stmts ++ [stmt])
    rwa [eraseStmts_append, eraseStmts, eraseStmts] at hnext

/-- Erasing positions before parsing erases them from the result. -/
theorem parseProgram_erase (cur : Token) (rest : List Token) :
    parseProgram cur.erase (rest.map Token.erase) =
      match parseProgram cur rest with
      | .ok p => .ok p.erase
      | .error e => .error e.erase := by
  have h := blind_programLoop (20 * (rest.length + 2)) [] ⟨cur, rest⟩
  rw [eraseStmts] at h
  unfold parseProgram
  rw [List.length_map]
  show (programLoop _ [] (TokenStream.erase ⟨cur, rest⟩)).map Prod.fst = _
  rw [h]
  cases programLoop (20 * (rest.length + 2)) [] ⟨cur, rest⟩ <;> rfl

end ZeroTrust.Ztl
