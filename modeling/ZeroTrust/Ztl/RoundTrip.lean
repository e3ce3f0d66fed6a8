import ZeroTrust.Ztl.Printer
import ZeroTrust.Ztl.Positions
import Mathlib.Tactic.IntervalCases

/-!
# The parser inverts printing

A printed expression is parsed at every precedence level that its surroundings allow. The
levels with a loop need a statement about what follows: `ParsesAt` says that parsing a printed
expression at a level leads to the loop of that level with the expression as its accumulator,
so a left-associative chain is a chain of such steps.
-/

namespace ZeroTrust.Ztl

/-- The stream of printed tokens followed by another stream. -/
def feed : List Lexeme → TokenStream → TokenStream
  | [], s => s
  | x :: xs, s => ⟨⟨x.1, x.2, {}⟩, (feed xs s).cur :: (feed xs s).rest⟩

/-- Feeding nothing leaves the stream. -/
@[simp] theorem feed_nil (s : TokenStream) : feed [] s = s := rfl

/-- Feeding two stretches feeds the second behind the first. -/
@[simp] theorem feed_append (xs ys : List Lexeme) (s : TokenStream) :
    feed (xs ++ ys) s = feed xs (feed ys s) := by
  induction xs with
  | nil => rfl
  | cons x xs ih => rw [List.cons_append, feed, feed, ih]

/-- The first token fed is the current one. -/
@[simp] theorem cur_feed_cons (x : Lexeme) (xs : List Lexeme) (s : TokenStream) :
    (feed (x :: xs) s).cur = ⟨x.1, x.2, {}⟩ := rfl

section Primitives

variable {α : Type}

/-- A value is handed on with the stream. -/
@[simp] theorem pure_bind_apply {β : Type} (a : β) (k : β → Parser α) (s : TokenStream) :
    (pure a >>= k) s = k a s := rfl

/-- A value leaves the stream. -/
@[simp] theorem pure_parser_apply (a : α) (s : TokenStream) : (pure a : Parser α) s = .ok (a, s) := rfl

/-- Looking at the current token hands it on. -/
@[simp] theorem peek_bind (k : Token → Parser α) (s : TokenStream) : (peek >>= k) s = k s.cur s := rfl

/-- Looking one token ahead hands on the next token, or the current one at the end. -/
theorem peekNext_bind (k : Token → Parser α) (s : TokenStream) :
    (peekNext >>= k) s = k (s.rest.headD s.cur) s := rfl

/-- Behind the first token fed stands the rest. -/
@[simp] theorem peekNext_bind_feed (k : Token → Parser α) (x : Lexeme) (xs : List Lexeme)
    (s : TokenStream) :
    (peekNext >>= k) (feed (x :: xs) s) = k (feed xs s).cur (feed (x :: xs) s) := rfl

/-- Advancing hands on the first token fed. -/
@[simp] theorem advance_bind_feed (k : Token → Parser α) (x : Lexeme) (xs : List Lexeme)
    (s : TokenStream) :
    (advance >>= k) (feed (x :: xs) s) = k ⟨x.1, x.2, {}⟩ (feed xs s) := rfl

/-- Checking compares the type of the current token. -/
@[simp] theorem check_bind (t : TokenType) (k : Bool → Parser α) (s : TokenStream) :
    (check t >>= k) s = k (s.cur.type == t) s := rfl

/-- An expected token is consumed. -/
@[simp] theorem expect_bind_feed (t : TokenType) (what text : Bytes) (k : Token → Parser α)
    (xs : List Lexeme) (s : TokenStream) :
    (expect t what >>= k) (feed ((t, text) :: xs) s) = k ⟨t, text, {}⟩ (feed xs s) := by
  refine Parser.bind_of_ok ?_
  rw [expect, check_bind, cur_feed_cons, beq_self_eq_true, if_pos rfl]
  rfl

/-- A matching token is consumed. -/
@[simp] theorem matchType_bind_feed (t : TokenType) (text : Bytes) (k : Bool → Parser α)
    (xs : List Lexeme) (s : TokenStream) :
    (matchType t >>= k) (feed ((t, text) :: xs) s) = k true (feed xs s) := by
  refine Parser.bind_of_ok ?_
  rw [matchType, check_bind, cur_feed_cons, beq_self_eq_true, if_pos rfl]
  rfl

/-- Another token is left alone. -/
theorem matchType_bind_of_ne {t : TokenType} {s : TokenStream} (h : s.cur.type ≠ t)
    (k : Bool → Parser α) : (matchType t >>= k) s = k false s := by
  refine Parser.bind_of_ok ?_
  rw [matchType, check_bind, beq_eq_false_iff_ne.mpr h, if_neg (by decide)]
  rfl

end Primitives

/-- The parser of a precedence level. -/
def parseAt : ℕ → ℕ → Parser Expr
  | 1 => parseOr
  | 2 => parseAnd
  | 3 => parseEquality
  | 4 => parseComparison
  | 5 => parseAdditive
  | 6 => parseUnary
  | 7 => parsePostfix
  | _ => parsePrimary

/-- The binary levels by precedence. -/
def BinLevel.ofPrecedence : ℕ → Option BinLevel
  | 1 => some .or
  | 2 => some .and
  | 3 => some .equality
  | 4 => some .comparison
  | 5 => some .additive
  | _ => none

/-- The loop of a precedence level behind its first operand. -/
def resume (k n : ℕ) (e : Expr) : Parser Expr :=
  if k = 7 then postfixLoop n e
  else match BinLevel.ofPrecedence k with
    | some level => binaryLoop n level e
    | none => pure e

/-- The level whose loop a token continues; `::` continues an identifier. -/
def continuation : TokenType → ℕ
  | .or => 1
  | .and => 2
  | .eq | .neq => 3
  | .lt | .gt | .lte | .gte => 4
  | .plus | .minus => 5
  | .dot | .lparen | .lbrace => 7
  | .scope => 9
  | _ => 0

/-- The level of a binary operator in the grammar. -/
def BinOp.binLevel : BinOp → BinLevel
  | .or => .or
  | .and => .and
  | .eq | .neq => .equality
  | .lt | .gt | .lte | .gte => .comparison
  | .add | .sub => .additive

/-- A binary operator is recognised on its own level. -/
theorem operator_lexeme (op : BinOp) : op.binLevel.operator op.lexeme.1 = some op := by
  cases op <;> rfl

/-- An operator's token continues an expression of its own level. -/
theorem continuation_lexeme (op : BinOp) : continuation op.lexeme.1 = op.level := by
  cases op <;> rfl

/-- Binary operators stand on levels one to five. -/
theorem BinOp.level_bounds (op : BinOp) : 1 ≤ op.level ∧ op.level ≤ 5 := by
  cases op <;> decide

/-- The loop of an operator's level consumes it and parses its right operand one level up. -/
theorem resume_operator (op : BinOp) (n : ℕ) (lhs : Expr) (xs : List Lexeme) (s : TokenStream) :
    resume op.level (n + 1) lhs (feed (op.lexeme :: xs) s) =
      (parseAt (op.level + 1) n >>= fun rhs => resume op.level n (.binary {} op lhs rhs)) (feed xs s) := by
  have hresume : ∀ m e, resume op.level m e = binaryLoop m op.binLevel e := by
    cases op <;> intro m e <;> rfl
  simp only [hresume]
  rw [binaryLoop, peek_bind, cur_feed_cons]
  dsimp only
  rw [operator_lexeme]
  dsimp only
  rw [advance_bind_feed]
  cases op <;> rfl

/-- A token that continues lower levels only is no operator of this one. -/
theorem operator_eq_none {k : ℕ} {level : BinLevel} {t : TokenType}
    (hlevel : BinLevel.ofPrecedence k = some level) (h : continuation t < k) : level.operator t = none := by
  unfold BinLevel.ofPrecedence at hlevel
  split at hlevel <;> cases hlevel <;> revert h <;> cases t <;> decide

/-- The loops stop at tokens of lower levels. -/
theorem resume_stop {k : ℕ} {s : TokenStream} (h : continuation s.cur.type < k) (n : ℕ) (e : Expr) :
    resume k (n + 1) e s = .ok (e, s) := by
  unfold resume
  split
  · next hk =>
    subst hk
    have hne : ∀ t, continuation t = 7 → (s.cur.type == t) = false := fun t ht =>
      beq_eq_false_iff_ne.mpr fun heq => by rw [heq, ht] at h; exact absurd h (by decide)
    rw [postfixLoop, check_bind, hne .dot rfl, if_neg (by decide), check_bind, hne .lparen rfl,
      if_neg (by decide), check_bind, hne .lbrace rfl, if_neg (by decide)]
    rfl
  · cases hlevel : BinLevel.ofPrecedence k with
    | none => rfl
    | some level =>
      show binaryLoop (n + 1) level e s = _
      rw [binaryLoop, peek_bind, operator_eq_none hlevel h]
      rfl

/-- Below the unary level a level parses an operand of the next level and enters its loop. -/
theorem parseAt_succ {k : ℕ} (h₁ : 1 ≤ k) (h₂ : k ≤ 7) (h₃ : k ≠ 6) (n : ℕ) :
    parseAt k (n + 1) = parseAt (k + 1) n >>= fun e => resume k n e := by
  interval_cases k <;> first | rfl | exact absurd rfl h₃

section

variable (implicit : Expr → Bool)

/-- An expression as an operand of precedence `k`. -/
def printAt (k : ℕ) (e : Expr) : List Lexeme := wrap k e (printExpr implicit e)

/-- Parsing the printed expression at level `k` continues with the loop of that level. -/
def ParsesAt (k : ℕ) (e : Expr) : Prop :=
  ∀ (s : TokenStream) (budget : ℕ) (result : Except ParseFailure (Expr × TokenStream)),
    continuation s.cur.type ≤ k → (e.isOpenCall → s.cur.type ≠ .lbrace) →
    (∀ n, budget ≤ n → resume k n e.erase s = result) →
    ∀ n, budget + 20 * (printAt implicit k e).length + 2 * (8 - k) + 2 ≤ n →
      parseAt k n (feed (printAt implicit k e) s) = result

variable {implicit}

/-- In front of a token of a lower level the printed expression is read back. -/
theorem ParsesAt.apply {k : ℕ} {e : Expr} (h : ParsesAt implicit k e) {s : TokenStream}
    (hs : continuation s.cur.type < k) (hopen : e.isOpenCall → s.cur.type ≠ .lbrace) {n : ℕ}
    (hn : 20 * (printAt implicit k e).length + 2 * (8 - k) + 3 ≤ n) :
    parseAt k n (feed (printAt implicit k e) s) = .ok (e.erase, s) := by
  refine h s 1 _ hs.le hopen (fun m hm => ?_) n (by omega)
  obtain ⟨m, rfl⟩ := Nat.exists_eq_add_of_le' hm
  exact resume_stop hs m e.erase

/-- An expression of another level is printed as one level up. -/
theorem printAt_eq_printAt_succ {k : ℕ} {e : Expr} (h : e.level ≠ k) :
    printAt implicit k e = printAt implicit (k + 1) e := by
  unfold printAt wrap
  by_cases hlt : e.level < k
  · rw [if_pos hlt, if_pos (by omega)]
  · rw [if_neg hlt, if_neg (by omega)]

/-- What a level above the own one of an expression reads, the level below it reads as well. -/
theorem ParsesAt.descend {k : ℕ} {e : Expr} (h : ParsesAt implicit (k + 1) e) (h₁ : 1 ≤ k) (h₂ : k ≤ 7)
    (hlevel : e.level ≠ k)
    (hunary : k = 6 → ∀ s, (feed (printAt implicit 7 e) s).cur.type ≠ .bang ∧
      (feed (printAt implicit 7 e) s).cur.type ≠ .minus) :
    ParsesAt implicit k e := by
  intro s budget result hs hopen hresume n hn
  obtain ⟨n, rfl⟩ : ∃ m, n = m + 1 := ⟨n - 1, by omega⟩
  rw [printAt_eq_printAt_succ hlevel] at hn ⊢
  have hnext := h.apply (n := n) (Nat.lt_succ_of_le hs) hopen (by omega)
  by_cases hk : k = 6
  · subst hk
    obtain ⟨hbang, hminus⟩ := hunary rfl s
    show parseUnary (n + 1) _ = _
    rw [parseUnary, check_bind, beq_eq_false_iff_ne.mpr hbang, if_neg (by decide), check_bind,
      beq_eq_false_iff_ne.mpr hminus, if_neg (by decide)]
    exact hnext.trans (hresume n (by omega))
  · rw [parseAt_succ h₁ h₂ hk, Parser.bind_of_ok hnext]
    exact hresume n (by omega)

/-- The tokens that an expression can start with. -/
def startsExpr : TokenType → Bool
  | .number | .string | .trueKw | .falseKw | .nullKw | .ident | .lparen | .bang | .minus => true
  | _ => false

/-- The next token makes no name out of an identifier before it. -/
def Unnamed (s : TokenStream) : Prop := s.cur.type ≠ .assign ∧ s.cur.type ≠ .colon

/-- The tokens start like an expression that is neither an assignment nor a named argument; an
operand of a postfix operator does not start with a unary operator. -/
def Leads (tight : Prop) (xs : List Lexeme) : Prop :=
  ∃ x ys, xs = x :: ys ∧ startsExpr x.1 ∧ (tight → x.1 ≠ .bang ∧ x.1 ≠ .minus) ∧
    ∀ s, Unnamed s → x.1 = .ident → Unnamed (feed ys s)

/-- What stands behind a leading token does not matter. -/
theorem Leads.append {tight : Prop} {xs ys : List Lexeme} (h : Leads tight xs)
    (hys : ∀ s, Unnamed s → Unnamed (feed ys s)) : Leads tight (xs ++ ys) := by
  obtain ⟨x, zs, rfl, hx, htight, hsecond⟩ := h
  refine ⟨x, zs ++ ys, rfl, hx, htight, fun s hs hident => ?_⟩
  rw [feed_append]
  exact hsecond _ (hys s hs) hident

/-- A leading token of a looser kind will do. -/
theorem Leads.mono {tight tight' : Prop} {xs : List Lexeme} (h : Leads tight xs)
    (himp : tight' → tight) : Leads tight' xs := by
  obtain ⟨x, ys, hxs, hx, htight, hsecond⟩ := h
  exact ⟨x, ys, hxs, hx, fun h' => htight (himp h'), hsecond⟩

/-- A token that no expression starts with as an identifier decides alone. -/
theorem leads_cons {tight : Prop} {t : TokenType} {text : Bytes} {xs : List Lexeme} (ht : startsExpr t)
    (htight : tight → t ≠ .bang ∧ t ≠ .minus) (hident : t ≠ .ident) : Leads tight ((t, text) :: xs) :=
  ⟨_, xs, rfl, ht, htight, fun _ _ h => absurd h hident⟩

/-- Wrapping keeps what an expression leads with. -/
theorem leads_wrap {e : Expr} {k : ℕ} (h : Leads (7 ≤ e.level) (printExpr implicit e)) :
    Leads (7 ≤ k) (printAt implicit k e) := by
  unfold printAt wrap
  split
  · exact leads_cons rfl (fun _ => by decide) (by decide)
  · exact h.mono fun hk => by omega

/-- A token other than `=` and `:` names nothing. -/
theorem unnamed_feed_cons {t : TokenType} {text : Bytes} {xs : List Lexeme}
    (h : t ≠ .assign ∧ t ≠ .colon) (s : TokenStream) : Unnamed (feed ((t, text) :: xs) s) := h

/-- An identifier or scoped name is not followed by what would make it a name. -/
theorem leads_ident {tight : Prop} {name : Bytes} {xs : List Lexeme}
    (h : ∀ s, Unnamed s → Unnamed (feed xs s)) : Leads tight ((.ident, name) :: xs) :=
  ⟨_, xs, rfl, rfl, fun _ => ⟨TokenType.noConfusion, TokenType.noConfusion⟩, fun s hs _ => h s hs⟩

variable (implicit) in
/-- Printed expressions start like expressions. -/
theorem leads_printExpr (e : Expr) : Leads (7 ≤ e.level) (printExpr implicit e) := by
  match e with
  | .null _ | .number _ _ | .string _ _ =>
    rw [printExpr]
    exact leads_cons rfl (fun _ => by decide) (by decide)
  | .bool _ value =>
    rw [printExpr]
    cases value <;> exact leads_cons rfl (fun _ => by decide) (by decide)
  | .ident _ name =>
    rw [printExpr]
    exact leads_ident fun s hs => hs
  | .scoped _ scope name =>
    rw [printExpr]
    exact leads_ident fun s _ => unnamed_feed_cons (by decide) s
  | .member _ object member =>
    rw [printExpr]
    exact (leads_wrap (leads_printExpr object) (k := 7)).append
      (fun s _ => unnamed_feed_cons (by decide) s) |>.mono fun _ => Nat.le_refl 7
  | .call _ callee args none =>
    rw [printExpr]
    exact (leads_wrap (leads_printExpr callee) (k := 7)).append
      (fun s _ => unnamed_feed_cons (by decide) s) |>.mono fun _ => Nat.le_refl 7
  | .call _ callee args (some body) =>
    rw [printExpr]
    refine ((leads_wrap (leads_printExpr callee) (k := 7)).append fun s _ => ?_).mono
      fun _ => Nat.le_refl 7
    split <;> exact unnamed_feed_cons (by decide) s
  | .unary _ op operand =>
    rw [printExpr]
    cases op <;> exact leads_cons rfl (fun h => absurd h (by simp [Expr.level])) (by decide)
  | .binary _ op lhs rhs =>
    rw [printExpr]
    refine ((leads_wrap (leads_printExpr lhs) (k := op.level)).append fun s _ => ?_).mono fun h => ?_
    · cases op <;> exact unnamed_feed_cons (by decide) s
    · have := op.level_bounds
      simp only [Expr.level] at h
      omega

/-- An expression of this level or higher is printed plain. -/
theorem printAt_of_le {k : ℕ} {e : Expr} (h : k ≤ e.level) : printAt implicit k e = printExpr implicit e := by
  rw [printAt, wrap, if_neg (by omega)]

/-- Wrapping is printing at a level. -/
theorem wrap_printExpr (k : ℕ) (e : Expr) : wrap k e (printExpr implicit e) = printAt implicit k e := rfl

/-- An expression of a lower level is printed in parentheses. -/
theorem printAt_of_lt {k : ℕ} {e : Expr} (h : e.level < k) :
    printAt implicit k e = parens (printExpr implicit e) := by
  rw [printAt, wrap, if_pos h, parens]

/-- At the primary level nothing is resumed. -/
theorem parsesAt_primary {e : Expr}
    (h : ∀ s n, continuation s.cur.type ≤ 8 → 20 * (printAt implicit 8 e).length + 1 ≤ n →
      parsePrimary (n + 1) (feed (printAt implicit 8 e) s) = .ok (e.erase, s)) :
    ParsesAt implicit 8 e := by
  intro s budget result hs _ hresume n hn
  obtain ⟨n, rfl⟩ : ∃ m, n = m + 1 := ⟨n - 1, by omega⟩
  exact (h s n hs (by omega)).trans (hresume budget (Nat.le_refl _))

/-- A token that is read as a primary expression parses back. -/
theorem parsesAt_literal {e : Expr} {t : TokenType} {text : Bytes}
    (hprint : printExpr implicit e = [(t, text)]) (hlevel : e.level = 8)
    (hparse : ∀ n s, parsePrimary (n + 1) (feed [(t, text)] s) = .ok (e.erase, s)) :
    ParsesAt implicit 8 e := by
  refine parsesAt_primary fun s n _ _ => ?_
  rw [printAt_of_le hlevel.ge, hprint]
  exact hparse n s

/-- A number in range parses back. -/
theorem parsesAt_number {pos : Pos} {text : Bytes} (h : stodInRange text) :
    ParsesAt implicit 8 (.number pos text) := by
  refine parsesAt_literal (by rw [printExpr]) rfl fun n s => ?_
  rw [parsePrimary, peek_bind]
  show (advance >>= _) _ = _
  rw [advance_bind_feed, cur_feed_cons, if_pos h]
  rfl

/-- A name parses back. -/
theorem parsesAt_ident (pos : Pos) (name : Bytes) : ParsesAt implicit 8 (.ident pos name) := by
  refine parsesAt_primary fun s n hs _ => ?_
  rw [printAt_of_le (Nat.le_refl 8), printExpr, parsePrimary, peek_bind]
  have hscope : s.cur.type ≠ .scope := fun heq => by rw [heq] at hs; exact absurd hs (by decide)
  show (advance >>= _) _ = _
  rw [advance_bind_feed, check_bind, feed_nil, beq_eq_false_iff_ne.mpr hscope, if_neg (by decide)]
  rfl

/-- A scoped name parses back. -/
theorem parsesAt_scoped (pos : Pos) (scope name : Bytes) :
    ParsesAt implicit 8 (.scoped pos scope name) := by
  refine parsesAt_primary fun s n hs _ => ?_
  rw [printAt_of_le (Nat.le_refl 8), printExpr, parsePrimary, peek_bind]
  rfl

/-- Parentheses make a primary expression of any expression. -/
theorem ParsesAt.parenthesized {e : Expr} (h : ParsesAt implicit 1 e) (hlevel : e.level < 8)
    (hpos : 1 ≤ e.level) : ParsesAt implicit 8 e := by
  refine parsesAt_primary fun s n _ hn => ?_
  rw [printAt_of_lt hlevel, parens] at hn ⊢
  simp only [List.length_cons, List.length_append, List.length_nil] at hn
  obtain ⟨n, rfl⟩ : ∃ m, n = m + 1 := ⟨n - 1, by omega⟩
  have hinner := h.apply (s := feed [(.rparen, str ")")] s) (n := n) Nat.one_pos (fun _ => nofun)
  rw [printAt_of_le hpos] at hinner
  rw [parsePrimary, peek_bind]
  show (advance >>= _) (feed ((.lparen, str "(") :: (printExpr implicit e ++ _)) s) = _
  rw [advance_bind_feed, feed_append, parseExpression]
  exact (Parser.bind_of_ok (hinner (by omega))).trans (by rw [expect_bind_feed]; rfl)

/-- A unary operation parses back when its operand does. -/
theorem ParsesAt.unary {op : UnOp} {operand : Expr} (h : ParsesAt implicit 6 operand) (pos : Pos) :
    ParsesAt implicit 6 (.unary pos op operand) := by
  intro s budget result hs _ hresume n hn
  obtain ⟨n, rfl⟩ : ∃ m, n = m + 1 := ⟨n - 1, by omega⟩
  rw [printAt_of_le (Nat.le_refl 6), printExpr, wrap_printExpr, List.length_cons] at hn
  have hoperand : parseUnary n (feed (printAt implicit 6 operand) s) = .ok (operand.erase, s) := by
    refine h s budget _ hs (fun _ heq => ?_) (fun _ _ => rfl) n (by omega)
    rw [heq] at hs
    exact absurd hs (by decide)
  rw [printAt_of_le (Nat.le_refl 6), printExpr, wrap_printExpr]
  show parseUnary (n + 1) _ = _
  rw [parseUnary, check_bind]
  cases op with
  | not =>
    show (advance >>= _) _ = _
    rw [advance_bind_feed, Parser.bind_of_ok hoperand]
    exact hresume budget (Nat.le_refl _)
  | neg =>
    show (check .minus >>= _) _ = _
    rw [check_bind]
    show (advance >>= _) _ = _
    rw [advance_bind_feed, Parser.bind_of_ok hoperand]
    exact hresume budget (Nat.le_refl _)

/-- A binary operation parses back when its operands do. -/
theorem ParsesAt.binary {op : BinOp} {lhs rhs : Expr} (hl : ParsesAt implicit op.level lhs)
    (hr : ParsesAt implicit (op.level + 1) rhs) (pos : Pos) :
    ParsesAt implicit op.level (.binary pos op lhs rhs) := by
  have hop := op.level_bounds
  intro s budget result hs _ hresume n hn
  have hnobrace : s.cur.type ≠ .lbrace := fun heq => by
    rw [heq, show continuation .lbrace = 7 from rfl] at hs; omega
  have hlevel : (Expr.binary pos op lhs rhs).level = op.level := rfl
  rw [printAt_of_le hlevel.ge, printExpr, wrap_printExpr, wrap_printExpr] at hn ⊢
  simp only [List.length_append, List.length_cons] at hn
  rw [feed_append]
  -- behind the left operand the loop consumes the operator and the right operand
  refine hl _ (budget + 20 * (printAt implicit (op.level + 1) rhs).length + 2 * (8 - (op.level + 1)) + 4)
    result ?_ (fun _ => ?_) (fun m hm => ?_) n (by omega)
  · rw [cur_feed_cons]
    exact (continuation_lexeme op).le
  · rw [cur_feed_cons]
    cases op <;> nofun
  · obtain ⟨m, rfl⟩ : ∃ k, m = k + 1 := ⟨m - 1, by omega⟩
    have hright := hr.apply (s := s) (n := m) (by omega) (fun _ => hnobrace) (by omega)
    rw [resume_operator, Parser.bind_of_ok hright]
    exact hresume m (by omega)

/-- A member parses back when its object does. -/
theorem ParsesAt.member {object : Expr} (h : ParsesAt implicit 7 object) (pos : Pos) (name : Bytes) :
    ParsesAt implicit 7 (.member pos object name) := by
  intro s budget result hs _ hresume n hn
  rw [printAt_of_le (Nat.le_refl 7), printExpr, wrap_printExpr] at hn ⊢
  simp only [List.length_append, List.length_cons, List.length_nil] at hn
  rw [feed_append]
  refine h (feed [(.dot, str "."), (.ident, name)] s) (budget + 1) result (Nat.le_refl 7) (fun _ h => by cases h)
    (fun m hm => ?_) n (by omega)
  obtain ⟨m, rfl⟩ : ∃ k, m = k + 1 := ⟨m - 1, by omega⟩
  show postfixLoop (m + 1) _ _ = _
  rw [postfixLoop, check_bind]
  show (advance >>= _) _ = _
  rw [advance_bind_feed, expect_bind_feed]
  exact hresume m (by omega)

/-- From its own level an expression reaches every level. -/
theorem ParsesAt.all {e : Expr} (h : ParsesAt implicit e.level e) (h₁ : 1 ≤ e.level) (h₂ : e.level ≤ 8) :
    ∀ k, 1 ≤ k → k ≤ 8 → ParsesAt implicit k e := by
  have hunary : ∀ s, (feed (printAt implicit 7 e) s).cur.type ≠ .bang ∧
      (feed (printAt implicit 7 e) s).cur.type ≠ .minus := by
    intro s
    obtain ⟨x, ys, hxs, -, htight, -⟩ := leads_wrap (k := 7) (leads_printExpr implicit e)
    rw [hxs]
    exact htight (Nat.le_refl 7)
  have hdown : ∀ d m, ParsesAt implicit (m + d) e → 1 ≤ m → m + d ≤ 8 →
      (∀ j, m ≤ j → j < m + d → e.level ≠ j) → ParsesAt implicit m e := by
    intro d
    induction d with
    | zero => exact fun m hm _ _ _ => hm
    | succ d ih =>
      intro m hm hm₁ hm₈ hlevels
      have hnext := ih (m + 1) (by rwa [Nat.add_right_comm, Nat.add_assoc]) (by omega) (by omega)
        fun j hj hj' => hlevels j (by omega) (by omega)
      exact hnext.descend hm₁ (by omega) (hlevels m (Nat.le_refl m) (by omega)) fun _ => hunary
  have hbelow : ∀ k, 1 ≤ k → k ≤ e.level → ParsesAt implicit k e := fun k hk hke =>
    hdown (e.level - k) k (by rwa [Nat.add_sub_cancel' hke]) hk (by omega) fun j _ _ => by omega
  intro k hk hk₈
  by_cases hke : k ≤ e.level
  · exact hbelow k hk hke
  · have hprimary : ParsesAt implicit 8 e := (hbelow 1 (Nat.le_refl 1) h₁).parenthesized (by omega) h₁
    exact hdown (8 - k) k (by rwa [Nat.add_sub_cancel' hk₈]) hk (by omega) fun j _ _ => by omega

/-- An expression that is read at every level. -/
def Parses (implicit : Expr → Bool) (e : Expr) : Prop := ∀ k, 1 ≤ k → k ≤ 8 → ParsesAt implicit k e

/-- Expressions stand on levels one to eight. -/
theorem Expr.level_bounds (e : Expr) : 1 ≤ e.level ∧ e.level ≤ 8 := by
  cases e with
  | binary pos op lhs rhs => exact ⟨op.level_bounds.1, op.level_bounds.2.trans (by decide)⟩
  | _ => exact ⟨by simp [Expr.level], by simp [Expr.level]⟩

/-- A full expression in front of a token that continues nothing is read back. -/
theorem Parses.parseExpression {e : Expr} (h : Parses implicit e) {s : TokenStream}
    (hs : continuation s.cur.type = 0) {n : ℕ} (hn : 20 * (printExpr implicit e).length + 18 ≤ n) :
    parseExpression n (feed (printExpr implicit e) s) = .ok (e.erase, s) := by
  obtain ⟨n, rfl⟩ : ∃ m, n = m + 1 := ⟨n - 1, by omega⟩
  have hlbrace : s.cur.type ≠ .lbrace := fun heq => by rw [heq] at hs; exact absurd hs (by decide)
  have hfull := (h 1 (Nat.le_refl 1) (by decide)).apply (s := s) (n := n) (by omega) (fun _ => hlbrace)
  rw [printAt_of_le e.level_bounds.1] at hfull
  rw [ZeroTrust.Ztl.parseExpression]
  exact hfull (by omega)

/-- Printed arguments up to the closing parenthesis are read back. -/
theorem callArgsLoop_feed {args : List CallArg} (h : ∀ name value, .mk name value ∈ args → Parses implicit value)
    (s : TokenStream) (text : Bytes) {n : ℕ} (hn : 20 * (printArgs implicit args).length + 20 ≤ n)
    (acc : List CallArg) :
    callArgsLoop n acc (feed (printArgs implicit args) (feed [(.rparen, text)] s)) =
      .ok (acc ++ eraseArgs args, feed [(.rparen, text)] s) := by
  induction args generalizing n acc with
  | nil =>
    obtain ⟨n, rfl⟩ : ∃ m, n = m + 1 := ⟨n - 1, by omega⟩
    rw [printArgs, feed_nil, callArgsLoop, peek_bind, cur_feed_cons, if_pos (Or.inl rfl), eraseArgs,
      List.append_nil]
    rfl
  | cons arg args ih =>
    obtain ⟨name, value⟩ := arg
    have hvalue := h name value List.mem_cons_self
    obtain ⟨n, rfl⟩ : ∃ m, n = m + 1 := ⟨n - 1, by omega⟩
    rw [printArgs] at hn ⊢
    simp only [List.length_append] at hn
    -- what follows the value: the end of the list, or a comma and the other arguments
    have hrest : ∃ r, feed (if args.isEmpty then [] else (.comma, str ",") :: printArgs implicit args)
        (feed [(.rparen, text)] s) = r ∧ continuation r.cur.type = 0 ∧ Unnamed r ∧
        (matchType .comma >>= fun b => if b then callArgsLoop n (acc ++ [.mk name value.erase])
          else pure (acc ++ [.mk name value.erase])) r =
          .ok (acc ++ .mk name value.erase :: eraseArgs args, feed [(.rparen, text)] s) := by
      refine ⟨_, rfl, ?_⟩
      cases args with
      | nil =>
        refine ⟨rfl, ⟨(by intro h; cases h), (by intro h; cases h)⟩, ?_⟩
        rw [List.isEmpty_nil, if_pos rfl, feed_nil, matchType_bind_of_ne (by intro h; cases h), eraseArgs]
        rfl
      | cons arg args =>
        refine ⟨rfl, ⟨(by intro h; cases h), (by intro h; cases h)⟩, ?_⟩
        rw [List.isEmpty_cons, if_neg (by decide)] at hn ⊢
        rw [List.length_cons] at hn
        rw [matchType_bind_feed, if_pos rfl, ih (fun name value hmem => h name value
          (List.mem_cons_of_mem _ hmem)) (by omega)]
        simp
    obtain ⟨r, hr, hcont, hunnamed, hloop⟩ := hrest
    rw [feed_append, feed_append, hr, callArgsLoop, peek_bind, eraseArgs]
    have hparse := hvalue.parseExpression hcont (n := n) (by omega)
    by_cases hname : name = []
    · -- a positional argument starts like an expression
      subst hname
      rw [printName, if_pos rfl, feed_nil]
      obtain ⟨x, ys, hxs, hx, -, hsecond⟩ := leads_printExpr implicit value
      have hstop : ¬((feed (printExpr implicit value) r).cur.type = .rparen ∨
          (feed (printExpr implicit value) r).cur.type = .endOfFile) := by
        rw [hxs, cur_feed_cons]
        rintro (heq | heq) <;> dsimp only at heq <;> rw [heq] at hx <;> exact absurd hx (by decide)
      have hpositional : ¬((feed (printExpr implicit value) r).cur.type = .ident ∧
          (feed ys r).cur.type = .colon) := by
        rw [hxs, cur_feed_cons]
        intro h
        exact (hsecond r hunnamed h.1).2 h.2
      have hnext : (feed (printExpr implicit value) r).rest.headD (feed (printExpr implicit value) r).cur =
          (feed ys r).cur := by rw [hxs]; rfl
      rw [if_neg hstop, peekNext_bind, hnext, if_neg hpositional]
      show (parseExpression n >>= _) _ = _
      rw [Parser.bind_of_ok hparse]
      exact hloop
    · rw [printName, if_neg hname, cur_feed_cons, if_neg (by simp), peekNext_bind_feed, if_pos ⟨rfl, rfl⟩]
      show (parseExpression n >>= _) (feed (printExpr implicit value) r) = _
      exact (Parser.bind_of_ok hparse).trans hloop

/-- A statement that is read back in front of anything but `else`. -/
def ParsesStmt (implicit : Expr → Bool) (stmt : Stmt) : Prop :=
  ∀ (s : TokenStream) (n : ℕ), s.cur.type ≠ .elseKw → 20 * (printStmt implicit stmt).length + 20 ≤ n →
    parseStatement n (feed (printStmt implicit stmt) s) = .ok (stmt.erase, s)

variable (implicit) in
/-- The tokens that a statement starts with are none that end a list of statements. -/
theorem printStmt_start (stmt : Stmt) : ∃ x xs, printStmt implicit stmt = x :: xs ∧
    x.1 ≠ .rbrace ∧ x.1 ≠ .endOfFile ∧ x.1 ≠ .elseKw := by
  have hexpr : ∀ e : Expr, ∀ ys, ∃ x xs, printExpr implicit e ++ ys = x :: xs ∧
      x.1 ≠ .rbrace ∧ x.1 ≠ .endOfFile ∧ x.1 ≠ .elseKw := by
    intro e ys
    obtain ⟨x, xs, hxs, hx, -, -⟩ := leads_printExpr implicit e
    refine ⟨x, xs ++ ys, by rw [hxs, List.cons_append], ?_, ?_, ?_⟩ <;>
      intro heq <;> rw [heq] at hx <;> exact absurd hx (by decide)
  cases stmt with
  | expr pos value => rw [printStmt]; exact hexpr value _
  | ret pos value => cases value <;> rw [printStmt] <;> exact ⟨_, _, rfl, nofun, nofun, nofun⟩
  | _ => rw [printStmt]; exact ⟨_, _, rfl, nofun, nofun, nofun⟩

/-- Printed statements do not start with `else`. -/
theorem cur_feed_printStmts_ne_else {stmts : List Stmt} {s : TokenStream} (hs : s.cur.type ≠ .elseKw) :
    (feed (printStmts implicit stmts) s).cur.type ≠ .elseKw := by
  cases stmts with
  | nil => rw [printStmts]; exact hs
  | cons stmt stmts =>
    obtain ⟨x, xs, hxs, -, -, helse⟩ := printStmt_start implicit stmt
    rw [printStmts, hxs]
    exact helse

/-- Printed statements up to a closing brace are read back. -/
theorem blockLoop_feed {stmts : List Stmt} (h : ∀ stmt ∈ stmts, ParsesStmt implicit stmt)
    {s : TokenStream} (hs : s.cur.type = .rbrace) {n : ℕ}
    (hn : 20 * (printStmts implicit stmts).length + 21 ≤ n) (acc : List Stmt) :
    blockLoop n acc (feed (printStmts implicit stmts) s) = .ok (acc ++ eraseStmts stmts, s) := by
  induction stmts generalizing n acc with
  | nil =>
    obtain ⟨n, rfl⟩ : ∃ m, n = m + 1 := ⟨n - 1, by omega⟩
    rw [printStmts, feed_nil, blockLoop, peek_bind, if_pos (Or.inl hs), eraseStmts, List.append_nil]
    rfl
  | cons stmt stmts ih =>
    obtain ⟨n, rfl⟩ : ∃ m, n = m + 1 := ⟨n - 1, by omega⟩
    obtain ⟨x, xs, hxs, hbrace, heof, -⟩ := printStmt_start implicit stmt
    rw [printStmts, List.length_append] at hn
    have hpos : 1 ≤ (printStmt implicit stmt).length := by rw [hxs]; simp
    have hstmt := h stmt List.mem_cons_self (feed (printStmts implicit stmts) s) n
      (cur_feed_printStmts_ne_else (by rw [hs]; decide)) (by omega)
    have hcontinue : ¬((feed (printStmt implicit stmt) (feed (printStmts implicit stmts) s)).cur.type = .rbrace ∨
        (feed (printStmt implicit stmt) (feed (printStmts implicit stmts) s)).cur.type = .endOfFile) := by
      rw [hxs, cur_feed_cons]
      exact not_or.mpr ⟨hbrace, heof⟩
    rw [printStmts, feed_append, blockLoop, peek_bind, if_neg hcontinue, Parser.bind_of_ok hstmt,
      ih (fun stmt hmem => h stmt (List.mem_cons_of_mem _ hmem)) (by omega), eraseStmts]
    simp

/-- A printed block is read back. -/
theorem parseBlock_feed {stmts : List Stmt} (h : ∀ stmt ∈ stmts, ParsesStmt implicit stmt)
    (s : TokenStream) {n : ℕ} (hn : 20 * (braces (printStmts implicit stmts)).length ≤ n + 18) :
    parseBlock n (feed (braces (printStmts implicit stmts)) s) = .ok (eraseStmts stmts, s) := by
  simp only [braces, List.length_cons, List.length_append, List.length_nil] at hn
  obtain ⟨n, rfl⟩ : ∃ m, n = m + 1 := ⟨n - 1, by omega⟩
  have hloop := blockLoop_feed h (s := feed [(.rbrace, str "\x7d")] s) rfl (n := n) (by omega) []
  rw [parseBlock, braces]
  show (expect .lbrace _ >>= _) (feed ((.lbrace, str "\x7b") :: (printStmts implicit stmts ++ _)) s) = _
  rw [expect_bind_feed, feed_append, Parser.bind_of_ok hloop, expect_bind_feed]
  rfl

/-- Printed arguments in parentheses are read back. -/
theorem parseCallArgs_feed {args : List CallArg}
    (h : ∀ name value, .mk name value ∈ args → Parses implicit value) (s : TokenStream) {n : ℕ}
    (hn : 20 * (parens (printArgs implicit args)).length ≤ n + 18) :
    parseCallArgs n (feed (parens (printArgs implicit args)) s) = .ok (eraseArgs args, s) := by
  simp only [parens, List.length_cons, List.length_append, List.length_nil] at hn
  obtain ⟨n, rfl⟩ : ∃ m, n = m + 1 := ⟨n - 1, by omega⟩
  have hloop := callArgsLoop_feed h s (str ")") (n := n) (by omega) []
  rw [parseCallArgs, parens]
  show (expect .lparen _ >>= _) (feed ((.lparen, str "(") :: (printArgs implicit args ++ _)) s) = _
  rw [expect_bind_feed, feed_append, Parser.bind_of_ok hloop, expect_bind_feed]
  rfl

/-- A call parses back when its callee and its arguments do. -/
theorem ParsesAt.plainCall {callee : Expr} {args : List CallArg} (h : ParsesAt implicit 7 callee)
    (hargs : ∀ name value, .mk name value ∈ args → Parses implicit value) (pos : Pos) :
    ParsesAt implicit 7 (.call pos callee args none) := by
  intro s budget result hs hopen hresume n hn
  have hbrace : s.cur.type ≠ .lbrace := hopen rfl
  rw [printAt_of_le (Nat.le_refl 7), printExpr, wrap_printExpr] at hn ⊢
  rw [List.length_append] at hn
  rw [feed_append]
  have hlength : 2 ≤ (parens (printArgs implicit args)).length := by simp [parens]
  refine h (feed (parens (printArgs implicit args)) s)
    (budget + 20 * (parens (printArgs implicit args)).length - 10) result (Nat.le_refl 7) (fun _ h => by cases h)
    (fun m hm => ?_) n (by omega)
  obtain ⟨m, rfl⟩ : ∃ k, m = k + 1 := ⟨m - 1, by omega⟩
  show postfixLoop (m + 1) _ _ = _
  rw [postfixLoop, check_bind]
  show (check .lparen >>= _) (feed (parens (printArgs implicit args)) s) = _
  rw [check_bind]
  show (peek >>= _) (feed (parens (printArgs implicit args)) s) = _
  rw [peek_bind, Parser.bind_of_ok (parseCallArgs_feed hargs s (n := m) (by omega)), check_bind,
    beq_eq_false_iff_ne.mpr hbrace, if_neg (by decide)]
  exact hresume m (by omega)

/-- A call with a block parses back when its parts do. -/
theorem ParsesAt.blockCall {callee : Expr} {args : List CallArg} {body : List Stmt}
    (h : ParsesAt implicit 7 callee)
    (hargs : ∀ name value, .mk name value ∈ args → Parses implicit value)
    (hbody : ∀ stmt ∈ body, ParsesStmt implicit stmt) (pos : Pos) :
    ParsesAt implicit 7 (.call pos callee args (some body)) := by
  intro s budget result hs _ hresume n hn
  rw [printAt_of_le (Nat.le_refl 7), printExpr, wrap_printExpr] at hn ⊢
  have hlength : 2 ≤ (braces (printStmts implicit body)).length := by simp [braces]
  by_cases homit : omitsParens implicit callee args
  · -- the block alone makes the call
    rw [if_pos homit, List.nil_append, List.length_append] at hn
    rw [if_pos homit, List.nil_append, feed_append]
    simp only [omitsParens, Bool.and_eq_true, List.isEmpty_iff, Bool.not_eq_true'] at homit
    obtain ⟨⟨-, rfl⟩, hclosed⟩ := homit
    refine h (feed (braces (printStmts implicit body)) s)
      (budget + 20 * (braces (printStmts implicit body)).length - 10) result (Nat.le_refl 7)
      (fun hopen => absurd hopen (by rw [hclosed]; decide)) (fun m hm => ?_) n (by omega)
    obtain ⟨m, rfl⟩ : ∃ k, m = k + 1 := ⟨m - 1, by omega⟩
    show postfixLoop (m + 1) _ _ = _
    rw [postfixLoop, check_bind]
    show (check .lparen >>= _) (feed (braces (printStmts implicit body)) s) = _
    rw [check_bind]
    show (check .lbrace >>= _) (feed (braces (printStmts implicit body)) s) = _
    rw [check_bind]
    show (peek >>= _) (feed (braces (printStmts implicit body)) s) = _
    rw [peek_bind, Parser.bind_of_ok (parseBlock_feed hbody s (n := m) (by omega))]
    exact hresume m (by omega)
  · have hlength' : 2 ≤ (parens (printArgs implicit args)).length := by simp [parens]
    rw [if_neg homit, List.length_append, List.length_append] at hn
    rw [if_neg homit, feed_append, feed_append]
    refine h (feed (parens (printArgs implicit args)) (feed (braces (printStmts implicit body)) s))
      (budget + 20 * (parens (printArgs implicit args)).length +
        20 * (braces (printStmts implicit body)).length - 10) result (Nat.le_refl 7) (fun _ h => by cases h)
      (fun m hm => ?_) n (by omega)
    obtain ⟨m, rfl⟩ : ∃ k, m = k + 1 := ⟨m - 1, by omega⟩
    show postfixLoop (m + 1) _ _ = _
    rw [postfixLoop, check_bind]
    show (check .lparen >>= _) (feed (parens (printArgs implicit args)) _) = _
    rw [check_bind]
    show (peek >>= _) (feed (parens (printArgs implicit args)) _) = _
    rw [peek_bind, Parser.bind_of_ok (parseCallArgs_feed hargs _ (n := m) (by omega)), check_bind]
    show (parseBlock m >>= _) (feed (braces (printStmts implicit body)) s) = _
    rw [Parser.bind_of_ok (parseBlock_feed hbody s (n := m) (by omega))]
    exact hresume m (by omega)

/-- A statement that starts like an expression and is no assignment is one. -/
theorem parseStatement_expr {n : ℕ} {s : TokenStream} (hstart : startsExpr s.cur.type)
    (hassign : ¬(s.cur.type = .ident ∧ (s.rest.headD s.cur).type = .assign)) :
    parseStatement (n + 1) s = (parseExpression n >>= fun e =>
      matchType .semicolon >>= fun _ => pure (.expr s.cur.pos e)) s := by
  rw [parseStatement, peek_bind, peekNext_bind]
  obtain ⟨⟨t, text, pos⟩, rest⟩ := s
  cases t
  all_goals first
    | exact Bool.noConfusion (show false = true from hstart)
    | exact congrFun (if_neg hassign) _

/-- An expression statement parses back when its expression does. -/
theorem parsesStmt_expr {value : Expr} (h : Parses implicit value) (pos : Pos) :
    ParsesStmt implicit (.expr pos value) := by
  intro s n _ hn
  obtain ⟨n, rfl⟩ : ∃ m, n = m + 1 := ⟨n - 1, by omega⟩
  rw [printStmt] at hn ⊢
  rw [List.length_append, List.length_singleton] at hn
  have hparse := h.parseExpression (s := feed [(.semicolon, str ";")] s) rfl (n := n) (by omega)
  obtain ⟨x, xs, hxs, hx, -, hsecond⟩ := leads_printExpr implicit value
  have hfirst : (feed (printExpr implicit value) (feed [(.semicolon, str ";")] s)).cur = ⟨x.1, x.2, {}⟩ := by
    rw [hxs, cur_feed_cons]
  have hnext : (feed (printExpr implicit value) (feed [(.semicolon, str ";")] s)).rest.headD
      (feed (printExpr implicit value) (feed [(.semicolon, str ";")] s)).cur =
      (feed xs (feed [(.semicolon, str ";")] s)).cur := by
    rw [hxs]; rfl
  have hunnamed : Unnamed (feed [(.semicolon, str ";")] s) := ⟨TokenType.noConfusion, TokenType.noConfusion⟩
  rw [feed_append, parseStatement_expr (by rw [hfirst]; exact hx), Parser.bind_of_ok hparse,
    matchType_bind_feed, hfirst]
  · rfl
  · rw [hnext, hfirst]
    exact fun ⟨hident, heq⟩ => (hsecond _ hunnamed hident).1 heq

/-- An assignment parses back when its value does. -/
theorem parsesStmt_assign {value : Expr} (h : Parses implicit value) (pos : Pos) (name : Bytes) :
    ParsesStmt implicit (.assign pos name value) := by
  intro s n _ hn
  obtain ⟨n, rfl⟩ : ∃ m, n = m + 1 := ⟨n - 1, by omega⟩
  rw [printStmt] at hn ⊢
  simp only [List.length_append, List.length_cons, List.length_nil] at hn
  have hparse := h.parseExpression (s := feed [(.semicolon, str ";")] s) rfl (n := n) (by omega)
  rw [parseStatement, peek_bind, peekNext_bind_feed]
  show (advance >>= _) (feed ((.ident, name) :: (.assign, str "=") :: (printExpr implicit value ++ _)) s) = _
  rw [advance_bind_feed, advance_bind_feed, feed_append, Parser.bind_of_ok hparse, matchType_bind_feed]
  rfl

/-- A return parses back when its value does. -/
theorem parsesStmt_ret {value : Option Expr} (h : ∀ e ∈ value, Parses implicit e) (pos : Pos) :
    ParsesStmt implicit (.ret pos value) := by
  intro s n _ hn
  obtain ⟨n, rfl⟩ : ∃ m, n = m + 1 + 1 := ⟨n - 2, by omega⟩
  cases value with
  | none =>
    rw [printStmt, parseStatement, peek_bind, peekNext_bind_feed]
    show parseReturn (n + 1) (feed [(.returnKw, str "return"), (.semicolon, str ";")] s) = _
    rw [parseReturn, advance_bind_feed, peek_bind, cur_feed_cons, if_pos (Or.inl rfl), pure_bind_apply]
    exact (matchType_bind_feed .semicolon (str ";") _ [] s).trans rfl
  | some value =>
    rw [printStmt] at hn ⊢
    simp only [List.length_append, List.length_cons, List.length_nil] at hn
    have hparse := (h value rfl).parseExpression (s := feed [(.semicolon, str ";")] s) rfl (n := n) (by omega)
    obtain ⟨x, xs, hxs, hx, -, -⟩ := leads_printExpr implicit value
    have hvalue : ¬((feed (printExpr implicit value) (feed [(.semicolon, str ";")] s)).cur.type = .semicolon ∨
        (feed (printExpr implicit value) (feed [(.semicolon, str ";")] s)).cur.type = .rbrace ∨
        (feed (printExpr implicit value) (feed [(.semicolon, str ";")] s)).cur.type = .endOfFile) := by
      rw [hxs, cur_feed_cons]
      rintro (heq | heq | heq) <;> dsimp only at heq <;> rw [heq] at hx <;> exact absurd hx (by decide)
    rw [parseStatement, peek_bind, peekNext_bind_feed]
    show parseReturn (n + 1) (feed ((.returnKw, str "return") :: (printExpr implicit value ++ _)) s) = _
    rw [parseReturn, advance_bind_feed, peek_bind, feed_append, if_neg hvalue]
    show (parseExpression n >>= _) _ = _
    rw [Parser.bind_of_ok hparse, pure_bind_apply]
    exact (matchType_bind_feed .semicolon (str ";") _ [] s).trans rfl

/-- An include parses back. -/
theorem parsesStmt_includeModule (pos : Pos) (moduleName : Bytes) :
    ParsesStmt implicit (.includeModule pos moduleName) := by
  intro s n _ hn
  obtain ⟨n, rfl⟩ : ∃ m, n = m + 1 := ⟨n - 1, by omega⟩
  rw [printStmt, parseStatement, peek_bind, peekNext_bind_feed]
  show parseInclude (feed ((.includeKw, str "include") :: (.lparen, str "(") :: (.string, moduleName) ::
    (.rparen, str ")") :: [(.semicolon, str ";")]) s) = _
  rw [parseInclude, advance_bind_feed, expect_bind_feed, expect_bind_feed, expect_bind_feed,
    matchType_bind_feed]
  rfl

/-- On `if` a statement is parsed by `parse_if`. -/
theorem parseStatement_if {n : ℕ} {s : TokenStream} (h : s.cur.type = .ifKw) :
    parseStatement (n + 1) s = parseIf n s := by
  rw [parseStatement, peek_bind, peekNext_bind, h]

/-- An `if` parses back when its condition and branches do. -/
theorem parsesStmt_ifThen {condition : Expr} {thenBranch elseBranch : List Stmt}
    (hcondition : Parses implicit condition) (hthen : ∀ stmt ∈ thenBranch, ParsesStmt implicit stmt)
    (helse : ∀ stmt ∈ elseBranch, ParsesStmt implicit stmt) (pos : Pos) :
    ParsesStmt implicit (.ifThen pos condition thenBranch elseBranch) := by
  intro s n hs hn
  obtain ⟨n, rfl⟩ : ∃ m, n = m + 1 + 1 := ⟨n - 2, by omega⟩
  rw [printStmt] at hn ⊢
  simp only [List.length_append, List.length_cons] at hn
  -- what remains behind the then branch, and what it adds to the statement
  have htail : ∃ r, feed (if elseBranch.isEmpty then [] else (.elseKw, str "else") ::
        (if isElseIf elseBranch then printStmts implicit elseBranch
          else braces (printStmts implicit elseBranch))) s = r ∧
      (matchType .elseKw >>= fun b : Bool => if b then check .ifKw >>= fun b : Bool =>
          if b then parseIf n >>= fun nested =>
            pure (Stmt.ifThen {} condition.erase (eraseStmts thenBranch) [nested])
          else parseBlock n >>= fun elseBranch =>
            pure (Stmt.ifThen {} condition.erase (eraseStmts thenBranch) elseBranch)
        else pure (Stmt.ifThen {} condition.erase (eraseStmts thenBranch) [])) r =
        .ok (.ifThen {} condition.erase (eraseStmts thenBranch) (eraseStmts elseBranch), s) := by
    refine ⟨_, rfl, ?_⟩
    cases elseBranch with
    | nil =>
      rw [List.isEmpty_nil, if_pos rfl, feed_nil, matchType_bind_of_ne hs, eraseStmts]
      rfl
    | cons stmt stmts =>
      rw [List.isEmpty_cons, if_neg (by decide)] at hn ⊢
      rw [List.length_cons] at hn
      rw [matchType_bind_feed, if_pos rfl, check_bind]
      by_cases hnested : isElseIf (stmt :: stmts)
      · obtain ⟨pos', condition', thenBranch', elseBranch', rfl, rfl⟩ :
            ∃ p c t e, stmt = .ifThen p c t e ∧ stmts = [] := by
          unfold isElseIf at hnested
          split at hnested
          · next heq => cases heq; exact ⟨_, _, _, _, rfl, rfl⟩
          · cases hnested
        have hstmt := helse _ List.mem_cons_self s (n + 1) hs
        rw [if_pos hnested, printStmts, printStmts, List.append_nil] at hn ⊢
        have hfirst : (feed (printStmt implicit (.ifThen pos' condition' thenBranch' elseBranch')) s).cur.type =
            .ifKw := by rw [printStmt]; rfl
        rw [parseStatement_if hfirst] at hstmt
        rw [hfirst, beq_self_eq_true, if_pos rfl, Parser.bind_of_ok (hstmt (by omega)), eraseStmts, eraseStmts]
        rfl
      · rw [if_neg hnested] at hn ⊢
        have hblock := parseBlock_feed helse s (n := n) (by omega)
        show (parseBlock n >>= _) (feed (braces (printStmts implicit (stmt :: stmts))) s) = _
        rw [Parser.bind_of_ok hblock]
        rfl
  obtain ⟨r, hr, htail⟩ := htail
  have hblock := parseBlock_feed hthen r (n := n) (by omega)
  have hparse := hcondition.parseExpression (n := n)
    (s := feed ((.rparen, str ")") :: braces (printStmts implicit thenBranch)) r) rfl (by omega)
  rw [parseStatement_if (by rfl), parseIf, advance_bind_feed, expect_bind_feed, feed_append]
  rw [show ∀ ys, feed ((.rparen, str ")") :: (braces (printStmts implicit thenBranch) ++ ys)) s =
    feed ((.rparen, str ")") :: braces (printStmts implicit thenBranch)) (feed ys s) from
      fun ys => feed_append ((.rparen, str ")") :: braces _) ys s, hr, Parser.bind_of_ok hparse,
    expect_bind_feed, Parser.bind_of_ok hblock]
  exact htail

variable (implicit)

mutual

/-- Every valid expression parses back, by induction on it. -/
theorem parses_expr (e : Expr) (h : e.Valid) : Parses implicit e := by
  refine ParsesAt.all ?_ e.level_bounds.1 e.level_bounds.2
  match e with
  | .null _ => exact parsesAt_literal (by rw [printExpr]) rfl fun n s => by rw [parsePrimary]; rfl
  | .bool _ true => exact parsesAt_literal (by rw [printExpr]) rfl fun n s => by rw [parsePrimary]; rfl
  | .bool _ false => exact parsesAt_literal (by rw [printExpr]) rfl fun n s => by rw [parsePrimary]; rfl
  | .number _ text => exact parsesAt_number (by rw [Expr.Valid] at h; exact h)
  | .string _ value => exact parsesAt_literal (by rw [printExpr]) rfl fun n s => by rw [parsePrimary]; rfl
  | .ident pos name => exact parsesAt_ident pos name
  | .scoped pos scope name => exact parsesAt_scoped pos scope name
  | .member pos object name =>
    rw [Expr.Valid] at h
    exact (parses_expr object h 7 (by decide) (by decide)).member pos name
  | .call pos callee args none =>
    rw [Expr.Valid] at h
    exact (parses_expr callee h.1 7 (by decide) (by decide)).plainCall (parses_args args h.2.1) pos
  | .call pos callee args (some body) =>
    rw [Expr.Valid, ValidBlock] at h
    exact (parses_expr callee h.1 7 (by decide) (by decide)).blockCall (parses_args args h.2.1)
      (parses_stmts body h.2.2) pos
  | .unary pos op operand =>
    rw [Expr.Valid] at h
    exact (parses_expr operand h 6 (by decide) (by decide)).unary pos
  | .binary pos op lhs rhs =>
    rw [Expr.Valid] at h
    have hop := op.level_bounds
    exact (parses_expr lhs h.1 op.level hop.1 (by omega)).binary
      (parses_expr rhs h.2 (op.level + 1) (by omega) (by omega)) pos

/-- Every valid list of arguments parses back. -/
theorem parses_args (args : List CallArg) (h : ValidArgs args) :
    ∀ name value, .mk name value ∈ args → Parses implicit value := by
  match args with
  | [] => exact nofun
  | .mk name value :: args =>
    rw [ValidArgs] at h
    intro name' value' hmem
    rcases List.mem_cons.mp hmem with heq | hmem
    · cases heq
      exact parses_expr value h.1
    · exact parses_args args h.2 name' value' hmem

/-- Every valid statement parses back. -/
theorem parses_stmt (stmt : Stmt) (h : stmt.Valid) : ParsesStmt implicit stmt := by
  match stmt with
  | .expr pos value =>
    rw [Stmt.Valid] at h
    exact parsesStmt_expr (parses_expr value h) pos
  | .assign pos name value =>
    rw [Stmt.Valid] at h
    exact parsesStmt_assign (parses_expr value h) pos name
  | .ifThen pos condition thenBranch elseBranch =>
    rw [Stmt.Valid] at h
    exact parsesStmt_ifThen (parses_expr condition h.1) (parses_stmts thenBranch h.2.1)
      (parses_stmts elseBranch h.2.2) pos
  | .ret pos none => exact parsesStmt_ret (fun _ he => absurd he (by simp)) pos
  | .ret pos (some value) =>
    rw [Stmt.Valid, ValidValue] at h
    refine parsesStmt_ret (fun e he => ?_) pos
    cases he
    exact parses_expr value h
  | .includeModule pos moduleName => exact parsesStmt_includeModule pos moduleName

/-- Every valid list of statements parses back. -/
theorem parses_stmts (stmts : List Stmt) (h : ValidStmts stmts) :
    ∀ stmt ∈ stmts, ParsesStmt implicit stmt := by
  match stmts with
  | [] => exact nofun
  | stmt :: stmts =>
    rw [ValidStmts] at h
    intro stmt' hmem
    rcases List.mem_cons.mp hmem with heq | hmem
    · exact heq ▸ parses_stmt stmt h.1
    · exact parses_stmts stmts h.2 stmt' hmem

end

/-- The program loop reads printed statements up to the end of the file. -/
theorem programLoop_feed {stmts : List Stmt} (h : ∀ stmt ∈ stmts, ParsesStmt implicit stmt) {s : TokenStream}
    (hs : s.cur.type = .endOfFile) {n : ℕ} (hn : 20 * (printStmts implicit stmts).length + 21 ≤ n)
    (acc : List Stmt) :
    programLoop n acc (feed (printStmts implicit stmts) s) = .ok (⟨acc ++ eraseStmts stmts⟩, s) := by
  induction stmts generalizing n acc with
  | nil =>
    obtain ⟨n, rfl⟩ : ∃ m, n = m + 1 := ⟨n - 1, by omega⟩
    rw [printStmts, feed_nil, programLoop, check_bind, hs, eraseStmts, List.append_nil]
    rfl
  | cons stmt stmts ih =>
    obtain ⟨n, rfl⟩ : ∃ m, n = m + 1 := ⟨n - 1, by omega⟩
    obtain ⟨x, xs, hxs, -, heof, -⟩ := printStmt_start implicit stmt
    rw [printStmts, List.length_append] at hn
    have hpos : 1 ≤ (printStmt implicit stmt).length := by rw [hxs]; simp
    have hcontinue : (feed (printStmt implicit stmt) (feed (printStmts implicit stmts) s)).cur.type ≠
        .endOfFile := by
      rw [hxs]
      exact heof
    have hstmt := h stmt List.mem_cons_self (feed (printStmts implicit stmts) s) n
      (cur_feed_printStmts_ne_else (by rw [hs]; decide)) (by omega)
    rw [printStmts, feed_append, programLoop, check_bind, beq_eq_false_iff_ne.mpr hcontinue,
      if_neg (by decide), Parser.bind_of_ok hstmt,
      ih (fun stmt hmem => h stmt (List.mem_cons_of_mem _ hmem)) (by omega), eraseStmts]
    simp

end

/-- Tokens with the lexemes of a printed text are that text once their positions are erased. -/
theorem erase_eq_feed {xs : List Lexeme} {x : Lexeme} {cur : Token} {rest : List Token}
    (h : (cur :: rest).map Token.lexeme = xs ++ [x]) :
    TokenStream.erase ⟨cur, rest⟩ = feed xs ⟨⟨x.1, x.2, {}⟩, []⟩ := by
  induction xs generalizing cur rest with
  | nil =>
    rw [List.map_cons, List.nil_append, List.cons.injEq, List.map_eq_nil_iff] at h
    obtain ⟨rfl, rfl⟩ := h
    rfl
  | cons y ys ih =>
    rw [List.map_cons, List.cons_append, List.cons.injEq] at h
    obtain ⟨rfl, h⟩ := h
    cases rest with
    | nil => exact absurd h (by simp)
    | cons t rest =>
      have htail := ih h
      rw [feed, ← htail]
      rfl

/-- Parsing the tokens of a printed program returns the program, up to positions. -/
theorem parseProgram_printProgram (implicit : Expr → Bool) (p : Program) (h : ValidStmts p.statements)
    (cur : Token) (rest : List Token)
    (htokens : (cur :: rest).map Token.lexeme = printProgram implicit p) :
    ∃ p', parseProgram cur rest = .ok p' ∧ p'.erase = p.erase := by
  have hlength : rest.length = (printStmts implicit p.statements).length := by
    have := congrArg List.length htokens
    rw [printProgram, List.length_map, List.length_cons, List.length_append, List.length_singleton] at this
    omega
  have hloop := programLoop_feed implicit (parses_stmts implicit p.statements h)
    (s := ⟨⟨.endOfFile, [], {}⟩, []⟩) rfl (n := 20 * (rest.length + 2)) (by omega) []
  have herased := parseProgram_erase cur rest
  have hfeed : parseProgram cur.erase (rest.map Token.erase) = .ok p.erase := by
    unfold parseProgram
    rw [List.length_map]
    show (programLoop _ [] (TokenStream.erase ⟨cur, rest⟩)).map Prod.fst = _
    rw [erase_eq_feed htokens, hloop]
    rfl
  rw [hfeed] at herased
  cases hparse : parseProgram cur rest with
  | error e => rw [hparse] at herased; cases herased
  | ok p' =>
    rw [hparse] at herased
    exact ⟨p', rfl, (Except.ok.inj herased).symm⟩

/-- `plugin.run { return -1 + (2 < 3); }` with a named argument behind it. -/
def sampleProgram : Program where
  statements := [.expr {} (.call {} (.call {} (.member {} (.ident {} (str "plugin")) (str "run")) []
    (some [.ret {} (some (.binary {} .add (.unary {} .neg (.number {} (str "1")))
      (.binary {} .lt (.number {} (str "2")) (.number {} (str "3.5")))))]))
    [.mk (str "x") (.null {})] none)]

/-- A program with a block, operators in parentheses and a named argument parses back. -/
theorem parseProgram_printProgram_sample :
    ∃ p', parseProgram ⟨.ident, str "plugin", {}⟩ (((printProgram (fun _ => true) sampleProgram).tail).map
      fun x => ⟨x.1, x.2, {}⟩) = .ok p' ∧ p'.erase = sampleProgram.erase :=
  parseProgram_printProgram (fun _ => true) sampleProgram
    (by simp only [sampleProgram, ValidStmts, Stmt.Valid, Expr.Valid, ValidArgs, ValidBlock, ValidValue,
          and_true, true_and]; decide +kernel) _ _ (by decide)

end ZeroTrust.Ztl
