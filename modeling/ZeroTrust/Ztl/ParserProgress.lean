import ZeroTrust.Ztl.Parser

/-!
# Parsing always ends

The parser stands still at its last token, and five of its loops rely on their bodies to move on.
`Consumes` states for one parser how many tokens it takes when it returns, and which budget is enough
for it to come to an end. It composes along `>>=`: what the first part consumes pays for the second.
-/

namespace ZeroTrust.Ztl

/-- The tokens of a stream. -/
def TokenStream.tokens (s : TokenStream) : List Token := s.cur :: s.rest

/-- The last token is the end of the file, and no other. -/
def EndsOnce (tokens : List Token) : Prop :=
  ∃ front last, tokens = front ++ [last] ∧ last.type = .endOfFile ∧ ∀ t ∈ front, t.type ≠ .endOfFile

/-- What is left of the tokens ends as they do. -/
theorem EndsOnce.drop {tokens : List Token} (h : EndsOnce tokens) {k : ℕ} (hk : k < tokens.length) :
    EndsOnce (tokens.drop k) := by
  obtain ⟨front, last, rfl, hlast, hfront⟩ := h
  rw [List.length_append, List.length_singleton] at hk
  refine ⟨front.drop k, last, ?_, hlast, fun t ht => hfront t (List.mem_of_mem_drop ht)⟩
  rw [List.drop_append_of_le_length (by omega)]

/-- Behind a token that is not the end there is another one. -/
theorem EndsOnce.rest_ne_nil {s : TokenStream} (h : EndsOnce s.tokens) (hcur : s.cur.type ≠ .endOfFile) :
    s.rest ≠ [] := by
  obtain ⟨front, last, htokens, hlast, -⟩ := h
  intro hrest
  rw [TokenStream.tokens, hrest] at htokens
  cases front with
  | nil =>
    rw [(List.cons.inj htokens).1] at hcur
    exact hcur hlast
  | cons t front =>
    have hlength := congrArg List.length htokens
    simp at hlength

/-- The second stream is the first one without some tokens. -/
def TokenStream.Behind (least : ℕ) (s s' : TokenStream) : Prop :=
  ∃ k, least ≤ k ∧ s.tokens.drop k = s'.tokens

namespace TokenStream.Behind

variable {s s' s'' : TokenStream} {d d' : ℕ}

/-- A stream is behind itself by nothing. -/
theorem refl (s : TokenStream) : Behind 0 s s := ⟨0, Nat.le_refl 0, rfl⟩

/-- The tokens consumed one after the other add up. -/
theorem trans (h : Behind d s s') (h' : Behind d' s' s'') : Behind (d + d') s s'' := by
  obtain ⟨k, hk, hdrop⟩ := h
  obtain ⟨k', hk', hdrop'⟩ := h'
  refine ⟨k + k', Nat.add_le_add hk hk', ?_⟩
  rw [← List.drop_drop, hdrop, hdrop']

/-- A stream that is behind by some tokens is so by fewer. -/
theorem mono (h : Behind d s s') (hd : d' ≤ d) : Behind d' s s' := by
  obtain ⟨k, hk, hdrop⟩ := h
  exact ⟨k, hd.trans hk, hdrop⟩

/-- What was consumed is missing. -/
theorem length (h : Behind d s s') : s'.rest.length + d ≤ s.rest.length := by
  obtain ⟨k, hk, hdrop⟩ := h
  have hlength := congrArg List.length hdrop
  simp only [tokens, List.length_drop, List.length_cons] at hlength
  omega

/-- A stream behind one that ends once ends once. -/
theorem ends (h : Behind d s s') (hends : EndsOnce s.tokens) : EndsOnce s'.tokens := by
  have hlength := h.length
  obtain ⟨k, -, hdrop⟩ := h
  rw [← hdrop]
  apply hends.drop
  have hdropped := congrArg List.length hdrop
  simp only [tokens, List.length_drop, List.length_cons] at hdropped ⊢
  omega

end TokenStream.Behind

/-- Entered where `pre` holds, a parser that returns has consumed `least` tokens or more, and with a
budget of `20` units for every token behind the current one and `reserve` in addition it comes to an
end. -/
structure Consumes {α : Type} (n reserve least : ℕ) (pre : TokenStream → Prop) (p : Parser α) : Prop where
  progress : ∀ s, EndsOnce s.tokens → pre s → ∀ a s', p s = .ok (a, s') → s.Behind least s'
  ends : ∀ s, EndsOnce s.tokens → pre s → 20 * s.rest.length + reserve ≤ n → p s ≠ .error .diverges

/-- Nothing is known about the stream. -/
abbrev Anywhere : TokenStream → Prop := fun _ => True

section Rules

variable {α β : Type} {n r r' d d' : ℕ} {P Q : TokenStream → Prop} {p q : Parser α} {k : α → Parser β}

namespace Consumes

/-- A stronger precondition may be assumed. -/
theorem under (h : Consumes n r d P p) (hpre : ∀ s, Q s → P s) : Consumes n r d Q p where
  progress s hs hq := h.progress s hs (hpre s hq)
  ends s hs hq := h.ends s hs (hpre s hq)

/-- A parser that needs no precondition may be given one. -/
theorem anywhere (h : Consumes n r d Anywhere p) : Consumes n r d P p := h.under fun _ _ => trivial

/-- A larger reserve and fewer tokens may be promised. -/
theorem mono (h : Consumes n r d P p) (hr : r ≤ r') (hd : d' ≤ d) : Consumes n r' d' P p where
  progress s hs hp a s' hok := (h.progress s hs hp a s' hok).mono hd
  ends s hs hp hbudget := h.ends s hs hp (by omega)

/-- A call takes one unit of the budget. -/
theorem call (h : Consumes n r d P p) (hr : r + 1 ≤ r') (hd : d' ≤ d) : Consumes (n + 1) r' d' P p where
  progress s hs hp a s' hok := (h.progress s hs hp a s' hok).mono hd
  ends s hs hp hbudget := h.ends s hs hp (by omega)

/-- What the first part consumes pays for the second. -/
theorem bind (h : Consumes n r d P p) (hk : ∀ a, Consumes n r' d' Anywhere (k a)) :
    Consumes n (max r (r' - 20 * d)) (d + d') P (p >>= k) where
  progress := by
    intro s hs hp b s'' hok
    change Parser.bind p k s = _ at hok
    unfold Parser.bind at hok
    split at hok
    · next a s' hfirst =>
      have hbehind := h.progress s hs hp a s' hfirst
      exact hbehind.trans ((hk a).progress s' (hbehind.ends hs) trivial b s'' hok)
    · cases hok
  ends := by
    intro s hs hp hbudget
    change Parser.bind p k s ≠ _
    unfold Parser.bind
    split
    · next a s' hfirst =>
      have hbehind := h.progress s hs hp a s' hfirst
      have hlength := hbehind.length
      exact (hk a).ends s' (hbehind.ends hs) trivial (by omega)
    · next e hfirst =>
      intro he
      cases he
      exact h.ends s hs hp (by omega) hfirst

/-- A conditional consumes what both of its branches do. -/
theorem ite {c : Prop} [Decidable c] (h : Consumes n r d P p) (h' : Consumes n r' d' P q) :
    Consumes n (max r r') (min d d') P (if c then p else q) := by
  split
  · exact h.mono (Nat.le_max_left _ _) (Nat.min_le_left _ _)
  · exact h'.mono (Nat.le_max_right _ _) (Nat.min_le_right _ _)

end Consumes

/-- A value consumes nothing. -/
theorem consumes_pure (a : α) : Consumes n 0 0 P (pure a : Parser α) where
  progress s _ _ _ _ hok := by cases hok; exact .refl s
  ends _ _ _ _ := nofun

/-- A failure consumes nothing. -/
theorem consumes_fail (msg : Bytes) (pos : Pos) : Consumes n 0 d P (Parser.fail msg pos : Parser α) where
  progress _ _ _ _ _ := nofun
  ends _ _ _ _ := nofun

/-- A number out of range consumes nothing. -/
theorem consumes_outOfRange : Consumes n 0 d P (Parser.outOfRange : Parser α) where
  progress _ _ _ _ _ := nofun
  ends _ _ _ _ := nofun

/-- Without a budget nothing is parsed. -/
theorem consumes_diverges (hr : 0 < r) : Consumes 0 r d P (Parser.diverges : Parser α) where
  progress _ _ _ _ _ := nofun
  ends s _ _ hbudget := by omega

/-- Looking at the current token consumes nothing, and what follows knows it. -/
theorem consumes_peek {k : Token → Parser β} (hk : ∀ t, Consumes n r d (fun s => P s ∧ s.cur = t) (k t)) :
    Consumes n r d P (peek >>= k) where
  progress s hs hp := (hk s.cur).progress s hs ⟨hp, rfl⟩
  ends s hs hp := (hk s.cur).ends s hs ⟨hp, rfl⟩

/-- Looking one token ahead consumes nothing. -/
theorem consumes_peekNext {k : Token → Parser β} (hk : ∀ t, Consumes n r d P (k t)) :
    Consumes n r d P (peekNext >>= k) where
  progress s := (hk (s.rest.headD s.cur)).progress s
  ends s := (hk (s.rest.headD s.cur)).ends s

/-- `if (check(t))`: in each branch the type of the token is known. -/
theorem consumes_check {t : TokenType} (h : Consumes n r d (fun s => P s ∧ s.cur.type = t) p)
    (h' : Consumes n r' d' (fun s => P s ∧ s.cur.type ≠ t) q) :
    Consumes n (max r r') (min d d') P (check t >>= fun b => if b then p else q) := by
  have hstep : ∀ s, (check t >>= fun b => if b then p else q) s = if s.cur.type = t then p s else q s := by
    intro s
    change (if (s.cur.type == t) = true then p else q) s = _
    by_cases ht : s.cur.type = t
    · rw [if_pos ht, if_pos (beq_iff_eq.mpr ht)]
    · rw [if_neg ht, if_neg (mt beq_iff_eq.mp ht)]
  constructor
  · intro s hs hp a s' hok
    rw [hstep] at hok
    split at hok
    · next ht => exact (h.progress s hs ⟨hp, ht⟩ a s' hok).mono (Nat.min_le_left _ _)
    · next ht => exact (h'.progress s hs ⟨hp, ht⟩ a s' hok).mono (Nat.min_le_right _ _)
  · intro s hs hp hbudget
    rw [hstep]
    split
    · next ht => exact h.ends s hs ⟨hp, ht⟩ (by omega)
    · next ht => exact h'.ends s hs ⟨hp, ht⟩ (by omega)

/-- `advance` never moves back. -/
theorem consumes_advance : Consumes n 0 0 P advance where
  progress s _ _ a s' hok := by
    obtain ⟨cur, rest⟩ := s
    cases rest with
    | nil => cases hok; exact .refl _
    | cons t rest => cases hok; exact ⟨1, by omega, rfl⟩
  ends s _ _ _ := by
    obtain ⟨cur, rest⟩ := s
    cases rest <;> exact nofun

/-- `advance` moves on from every token but the end of the file. -/
theorem consumes_advance_of_ne (hpre : ∀ s, P s → s.cur.type ≠ .endOfFile) : Consumes n 0 1 P advance where
  progress s hs hp a s' hok := by
    obtain ⟨cur, rest⟩ := s
    cases rest with
    | nil => exact absurd rfl (hs.rest_ne_nil (hpre _ hp))
    | cons t rest => cases hok; exact ⟨1, by omega, rfl⟩
  ends := consumes_advance.ends

/-- Matching a type consumes at most the token. -/
theorem consumes_matchType (t : TokenType) : Consumes n 0 0 P (matchType t) :=
  consumes_check (consumes_advance.bind fun _ => consumes_pure true) (consumes_pure false)

/-- What is expected is consumed. -/
theorem consumes_expect {t : TokenType} (ht : t ≠ .endOfFile) (what : Bytes) : Consumes n 0 1 P (expect t what) :=
  consumes_check (consumes_advance_of_ne fun s hs => by rw [hs.2]; exact ht)
    (consumes_peek fun _ => consumes_fail (d := 1) _ _)

end Rules

/-- What every function of the descent consumes, and the budget that it needs. -/
structure Descends (n : ℕ) : Prop where
  or : Consumes n 8 1 Anywhere (parseOr n)
  and : Consumes n 7 1 Anywhere (parseAnd n)
  equality : Consumes n 6 1 Anywhere (parseEquality n)
  comparison : Consumes n 5 1 Anywhere (parseComparison n)
  additive : Consumes n 4 1 Anywhere (parseAdditive n)
  binaryLoop : ∀ level e, Consumes n 1 0 Anywhere (binaryLoop n level e)
  unary : Consumes n 3 1 Anywhere (parseUnary n)
  postfixExpr : Consumes n 2 1 Anywhere (parsePostfix n)
  postfixLoop : ∀ e, Consumes n 2 0 Anywhere (postfixLoop n e)
  primary : Consumes n 1 1 Anywhere (parsePrimary n)
  expression : Consumes n 9 1 Anywhere (parseExpression n)
  callArgs : Consumes n 1 1 Anywhere (parseCallArgs n)
  callArgsLoop : ∀ args, Consumes n 10 0 Anywhere (callArgsLoop n args)
  block : Consumes n 1 1 Anywhere (parseBlock n)
  blockLoop : ∀ stmts, Consumes n 11 0 Anywhere (blockLoop n stmts)
  statement : Consumes n 10 1 Anywhere (parseStatement n)
  ifStatement : Consumes n 1 1 (fun s => s.cur.type = .ifKw) (parseIf n)
  returnStatement : Consumes n 1 1 (fun s => s.cur.type = .returnKw) (parseReturn n)

namespace Descends

variable {n : ℕ}

/-- Without a budget nothing is promised. -/
theorem zero : Descends 0 where
  or := consumes_diverges (by omega)
  and := consumes_diverges (by omega)
  equality := consumes_diverges (by omega)
  comparison := consumes_diverges (by omega)
  additive := consumes_diverges (by omega)
  binaryLoop _ _ := consumes_diverges (by omega)
  unary := consumes_diverges (by omega)
  postfixExpr := consumes_diverges (by omega)
  postfixLoop _ := consumes_diverges (by omega)
  primary := consumes_diverges (by omega)
  expression := consumes_diverges (by omega)
  callArgs := consumes_diverges (by omega)
  callArgsLoop _ := consumes_diverges (by omega)
  block := consumes_diverges (by omega)
  blockLoop _ := consumes_diverges (by omega)
  statement := consumes_diverges (by omega)
  ifStatement := consumes_diverges (by omega)
  returnStatement := consumes_diverges (by omega)

/-- The end of the file is no operator. -/
theorem operator_endOfFile (level : BinLevel) : level.operator .endOfFile = none := by
  cases level <;> rfl

/-- One turn of a binary loop. -/
theorem binaryLoop_succ (h : Descends n) (level : BinLevel) (e : Expr) :
    Consumes (n + 1) 1 0 Anywhere (Ztl.binaryLoop (n + 1) level e) := by
  rw [Ztl.binaryLoop]
  refine Consumes.call (r := 0) (d := 0) ?_ (by omega) (by omega)
  apply consumes_peek
  intro t
  cases hop : level.operator t.type with
  | none => exact consumes_pure e
  | some op =>
    have hoperator : ∀ s : TokenStream, Anywhere s ∧ s.cur = t → s.cur.type ≠ .endOfFile := by
      intro s hs hend
      rw [← hs.2, hend, operator_endOfFile] at hop
      cases hop
    have hoperand : ∀ {p : Parser Expr} {r : ℕ} (t : Token), Consumes n r 1 Anywhere p → r ≤ 20 →
        Consumes n 20 0 Anywhere (p >>= fun rhs => Ztl.binaryLoop n level (.binary t.pos op e rhs)) := by
      intro p r t hp hr
      exact (hp.bind fun rhs => h.binaryLoop level (.binary t.pos op e rhs)).mono (by omega) (by omega)
    apply Consumes.mono (r := max 0 (20 - 20 * 1)) (d := 1 + 0) _ (by omega) (by omega)
    apply (consumes_advance_of_ne hoperator).bind
    intro t
    cases level with
    | or => exact hoperand t h.and (by omega)
    | and => exact hoperand t h.equality (by omega)
    | equality => exact hoperand t h.comparison (by omega)
    | comparison => exact hoperand t h.additive (by omega)
    | additive => exact hoperand t h.unary (by omega)

/-- A unary expression consumes a token. -/
theorem unary_succ (h : Descends n) : Consumes (n + 1) 3 1 Anywhere (parseUnary (n + 1)) := by
  have hop : ∀ (op : UnOp) {t : TokenType} {P : TokenStream → Prop}, t ≠ .endOfFile → Consumes n 0 1
      (fun s => P s ∧ s.cur.type = t)
      (advance >>= fun t => parseUnary n >>= fun operand => pure (Expr.unary t.pos op operand)) := by
    intro op t P ht
    have hfirst : Consumes n 0 1 (fun s => P s ∧ s.cur.type = t) advance :=
      consumes_advance_of_ne fun s hs => by rw [hs.2]; exact ht
    exact (hfirst.bind fun t => h.unary.bind fun operand => consumes_pure _).mono (by omega) (by omega)
  rw [parseUnary]
  exact (consumes_check (hop .not (by nofun)) (consumes_check (hop .neg (by nofun)) h.postfixExpr.anywhere)).call
    (by omega) (by omega)

/-- One turn of the postfix loop. -/
theorem postfixLoop_succ (h : Descends n) (e : Expr) :
    Consumes (n + 1) 2 0 Anywhere (Ztl.postfixLoop (n + 1) e) := by
  have hblock : ∀ (P : TokenStream → Prop) (pos : Pos) (args : List CallArg), Consumes n 1 1 P
      (parseBlock n >>= fun block => Ztl.postfixLoop n (.call pos e args (some block))) :=
    fun P pos args => (h.block.bind fun block => h.postfixLoop _).anywhere.mono (by omega) (by omega)
  rw [Ztl.postfixLoop]
  refine (consumes_check ?_ (consumes_check ?_ (consumes_check ?_ (consumes_pure e)))).call
    (r := max 0 (max 1 (max 1 0))) (d := min 1 (min 1 (min 1 0))) (by omega) (by omega)
  · exact ((consumes_advance_of_ne fun s hs => by rw [hs.2]; nofun).bind fun dot =>
      (consumes_expect (by nofun) _).bind fun name => h.postfixLoop _).mono (by omega) (by omega)
  · apply consumes_peek
    intro t
    exact (h.callArgs.anywhere.bind fun args => consumes_check (hblock _ t.pos args)
      (h.postfixLoop (.call t.pos e args none)).anywhere).mono (by omega) (by omega)
  · exact consumes_peek fun t => hblock _ t.pos []

/-- A primary expression consumes a token. -/
theorem primary_succ (h : Descends n) : Consumes (n + 1) 1 1 Anywhere (parsePrimary (n + 1)) := by
  rw [parsePrimary]
  apply Consumes.call (r := 0) (d := 1) _ (by omega) (by omega)
  apply consumes_peek
  intro t
  obtain ⟨type, text, pos⟩ := t
  have hadvance : type ≠ .endOfFile →
      Consumes n 0 1 (fun s => Anywhere s ∧ s.cur = ⟨type, text, pos⟩) advance :=
    fun htype => consumes_advance_of_ne fun s hs => by rw [hs.2]; exact htype
  have hleaf : type ≠ .endOfFile → ∀ e : Expr,
      Consumes n 0 1 (fun s => Anywhere s ∧ s.cur = ⟨type, text, pos⟩) (advance >>= fun _ => pure e) :=
    fun htype e => (hadvance htype).bind fun _ => consumes_pure e
  cases type
  case number =>
    exact ((hadvance (by nofun)).bind fun _ => (consumes_pure _).ite (consumes_outOfRange (d := 0))).mono
      (by omega) (by omega)
  case string => exact hleaf (by nofun) _
  case trueKw => exact hleaf (by nofun) _
  case falseKw => exact hleaf (by nofun) _
  case nullKw => exact hleaf (by nofun) _
  case ident =>
    have hscope : ∀ P : TokenStream → Prop, Consumes n 0 0 P (advance >>= fun _ =>
        expect .ident (str "name after '::'") >>= fun name => pure (Expr.scoped pos text name.text)) :=
      fun P => (consumes_advance.bind fun _ => (consumes_expect (by nofun) _).bind fun name => consumes_pure _).mono
        (by omega) (by omega)
    exact ((hadvance (by nofun)).bind fun _ => consumes_check (hscope _) (consumes_pure _)).mono (by omega) (by omega)
  case lparen =>
    exact ((hadvance (by nofun)).bind fun _ => h.expression.bind fun e => (consumes_expect (by nofun) _).bind fun _ =>
      consumes_pure e).mono (by omega) (by omega)
  all_goals exact consumes_fail _ _

/-- Call arguments consume a token. -/
theorem callArgs_succ (h : Descends n) : Consumes (n + 1) 1 1 Anywhere (parseCallArgs (n + 1)) := by
  rw [parseCallArgs]
  exact ((consumes_expect (by nofun) _).bind fun _ => (h.callArgsLoop []).bind fun args =>
    (consumes_expect (by nofun) _).bind fun _ => consumes_pure args).call (by omega) (by omega)

/-- One turn of the argument loop. -/
theorem callArgsLoop_succ (h : Descends n) (args : List CallArg) :
    Consumes (n + 1) 10 0 Anywhere (Ztl.callArgsLoop (n + 1) args) := by
  have hvalue : ∀ name : Bytes, Consumes n 9 0 Anywhere
      (parseExpression n >>= fun value => matchType .comma >>= fun b : Bool =>
        if b then Ztl.callArgsLoop n (args ++ [.mk name value]) else pure (args ++ [.mk name value])) := by
    intro name
    exact (h.expression.bind fun value => (consumes_matchType .comma).bind fun b =>
      (h.callArgsLoop _).ite (consumes_pure _)).mono (by omega) (by omega)
  rw [Ztl.callArgsLoop]
  apply Consumes.call (r := max 0 9) (d := min 0 0) _ (by omega) (by omega)
  apply consumes_peek
  intro t
  apply (consumes_pure args).ite
  apply consumes_peekNext
  intro next
  have hnamed : Consumes n 9 0 Anywhere (advance >>= fun id => advance >>= fun _ =>
      (pure id.text : Parser Bytes) >>= fun name => parseExpression n >>= fun value =>
      matchType .comma >>= fun b : Bool =>
        if b then Ztl.callArgsLoop n (args ++ [.mk name value]) else pure (args ++ [.mk name value])) :=
    (consumes_advance.bind fun id => consumes_advance.bind fun _ => (consumes_pure id.text).bind hvalue).mono
      (by omega) (by omega)
  have hplain : Consumes n 9 0 Anywhere ((pure [] : Parser Bytes) >>= fun name => parseExpression n >>= fun value =>
      matchType .comma >>= fun b : Bool =>
        if b then Ztl.callArgsLoop n (args ++ [.mk name value]) else pure (args ++ [.mk name value])) :=
    ((consumes_pure []).bind hvalue).mono (by omega) (by omega)
  exact (hnamed.anywhere.ite hplain.anywhere).mono (by omega) (by omega)

/-- A block consumes a token. -/
theorem block_succ (h : Descends n) : Consumes (n + 1) 1 1 Anywhere (parseBlock (n + 1)) := by
  rw [parseBlock]
  exact ((consumes_expect (by nofun) _).bind fun _ => (h.blockLoop []).bind fun stmts =>
    (consumes_expect (by nofun) _).bind fun _ => consumes_pure stmts).call (by omega) (by omega)

/-- One turn of the block loop. -/
theorem blockLoop_succ (h : Descends n) (stmts : List Stmt) :
    Consumes (n + 1) 11 0 Anywhere (Ztl.blockLoop (n + 1) stmts) := by
  rw [Ztl.blockLoop]
  apply Consumes.call (r := max 0 (max 10 (11 - 20 * 1))) (d := min 0 (1 + 0)) _ (by omega) (by omega)
  apply consumes_peek
  intro t
  exact (consumes_pure stmts).ite (h.statement.bind fun stmt => h.blockLoop _).anywhere

/-- An include consumes its keyword. -/
theorem consumes_parseInclude : Consumes n 0 1 (fun s => s.cur.type = .includeKw) parseInclude :=
  ((consumes_advance_of_ne fun s hs => by rw [hs]; nofun).bind fun kw => (consumes_expect (by nofun) _).bind fun _ =>
    (consumes_expect (by nofun) _).bind fun name => (consumes_expect (by nofun) _).bind fun _ =>
      (consumes_matchType _).bind fun _ => consumes_pure _).mono (by omega) (by omega)

/-- An `if` consumes its keyword. -/
theorem ifStatement_succ (h : Descends n) :
    Consumes (n + 1) 1 1 (fun s => s.cur.type = .ifKw) (parseIf (n + 1)) := by
  rw [parseIf]
  have helse : ∀ (pos : Pos) (condition : Expr) (thenBranch : List Stmt), Consumes n 1 0 Anywhere
      (check .ifKw >>= fun b : Bool => if b then parseIf n >>= fun nested =>
          pure (Stmt.ifThen pos condition thenBranch [nested])
        else parseBlock n >>= fun elseBranch => pure (Stmt.ifThen pos condition thenBranch elseBranch)) := by
    intro pos condition thenBranch
    have hnested := (h.ifStatement.bind fun nested => consumes_pure (P := Anywhere)
      (Stmt.ifThen pos condition thenBranch [nested]))
    exact (consumes_check (hnested.under fun s hs => hs.2)
      (h.block.bind fun elseBranch => consumes_pure _).anywhere).mono (by omega) (by omega)
  exact ((consumes_advance_of_ne fun s hs => by rw [hs]; nofun).bind fun kw =>
    (consumes_expect (by nofun) _).bind fun _ => h.expression.bind fun condition =>
    (consumes_expect (by nofun) _).bind fun _ => h.block.bind fun thenBranch =>
      (consumes_matchType _).bind fun b => (helse kw.pos condition thenBranch).ite (consumes_pure _)).call
    (by omega) (by omega)

/-- A `return` consumes its keyword. -/
theorem returnStatement_succ (h : Descends n) :
    Consumes (n + 1) 1 1 (fun s => s.cur.type = .returnKw) (parseReturn (n + 1)) := by
  rw [parseReturn]
  apply Consumes.call (r := max 0 (9 - 20 * 1)) (d := 1 + 0) _ (by omega) (by omega)
  apply (consumes_advance_of_ne fun s hs => by rw [hs]; nofun).bind
  intro kw
  apply consumes_peek
  intro t
  have hend : ∀ value : Option Expr, Consumes n 0 0 Anywhere
      (matchType .semicolon >>= fun _ => pure (Stmt.ret kw.pos value)) :=
    fun value => (consumes_matchType _).bind fun _ => consumes_pure _
  have hnone : Consumes n 0 0 Anywhere ((pure none : Parser (Option Expr)) >>= fun value =>
      matchType .semicolon >>= fun _ => pure (Stmt.ret kw.pos value)) := (consumes_pure none).bind hend
  have hsome : Consumes n 9 0 Anywhere (parseExpression n >>= fun e => (pure (some e) : Parser (Option Expr)) >>=
      fun value => matchType .semicolon >>= fun _ => pure (Stmt.ret kw.pos value)) :=
    (h.expression.bind fun e => (consumes_pure (some e)).bind hend).mono (by omega) (by omega)
  exact (hnone.anywhere.ite hsome.anywhere).mono (by omega) (by omega)

/-- A statement consumes a token. -/
theorem statement_succ (h : Descends n) : Consumes (n + 1) 10 1 Anywhere (parseStatement (n + 1)) := by
  rw [parseStatement]
  apply Consumes.call (r := 9) (d := 1) _ (by omega) (by omega)
  apply consumes_peek
  intro t
  apply consumes_peekNext
  intro next
  obtain ⟨type, text, pos⟩ := t
  have hexpr : Consumes n 9 1 (fun s => Anywhere s ∧ s.cur = ⟨type, text, pos⟩)
      (parseExpression n >>= fun e => matchType .semicolon >>= fun _ => pure (Stmt.expr pos e)) :=
    (h.expression.bind fun e => (consumes_matchType _).bind fun _ => consumes_pure _).anywhere.mono
      (by omega) (by omega)
  have hassign : Consumes n 9 1 (fun s => Anywhere s ∧ s.cur = ⟨type, text, pos⟩)
      (advance >>= fun id => advance >>= fun _ => parseExpression n >>= fun value =>
        matchType .semicolon >>= fun _ => pure (Stmt.assign id.pos id.text value)) :=
    (consumes_advance.bind fun id => consumes_advance.bind fun _ => h.expression.bind fun value =>
      (consumes_matchType _).bind fun _ => consumes_pure _).mono (by omega) (by omega)
  cases type
  case includeKw => exact (consumes_parseInclude.under fun s hs => by rw [hs.2]).mono (by omega) (by omega)
  case ifKw => exact (h.ifStatement.under fun s hs => by rw [hs.2]).mono (by omega) (by omega)
  case returnKw => exact (h.returnStatement.under fun s hs => by rw [hs.2]).mono (by omega) (by omega)
  all_goals exact (hassign.ite hexpr).mono (by omega) (by omega)

/-- A level consumes what its first operand consumes. -/
theorem level (h : Descends n) {r : ℕ} {p : Parser Expr} (hp : Consumes n r 1 Anywhere p) (l : BinLevel) :
    Consumes (n + 1) (r + 1) 1 Anywhere (p >>= fun lhs => Ztl.binaryLoop n l lhs) :=
  (hp.bind fun lhs => h.binaryLoop l lhs).call (by omega) (by omega)

/-- With one more unit of budget every function consumes as much. -/
theorem succ (h : Descends n) : Descends (n + 1) where
  or := by rw [parseOr]; exact h.level h.and .or
  and := by rw [parseAnd]; exact h.level h.equality .and
  equality := by rw [parseEquality]; exact h.level h.comparison .equality
  comparison := by rw [parseComparison]; exact h.level h.additive .comparison
  additive := by rw [parseAdditive]; exact h.level h.unary .additive
  binaryLoop := h.binaryLoop_succ
  unary := h.unary_succ
  postfixExpr := by rw [parsePostfix]; exact (h.primary.bind h.postfixLoop).call (by omega) (by omega)
  postfixLoop := h.postfixLoop_succ
  primary := h.primary_succ
  expression := by rw [parseExpression]; exact h.or.call (by omega) (by omega)
  callArgs := h.callArgs_succ
  callArgsLoop := h.callArgsLoop_succ
  block := h.block_succ
  blockLoop := h.blockLoop_succ
  statement := h.statement_succ
  ifStatement := h.ifStatement_succ
  returnStatement := h.returnStatement_succ

end Descends

/-- The whole descent consumes as promised, by induction on the budget. -/
theorem descends (n : ℕ) : Descends n := by
  induction n with
  | zero => exact .zero
  | succ n ih => exact ih.succ

/-- The loop of `parse_program`; every statement pays for the next iteration. -/
theorem consumes_programLoop (n : ℕ) (stmts : List Stmt) : Consumes n 11 0 Anywhere (programLoop n stmts) := by
  induction n generalizing stmts with
  | zero => exact consumes_diverges (by omega)
  | succ n ih =>
    rw [programLoop]
    exact (consumes_check (consumes_pure _) ((descends n).statement.bind fun stmt => ih _).anywhere).call
      (by omega) (by omega)

/-- A use of the token vector. -/
inductive TokenAccess
  | peek (offset : ℕ)
  | advance

/-- The token that is delivered, and `pos_` afterwards; `none` is an access out of range. -/
def accessToken (tokens : List Token) (pos : ℕ) : TokenAccess → Option (Token × ℕ)
  | .peek offset =>
    (if pos + offset ≥ tokens.length then tokens.getLast? else tokens[pos + offset]?).map fun t => (t, pos)
  | .advance => tokens[pos]?.map fun t => (t, if pos + 1 < tokens.length then pos + 1 else pos)

/-- Accesses in turn, each from where the one before it has left `pos_`. -/
def accessTokens (tokens : List Token) : ℕ → List TokenAccess → Option ℕ
  | pos, [] => some pos
  | pos, access :: accesses => do
    let (_, pos) ← accessToken tokens pos access
    accessTokens tokens pos accesses

/-- An access at a position inside the vector reads a token and stays inside. -/
theorem accessToken_in_range {tokens : List Token} {pos : ℕ} (hpos : pos < tokens.length) (access : TokenAccess) :
    ∃ t pos', accessToken tokens pos access = some (t, pos') ∧ pos' < tokens.length := by
  cases access with
  | peek offset =>
    rw [accessToken]
    by_cases hbehind : pos + offset ≥ tokens.length
    · have hne : tokens ≠ [] := List.ne_nil_of_length_pos (by omega)
      rw [if_pos hbehind, List.getLast?_eq_some_getLast hne]
      exact ⟨_, pos, rfl, hpos⟩
    · rw [if_neg hbehind, List.getElem?_eq_getElem (by omega)]
      exact ⟨_, pos, rfl, hpos⟩
  | advance =>
    refine ⟨tokens[pos], _, by rw [accessToken, List.getElem?_eq_getElem hpos]; rfl, ?_⟩
    split <;> omega

/-- No sequence of accesses leaves the vector. -/
theorem accessTokens_in_range {tokens : List Token} {pos : ℕ} (hpos : pos < tokens.length)
    (accesses : List TokenAccess) : (accessTokens tokens pos accesses).isSome := by
  induction accesses generalizing pos with
  | nil => rfl
  | cons access accesses ih =>
    obtain ⟨t, pos', haccess, hpos'⟩ := accessToken_in_range hpos access
    rw [accessTokens, haccess]
    exact ih hpos'

section Vector

variable {tokens : List Token} {pos : ℕ} {s : TokenStream}

/-- The token at the position is the current one. -/
theorem getElem?_of_drop (hs : tokens.drop pos = s.tokens) : tokens[pos]? = some s.cur := by
  rw [← List.head?_drop, hs]
  rfl

/-- The length of the vector is the position and what is left. -/
theorem length_of_drop (hs : tokens.drop pos = s.tokens) : tokens.length = pos + s.rest.length + 1 := by
  have hlength := congrArg List.length hs
  simp only [TokenStream.tokens, List.length_drop, List.length_cons] at hlength
  omega

/-- On the stream `peek()` and `peek(1)` deliver what they deliver on the vector. -/
theorem accessToken_peek (hs : tokens.drop pos = s.tokens) :
    accessToken tokens pos (.peek 0) = some (s.cur, pos) ∧
      accessToken tokens pos (.peek 1) = some (s.rest.headD s.cur, pos) := by
  have hlength := length_of_drop hs
  constructor
  · rw [accessToken, if_neg (by omega), Nat.add_zero, getElem?_of_drop hs]
    rfl
  · have hnext : tokens.drop (pos + 1) = s.rest := by
      rw [← List.drop_drop, hs]
      rfl
    obtain ⟨cur, rest⟩ := s
    cases rest with
    | nil =>
      have hlast : tokens.getLast? = some cur := by
        rw [List.getLast?_eq_getElem?, hlength]
        exact getElem?_of_drop hs
      dsimp only [List.length_nil] at hlength
      rw [accessToken, if_pos (by omega), hlast]
      rfl
    | cons t rest =>
      dsimp only [List.length_cons] at hlength
      rw [accessToken, if_neg (by omega), ← List.head?_drop, hnext]
      rfl

/-- On the stream `advance` does what it does on the vector. -/
theorem accessToken_advance (hs : tokens.drop pos = s.tokens) :
    ∃ s' pos', advance s = .ok (s.cur, s') ∧ accessToken tokens pos .advance = some (s.cur, pos') ∧
      tokens.drop pos' = s'.tokens := by
  have hlength := length_of_drop hs
  obtain ⟨cur, rest⟩ := s
  cases rest with
  | nil =>
    dsimp only [List.length_nil] at hlength
    refine ⟨_, pos, rfl, ?_, hs⟩
    rw [accessToken, getElem?_of_drop hs, Option.map_some, if_neg (by omega)]
  | cons t rest =>
    dsimp only [List.length_cons] at hlength
    refine ⟨_, pos + 1, rfl, ?_, ?_⟩
    · rw [accessToken, getElem?_of_drop hs, Option.map_some, if_pos (by omega)]
    · rw [← List.drop_drop, hs]
      rfl

end Vector

/-- Entered where `pre` holds, a parser that returns has moved `pos_` on, inside the vector. -/
def MovesOn {α : Type} (tokens : List Token) (pre : TokenStream → Prop) (p : Parser α) : Prop :=
  ∀ pos s a s', tokens.drop pos = s.tokens → pre s → p s = .ok (a, s') →
    ∃ pos', pos < pos' ∧ pos' < tokens.length ∧ tokens.drop pos' = s'.tokens

/-- A parser that consumes a token moves the position on, inside the vector. -/
theorem Consumes.movesOn {α : Type} {n r : ℕ} {pre : TokenStream → Prop} {p : Parser α} (h : Consumes n r 1 pre p)
    {tokens : List Token} (hends : EndsOnce tokens) : MovesOn tokens pre p := by
  intro pos s a s' hs hpre hok
  have hlength := length_of_drop hs
  have hends' : EndsOnce s.tokens := by
    rw [← hs]
    exact hends.drop (by omega)
  obtain ⟨k, hk, hdrop⟩ := h.progress s hends' hpre a s' hok
  have hdrop' : tokens.drop (pos + k) = s'.tokens := by rw [← List.drop_drop, hs, hdrop]
  refine ⟨pos + k, by omega, ?_, hdrop'⟩
  have hlength' := length_of_drop hdrop'
  omega

/-- What the parser does on a token vector: it ends with a program or an exception, no access is out of
range, its streams are what the vector holds from `pos_` on, and its functions move `pos_`. -/
structure ParsingEnds (cur : Token) (rest : List Token) : Prop where
  ends : parseProgram cur rest ≠ .error .diverges
  inRange : ∀ accesses, (accessTokens (cur :: rest) 0 accesses).isSome
  looks : ∀ (pos : ℕ) (s : TokenStream), (cur :: rest).drop pos = s.tokens →
    accessToken (cur :: rest) pos (.peek 0) = some (s.cur, pos) ∧
      accessToken (cur :: rest) pos (.peek 1) = some (s.rest.headD s.cur, pos)
  advances : ∀ (pos : ℕ) (s : TokenStream), (cur :: rest).drop pos = s.tokens →
    ∃ s' pos', advance s = .ok (s.cur, s') ∧ accessToken (cur :: rest) pos .advance = some (s.cur, pos') ∧
      (cur :: rest).drop pos' = s'.tokens
  expressions : ∀ n, ∀ p ∈ [parseOr n, parseAnd n, parseEquality n, parseComparison n, parseAdditive n,
    parseUnary n, parsePostfix n, parsePrimary n, parseExpression n], MovesOn (cur :: rest) Anywhere p
  statement : ∀ n, MovesOn (cur :: rest) Anywhere (parseStatement n)
  includeStatement : MovesOn (cur :: rest) (fun s => s.cur.type = .includeKw) parseInclude
  ifStatement : ∀ n, MovesOn (cur :: rest) (fun s => s.cur.type = .ifKw) (parseIf n)
  returnStatement : ∀ n, MovesOn (cur :: rest) (fun s => s.cur.type = .returnKw) (parseReturn n)
  block : ∀ n, MovesOn (cur :: rest) Anywhere (parseBlock n)
  callArgs : ∀ n, MovesOn (cur :: rest) Anywhere (parseCallArgs n)

/-- Parsing always ends and never runs off the tokens. -/
theorem parsing_ends {cur : Token} {rest : List Token} (hends : EndsOnce (cur :: rest)) : ParsingEnds cur rest where
  ends := by
    have hloop := (consumes_programLoop (20 * (rest.length + 2)) []).ends ⟨cur, rest⟩ hends trivial
    unfold parseProgram
    intro hdiverges
    cases hresult : programLoop (20 * (rest.length + 2)) [] ⟨cur, rest⟩ with
    | ok r =>
      rw [hresult] at hdiverges
      cases hdiverges
    | error e =>
      rw [hresult] at hdiverges
      cases hdiverges
      exact hloop (by dsimp only; omega) hresult
  inRange := accessTokens_in_range (by simp)
  looks _ _ := accessToken_peek
  advances _ _ := accessToken_advance
  expressions := by
    intro n p hp
    have h := descends n
    simp only [List.mem_cons, List.not_mem_nil, or_false] at hp
    rcases hp with rfl | rfl | rfl | rfl | rfl | rfl | rfl | rfl | rfl
    · exact h.or.movesOn hends
    · exact h.and.movesOn hends
    · exact h.equality.movesOn hends
    · exact h.comparison.movesOn hends
    · exact h.additive.movesOn hends
    · exact h.unary.movesOn hends
    · exact h.postfixExpr.movesOn hends
    · exact h.primary.movesOn hends
    · exact h.expression.movesOn hends
  statement n := (descends n).statement.movesOn hends
  includeStatement := (Descends.consumes_parseInclude (n := 0)).movesOn hends
  ifStatement n := (descends n).ifStatement.movesOn hends
  returnStatement n := (descends n).returnStatement.movesOn hends
  block n := (descends n).block.movesOn hends
  callArgs n := (descends n).callArgs.movesOn hends

/-- Parsing an unclosed call ends. -/
theorem parsing_ends_unbalanced :
    ParsingEnds ⟨.ident, str "f", {}⟩ [⟨.lparen, str "(", {}⟩, ⟨.endOfFile, [], {}⟩] :=
  parsing_ends
    ⟨[⟨.ident, str "f", {}⟩, ⟨.lparen, str "(", {}⟩], ⟨.endOfFile, [], {}⟩, rfl, rfl, by decide⟩

end ZeroTrust.Ztl
