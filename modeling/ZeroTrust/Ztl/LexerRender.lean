import ZeroTrust.Ztl.Lexer

/-!
# The lexer inverts rendering

A token list is rendered by writing each token in one of its source forms and separating
tokens by white space and comments. Every gap starts with a character that continues no
token, so each scanner stops exactly behind the form it reads.
-/

namespace ZeroTrust.Ztl

/-- The digit for `n` in either case. -/
def HexDigit (n : ℕ) (c : Byte) : Prop :=
  (str "0123456789abcdef")[n]? = some c ∨ (str "0123456789ABCDEF")[n]? = some c

/-- The escapes with a meaning of their own. -/
def namedEscapes : List (Byte × Byte) :=
  [(110, 10), (116, 9), (114, 13), (92, 92), (34, 34), (48, 0)]

/-- The ways to write one byte inside quotes. -/
inductive EscapedByte : Byte → Bytes → Prop
  | plain {b : Byte} (hquote : b ≠ 34) (hbackslash : b ≠ 92) : EscapedByte b [b]
  | named {letter b : Byte} (h : (letter, b) ∈ namedEscapes) : EscapedByte b [92, letter]
  | literal {b : Byte} (h : b ∉ namedEscapes.map Prod.fst) (hx : b ≠ 120) : EscapedByte b [92, b]
  | hex {b h l : Byte} {m n : ℕ} (hb : b.toNat = 16 * m + n) (hh : HexDigit m h) (hl : HexDigit n l) :
      EscapedByte b [92, 120, h, l]

/-- The ways to write a text inside quotes. -/
inductive EscapedString : Bytes → Bytes → Prop
  | nil : EscapedString [] []
  | cons {b : Byte} {s form src : Bytes} (hb : EscapedByte b form) (h : EscapedString s src) :
      EscapedString (b :: s) (form ++ src)

/-- A non-empty run of digits. -/
def IsDigits (s : Bytes) : Prop := s ≠ [] ∧ ∀ c ∈ s, isDigit c

/-- `digits[.digits]`. -/
def IsNumber (s : Bytes) : Prop :=
  ∃ whole, IsDigits whole ∧ (s = whole ∨ ∃ fraction, IsDigits fraction ∧ s = whole ++ 46 :: fraction)

/-- A letter or underscore, then letters, digits and underscores. -/
def IsIdentifier (s : Bytes) : Prop :=
  ∃ c rest, s = c :: rest ∧ (isAlpha c ∨ c = 95) ∧ ∀ d ∈ rest, isIdentByte d

/-- Punctuation and operators with their spellings. -/
def punctuation : List (Bytes × TokenType) :=
  [(str "(", .lparen), (str ")", .rparen), (str "\x7b", .lbrace), (str "\x7d", .rbrace), (str "[", .lbracket),
   (str "]", .rbracket), (str ",", .comma), (str ":", .colon), (str "::", .scope), (str ".", .dot),
   (str ";", .semicolon), (str "=", .assign), (str "==", .eq), (str "!=", .neq), (str "<", .lt),
   (str ">", .gt), (str "<=", .lte), (str ">=", .gte), (str "!", .bang), (str "&&", .and),
   (str "||", .or), (str "+", .plus), (str "-", .minus)]

/-- The lexically valid tokens and their source forms. -/
inductive TokenForm : Lexeme → Bytes → Prop
  | ident {s : Bytes} (h : IsIdentifier s) (hkeyword : s ∉ keywords.map Prod.fst) :
      TokenForm (.ident, s) s
  | keyword {s : Bytes} {type : TokenType} (h : (s, type) ∈ keywords) : TokenForm (type, s) s
  | number {s : Bytes} (h : IsNumber s) : TokenForm (.number, s) s
  | string {s src : Bytes} (h : EscapedString s src) : TokenForm (.string, s) (34 :: src ++ [34])
  | punctuation {s : Bytes} {type : TokenType} (h : (s, type) ∈ punctuation) : TokenForm (type, s) s

/-- White space and terminated comments. -/
inductive Trivia : Bytes → Prop
  | nil : Trivia []
  | blank {c : Byte} {gap : Bytes} (hc : c ∈ str " \t\r\n") (h : Trivia gap) : Trivia (c :: gap)
  | slashes {body gap : Bytes} (hbody : (10 : Byte) ∉ body) (h : Trivia gap) :
      Trivia (str "//" ++ body ++ 10 :: gap)
  | hash {body gap : Bytes} (hbody : (10 : Byte) ∉ body) (h : Trivia gap) :
      Trivia (str "#" ++ body ++ 10 :: gap)
  | block {body gap : Bytes} (hbody : ¬str "*/" <:+: body) (h : Trivia gap) :
      Trivia (str "/*" ++ body ++ str "*/" ++ gap)

/-- Forms in order, with a non-empty gap between any two. -/
inductive SpacedForms : List Lexeme → Bytes → Prop
  | nil : SpacedForms [] []
  | cons {x : Lexeme} {xs : List Lexeme} {form gap src : Bytes} (hx : TokenForm x form)
      (hgap : Trivia gap) (hsep : xs ≠ [] → gap ≠ []) (h : SpacedForms xs src) :
      SpacedForms (x :: xs) (form ++ (gap ++ src))

/-- A source text for a token list; it may start with a gap as well. -/
def Rendering (xs : List Lexeme) (src : Bytes) : Prop :=
  ∃ gap forms, Trivia gap ∧ SpacedForms xs forms ∧ src = gap ++ forms

/-- A run that satisfies `p` is read up to the first character that does not. -/
theorem advanceWhile_append {p : Byte → Bool} {s r : Bytes} (hs : ∀ c ∈ s, p c)
    (hr : ∀ c, r.head? = some c → p c = false) (pos : Pos) :
    advanceWhile p (s ++ r) pos = (s, ⟨r, s.foldl Pos.next pos⟩) := by
  induction s generalizing pos with
  | nil =>
    cases r with
    | nil => rfl
    | cons c r => simp [advanceWhile, hr c rfl]
  | cons c s ih =>
    rw [List.cons_append, advanceWhile, if_pos (hs c List.mem_cons_self),
      ih fun d hd => hs d (List.mem_cons_of_mem _ hd)]
    rfl

/-- A block comment ends at the first terminator. -/
theorem skipBlockComment_append {body : Bytes} (hbody : ¬str "*/" <:+: body) (r : Bytes) (pos : Pos) :
    ∃ pos', skipBlockComment (body ++ 42 :: 47 :: r) pos = ⟨r, pos'⟩ := by
  induction body generalizing pos with
  | nil => exact ⟨_, rfl⟩
  | cons c body ih =>
    have hinner : ¬str "*/" <:+: body := fun h => hbody (h.trans (List.suffix_cons c body).isInfix)
    have hnot : ¬(c = 42 ∧ (body ++ 42 :: 47 :: r).head? = some 47) := by
      rintro ⟨rfl, hhead⟩
      cases body with
      | nil => exact absurd hhead (by simp)
      | cons d body =>
        obtain rfl : d = 47 := by simpa using hhead
        exact hbody ⟨[], body, rfl⟩
    obtain ⟨pos', hpos'⟩ := ih hinner (pos.next c)
    exact ⟨pos', by rw [List.cons_append, skipBlockComment, if_neg hnot, hpos']⟩

/-- A gap is skipped. -/
theorem skipWsAndComments_trivia {gap : Bytes} (h : Trivia gap) (r : Bytes) (pos : Pos) :
    ∃ pos', skipWsAndComments.run ⟨gap ++ r, pos⟩ = skipWsAndComments.run ⟨r, pos'⟩ := by
  -- a line comment leaves its line break to the next iteration
  have hline : ∀ {body gap : Bytes}, (10 : Byte) ∉ body →
      (∀ pos, ∃ pos', skipWsAndComments.run ⟨gap ++ r, pos⟩ = skipWsAndComments.run ⟨r, pos'⟩) →
      ∀ {s pos}, s = body ++ 10 :: gap →
        skipWsAndComments.step ⟨s ++ r, pos⟩ = .inl (advanceWhile (· != 10) (s ++ r) pos).2 →
        ∃ pos', skipWsAndComments.run ⟨s ++ r, pos⟩ = skipWsAndComments.run ⟨r, pos'⟩ := by
    rintro body gap hbody ih s pos rfl hstep
    have hrun := advanceWhile_append (p := (· != 10)) (s := body) (r := 10 :: (gap ++ r))
      (fun c hc => by rw [bne_iff_ne]; exact fun heq => hbody (heq ▸ hc)) (by simp) pos
    rw [List.append_assoc, List.cons_append, hrun] at hstep
    obtain ⟨pos', hpos'⟩ := ih ((body.foldl Pos.next pos).next 10)
    refine ⟨pos', ?_⟩
    rw [List.append_assoc, List.cons_append, skipWsAndComments.run_of_continue hstep, ← hpos']
    exact skipWsAndComments.run_of_continue (by simp [skipWsAndComments, skipStep, isBlank])
  induction h generalizing pos with
  | nil => exact ⟨pos, rfl⟩
  | @blank c gap hc _ ih =>
    obtain ⟨pos', hpos'⟩ := ih (pos.next c)
    refine ⟨pos', ?_⟩
    rw [List.cons_append, ← hpos']
    refine skipWsAndComments.run_of_continue ?_
    have hblank : isBlank c = true := by
      have hall : (str " \t\r\n").all isBlank = true := by decide
      exact List.all_eq_true.mp hall c hc
    simp [skipWsAndComments, skipStep, hblank]
  | @slashes body gap hbody _ ih =>
    have hbody' : (10 : Byte) ∉ str "//" ++ body := by
      rw [List.mem_append, not_or]; exact ⟨by decide, hbody⟩
    refine hline hbody' ih rfl ?_
    have hslashes : str "//" = [47, 47] := rfl
    simp [skipWsAndComments, skipStep, hslashes, isBlank]
  | @hash body gap hbody _ ih =>
    have hbody' : (10 : Byte) ∉ str "#" ++ body := by
      rw [List.mem_append, not_or]; exact ⟨by decide, hbody⟩
    refine hline hbody' ih rfl ?_
    have hhash : str "#" = [35] := rfl
    simp [skipWsAndComments, skipStep, hhash, isBlank]
  | @block body gap hbody _ ih =>
    obtain ⟨pos₁, hpos₁⟩ := skipBlockComment_append hbody (gap ++ r) ((pos.next 47).next 42)
    obtain ⟨pos', hpos'⟩ := ih pos₁
    refine ⟨pos', ?_⟩
    rw [← hpos', ← hpos₁]
    refine skipWsAndComments.run_of_continue ?_
    have hopens : str "/*" = [47, 42] := rfl
    have hcloses : str "*/" = [42, 47] := rfl
    simp [skipWsAndComments, skipStep, hopens, hcloses, isBlank]

/-- The characters that no token starts with. -/
def gapStart : Bytes := str " \t\r\n/#"

/-- The text starts with no character that continues a token. -/
def Boundary (r : Bytes) : Prop := ∀ c, r.head? = some c → c ∈ gapStart

/-- A gap, or the end of the text, is a boundary. -/
theorem Trivia.boundary {gap r : Bytes} (h : Trivia gap) (hr : gap ≠ [] ∨ r = []) :
    Boundary (gap ++ r) := by
  intro c hc
  cases h with
  | nil =>
    rcases hr with hr | rfl
    · exact absurd rfl hr
    · cases hc
  | blank hblank =>
    obtain rfl := Option.some.inj hc
    have hall : (str " \t\r\n").all gapStart.contains = true := by decide
    exact List.contains_iff_mem.mp (List.all_eq_true.mp hall _ hblank)
  | slashes => obtain rfl := Option.some.inj hc; decide
  | hash => obtain rfl := Option.some.inj hc; decide
  | block => obtain rfl := Option.some.inj hc; decide

/-- Nothing is skipped before a token. -/
theorem skipWsAndComments_of_not_mem {c : Byte} (hc : c ∉ gapStart) (r : Bytes) (pos : Pos) :
    skipWsAndComments.run ⟨c :: r, pos⟩ = ⟨c :: r, pos⟩ := by
  refine skipWsAndComments.run_of_exit ?_
  have hstart : gapStart = [32, 9, 13, 10, 47, 35] := rfl
  simp [hstart] at hc
  obtain ⟨h₁, h₂, h₃, h₄, h₅, h₆⟩ := hc
  simp [skipWsAndComments, skipStep, isBlank, h₁, h₂, h₃, h₄, h₅, h₆]

/-- No class of characters that continues a token contains the start of a gap. -/
theorem Boundary.not_mem {r : Bytes} (h : Boundary r) {p : Byte → Bool}
    (hp : gapStart.any p = false) : ∀ c, r.head? = some c → p c = false :=
  fun c hc => Bool.eq_false_of_not_eq_true (List.any_eq_false.mp hp c (h c hc))

/-- A boundary does not start with a byte that no gap starts with. -/
theorem Boundary.head_ne {r : Bytes} (h : Boundary r) {c : Byte} (hc : c ∉ gapStart) :
    r.head? ≠ some c :=
  fun hhead => hc (h c hhead)

/-- A hexadecimal digit reads back as its value. -/
theorem hexValue_of_hexDigit {n : ℕ} {c : Byte} (h : HexDigit n c) :
    n < 16 ∧ hexValue c = some n.toUInt8 := by
  have hlength : n < 16 := by
    rcases h with h | h <;> exact (List.getElem?_eq_some_iff.mp h).1
  have hall : ∀ n < 16, ∀ c ∈ (str "0123456789abcdef")[n]?.toList ++ (str "0123456789ABCDEF")[n]?.toList,
      hexValue c = some n.toUInt8 := by decide +kernel
  refine ⟨hlength, hall n hlength c ?_⟩
  rw [List.mem_append, Option.mem_toList, Option.mem_toList]
  exact h

/-- Each way to write a byte is decoded to that byte. -/
theorem readStringBody_byte {b : Byte} {form : Bytes} (h : EscapedByte b form) (start : Pos) (r : Bytes)
    (pos : Pos) (out : Bytes) :
    ∃ pos', (readStringBody start).step (⟨form ++ r, pos⟩, out) = .inl (⟨r, pos'⟩, out ++ [b]) := by
  cases h with
  | plain hquote hbackslash => exact ⟨_, by simp [readStringBody, hquote, hbackslash]; rfl⟩
  | @named letter b h =>
    have hall : namedEscapes.all (fun e => e.1 != 120 && escapeValue e.1 == e.2) = true := by decide
    have hentry := List.all_eq_true.mp hall _ h
    rw [Bool.and_eq_true, bne_iff_ne, beq_iff_eq] at hentry
    obtain ⟨hx, hvalue⟩ := hentry
    exact ⟨_, by simp [readStringBody, readEscape, hx, hvalue]; rfl⟩
  | literal h hx =>
    have hvalue : escapeValue b = b := by
      simp only [namedEscapes, List.map_cons, List.map_nil, List.mem_cons, List.not_mem_nil, or_false,
        not_or] at h
      simp [escapeValue, h]
    exact ⟨_, by simp [readStringBody, readEscape, hx, hvalue]; rfl⟩
  | @hex b hi lo m n hb hh hl =>
    obtain ⟨hm, hhi⟩ := hexValue_of_hexDigit hh
    obtain ⟨hn, hlo⟩ := hexValue_of_hexDigit hl
    have hvalue : (m.toUInt8 <<< (4 : Byte)) ||| n.toUInt8 = b := by
      have hall : ∀ m < 16, ∀ n < 16,
          ((m.toUInt8 <<< (4 : Byte)) ||| n.toUInt8 : Byte).toNat = 16 * m + n := by decide
      exact UInt8.toNat_inj.mp ((hall m hm n hn).trans hb.symm)
    exact ⟨_, by simp [readStringBody, readEscape, hhi, hlo, hvalue]; rfl⟩

/-- A quoted text is read back up to its closing quote. -/
theorem readStringBody_run {s src : Bytes} (h : EscapedString s src) (start : Pos) (r : Bytes)
    (pos : Pos) (out : Bytes) :
    ∃ pos', (readStringBody start).run (⟨src ++ 34 :: r, pos⟩, out) = .ok (out ++ s, ⟨r, pos'⟩) := by
  induction h generalizing pos out with
  | nil =>
    refine ⟨pos.next 34, ?_⟩
    rw [List.append_nil]
    exact (readStringBody start).run_of_exit (by simp [readStringBody])
  | @cons b s form src hb _ ih =>
    obtain ⟨pos₁, hstep⟩ := readStringBody_byte hb start (src ++ 34 :: r) pos out
    obtain ⟨pos', hrun⟩ := ih pos₁ (out ++ [b])
    refine ⟨pos', ?_⟩
    rw [List.append_assoc, (readStringBody start).run_of_continue hstep, hrun]
    simp

/-- A number is read back. -/
theorem readNumber_append {s r : Bytes} (hs : IsNumber s) (hr : Boundary r) (pos : Pos) :
    ∃ pos', readNumber ⟨s ++ r, pos⟩ = (⟨.number, s, pos⟩, ⟨r, pos'⟩) := by
  have hdigit : ∀ c, r.head? = some c → isDigit c = false := hr.not_mem (by decide)
  have hdot : r.head? ≠ some 46 := hr.head_ne (by decide)
  obtain ⟨whole, ⟨-, hwhole⟩, rfl | ⟨fraction, ⟨hne, hfraction⟩, rfl⟩⟩ := hs
  · refine ⟨s.foldl Pos.next pos, ?_⟩
    unfold readNumber
    rw [advanceWhile_append hwhole hdigit]
    dsimp only
    split
    · exact absurd rfl hdot
    · rfl
  · obtain ⟨d, fraction, rfl⟩ := List.exists_cons_of_ne_nil hne
    have hd : isDigit d := hfraction d List.mem_cons_self
    have hread := advanceWhile_append hfraction hdigit ((whole.foldl Pos.next pos).next 46)
    refine ⟨(d :: fraction).foldl Pos.next ((whole.foldl Pos.next pos).next 46), ?_⟩
    unfold readNumber
    dsimp only
    rw [List.append_assoc, List.cons_append,
      advanceWhile_append hwhole (fun c hc => by obtain rfl := Option.some.inj hc; rfl)]
    rw [List.cons_append] at hread
    simp only [List.cons_append, hd, if_true, hread]

/-- An identifier or keyword is read back with the type that the table gives it. -/
theorem readIdentOrKeyword_append {s r : Bytes} (hs : ∀ c ∈ s, isIdentByte c) (hr : Boundary r)
    (pos : Pos) :
    ∃ pos', readIdentOrKeyword ⟨s ++ r, pos⟩ =
      (⟨(keywords.lookup s).getD .ident, s, pos⟩, ⟨r, pos'⟩) := by
  refine ⟨s.foldl Pos.next pos, ?_⟩
  unfold readIdentOrKeyword
  dsimp only
  rw [advanceWhile_append hs (hr.not_mem (by decide))]
  cases hlookup : keywords.lookup s <;> rfl

/-- Punctuation is read back, the longer spelling first. -/
theorem readToken_punctuation {s r : Bytes} {type : TokenType} (h : (s, type) ∈ punctuation)
    (hr : Boundary r) (pos : Pos) :
    ∃ c rest, s ++ r = c :: rest ∧ c ∉ gapStart ∧
      readToken c rest pos = .ok (⟨type, s, pos⟩, ⟨r, s.foldl Pos.next pos⟩) := by
  have hcolon : r.head? ≠ some 58 := hr.head_ne (by decide)
  have hequals : r.head? ≠ some 61 := hr.head_ne (by decide)
  simp only [punctuation, List.mem_cons, Prod.mk.injEq, List.not_mem_nil, or_false] at h
  rcases h with ⟨rfl, rfl⟩ | ⟨rfl, rfl⟩ | ⟨rfl, rfl⟩ | ⟨rfl, rfl⟩ | ⟨rfl, rfl⟩ | ⟨rfl, rfl⟩ |
    ⟨rfl, rfl⟩ | ⟨rfl, rfl⟩ | ⟨rfl, rfl⟩ | ⟨rfl, rfl⟩ | ⟨rfl, rfl⟩ | ⟨rfl, rfl⟩ | ⟨rfl, rfl⟩ |
    ⟨rfl, rfl⟩ | ⟨rfl, rfl⟩ | ⟨rfl, rfl⟩ | ⟨rfl, rfl⟩ | ⟨rfl, rfl⟩ | ⟨rfl, rfl⟩ | ⟨rfl, rfl⟩ |
    ⟨rfl, rfl⟩ | ⟨rfl, rfl⟩ | ⟨rfl, rfl⟩
  all_goals refine ⟨_, _, rfl, by decide, ?_⟩
  all_goals first
    | rfl
    | exact (if_neg hcolon).trans rfl
    | exact (if_neg hequals).trans rfl

/-- A text of identifier characters that starts with a letter or underscore is read whole. -/
theorem readToken_identifier {s r : Bytes} (hs : IsIdentifier s) (hr : Boundary r) (pos : Pos) :
    ∃ c rest pos', s ++ r = c :: rest ∧ c ∉ gapStart ∧
      readToken c rest pos = .ok (⟨(keywords.lookup s).getD .ident, s, pos⟩, ⟨r, pos'⟩) := by
  obtain ⟨c, tail, rfl, hc, htail⟩ := hs
  have hfirst : (isAlpha c || c == 95) = true := by simpa using hc
  have hident : isIdentByte c = true := by
    simp only [isIdentByte, isAlnum, Bool.or_eq_true, beq_iff_eq] at hfirst ⊢
    exact hfirst.imp_left Or.inl
  have hstart : c ∉ gapStart ∧ c ≠ 34 ∧ isDigit c = false := by
    have hall : ∀ c : Byte, (isAlpha c || c == 95) = true →
        c ∉ gapStart ∧ c ≠ 34 ∧ isDigit c = false := by
      intro c h
      refine ⟨fun hmem => ?_, fun heq => ?_, Bool.eq_false_iff.mpr fun hdigit => ?_⟩
      · have hno : ∀ c ∈ gapStart, (isAlpha c || c == 95) = false := by decide +kernel
        rw [hno c hmem] at h
        cases h
      · subst heq; exact absurd h (by decide)
      · simp only [isAlpha, isDigit, Bool.or_eq_true, Bool.and_eq_true, decide_eq_true_eq,
          beq_iff_eq, UInt8.le_iff_toNat_le, ← UInt8.toNat_inj, UInt8.reduceToNat] at h hdigit
        omega
    exact hall c hfirst
  obtain ⟨pos', hread⟩ := readIdentOrKeyword_append (s := c :: tail)
    (fun d hd => (List.mem_cons.mp hd).elim (fun h => h ▸ hident) (htail d)) hr pos
  refine ⟨c, tail ++ r, pos', rfl, hstart.1, ?_⟩
  rw [readToken, if_neg hstart.2.1, hstart.2.2, if_neg (by decide), if_pos hfirst]
  exact congrArg _ hread

/-- A keyword is an identifier and is looked up as its type. -/
theorem lookup_of_mem_keywords {s : Bytes} {type : TokenType} (h : (s, type) ∈ keywords) :
    IsIdentifier s ∧ keywords.lookup s = some type := by
  have hall : ∀ k ∈ keywords, (∀ c ∈ k.1.head?, isAlpha c) ∧ k.1 ≠ [] ∧
      (∀ c ∈ k.1.tail, isIdentByte c) ∧ keywords.lookup k.1 = some k.2 := by decide +kernel
  obtain ⟨hhead, hne, htail, hlookup⟩ := hall _ h
  dsimp only at hhead hne htail hlookup
  obtain ⟨c, rest, rfl⟩ := List.exists_cons_of_ne_nil hne
  exact ⟨⟨c, rest, rfl, Or.inl (hhead c rfl), htail⟩, hlookup⟩

/-- A name that is no keyword is looked up as none. -/
theorem lookup_of_not_mem_keywords {s : Bytes} (h : s ∉ keywords.map Prod.fst) :
    keywords.lookup s = none := by
  rw [List.lookup_eq_none_iff]
  intro k hk
  rw [bne_iff_ne]
  rintro rfl
  exact h (List.mem_map_of_mem hk)

/-- Every source form is read back as its token, up to the boundary behind it. -/
theorem readToken_form {x : Lexeme} {form r : Bytes} (h : TokenForm x form) (hr : Boundary r)
    (pos : Pos) :
    ∃ c rest pos', form ++ r = c :: rest ∧ c ∉ gapStart ∧
      readToken c rest pos = .ok (⟨x.1, x.2, pos⟩, ⟨r, pos'⟩) := by
  cases h with
  | ident hs hkeyword =>
    obtain ⟨c, rest, pos', hform, hc, hread⟩ := readToken_identifier hs hr pos
    exact ⟨c, rest, pos', hform, hc, by rw [hread, lookup_of_not_mem_keywords hkeyword]; rfl⟩
  | keyword hk =>
    obtain ⟨hs, hlookup⟩ := lookup_of_mem_keywords hk
    obtain ⟨c, rest, pos', hform, hc, hread⟩ := readToken_identifier hs hr pos
    exact ⟨c, rest, pos', hform, hc, by rw [hread, hlookup]; rfl⟩
  | number hs =>
    obtain ⟨pos', hread⟩ := readNumber_append hs hr pos
    obtain ⟨c, tail, rfl, hc⟩ : ∃ c tail, form = c :: tail ∧ isDigit c := by
      obtain ⟨whole, ⟨hne, hwhole⟩, hs⟩ := hs
      obtain ⟨c, tail, rfl⟩ := List.exists_cons_of_ne_nil hne
      have hc := hwhole c List.mem_cons_self
      rcases hs with rfl | ⟨fraction, -, rfl⟩
      · exact ⟨c, tail, rfl, hc⟩
      · exact ⟨c, _, rfl, hc⟩
    have hstart : c ∉ gapStart ∧ c ≠ 34 := by
      constructor
      · intro hmem
        have hno : gapStart.any isDigit = false := by decide
        exact List.any_eq_false.mp hno c hmem hc
      · rintro rfl
        exact absurd hc (by decide)
    refine ⟨c, tail ++ r, pos', rfl, hstart.1, ?_⟩
    rw [readToken, if_neg hstart.2, if_pos hc]
    exact congrArg _ hread
  | @string s src hs =>
    obtain ⟨pos', hrun⟩ := readStringBody_run hs pos r (pos.next 34) []
    refine ⟨34, src ++ 34 :: r, pos', by simp, by decide, ?_⟩
    rw [readToken, if_pos rfl, readString]
    simp only [List.tail_cons, hrun, List.nil_append]
  | punctuation hp =>
    obtain ⟨c, rest, hform, hc, hread⟩ := readToken_punctuation hp hr pos
    exact ⟨c, rest, _, hform, hc, hread⟩

/-- Behind any tokens, a rendered list is read back in order. -/
theorem tokenizeLoop_run {xs : List Lexeme} {src : Bytes} (h : SpacedForms xs src) {gap : Bytes}
    (hgap : Trivia gap) (pos : Pos) (tokens : List Token) :
    ∃ tokens', tokenizeLoop.run (⟨gap ++ src, pos⟩, tokens) = .ok tokens' ∧
      tokens'.map Token.lexeme = tokens.map Token.lexeme ++ xs ++ [(.endOfFile, [])] := by
  induction h generalizing gap pos tokens with
  | nil =>
    obtain ⟨pos', hskip⟩ := skipWsAndComments_trivia hgap [] pos
    have hend : skipWsAndComments.run ⟨[], pos'⟩ = ⟨[], pos'⟩ := skipWsAndComments.run_of_exit rfl
    refine ⟨tokens ++ [⟨.endOfFile, [], pos'⟩], ?_, by simp [Token.lexeme]⟩
    exact tokenizeLoop.run_of_exit (by simp only [tokenizeLoop, hskip, hend])
  | @cons x xs form gap' src hx hgap' hsep hxs ih =>
    have hr : Boundary (gap' ++ src) := by
      refine hgap'.boundary ?_
      by_cases hxs' : xs = []
      · subst hxs'
        cases hxs
        exact Or.inr rfl
      · exact Or.inl (hsep hxs')
    obtain ⟨pos₁, hskip⟩ := skipWsAndComments_trivia hgap (form ++ (gap' ++ src)) pos
    obtain ⟨c, rest, pos₂, hform, hc, hread⟩ := readToken_form hx hr pos₁
    obtain ⟨tokens', hrun, htokens⟩ := ih hgap' pos₂ (tokens ++ [⟨x.1, x.2, pos₁⟩])
    have hstep : tokenizeLoop.step (⟨gap ++ (form ++ (gap' ++ src)), pos⟩, tokens) =
        .inl (⟨gap' ++ src, pos₂⟩, tokens ++ [⟨x.1, x.2, pos₁⟩]) := by
      rw [hform, skipWsAndComments_of_not_mem hc] at hskip
      simp only [tokenizeLoop, hform, hskip, hread]
    refine ⟨tokens', ?_, ?_⟩
    · rw [tokenizeLoop.run_of_continue hstep, hrun]
    · rw [htokens]
      simp [Token.lexeme]

/-- Whatever gaps and escapes are chosen, the tokens are read back. -/
theorem tokenize_rendering {xs : List Lexeme} {src : Bytes} (h : Rendering xs src) :
    ∃ tokens, tokenize src = .ok tokens ∧
      tokens.map Token.lexeme = xs ++ [(.endOfFile, [])] := by
  obtain ⟨gap, forms, hgap, hforms, rfl⟩ := h
  obtain ⟨tokens, hrun, htokens⟩ := tokenizeLoop_run hforms hgap { line := 1, col := 1 } []
  exact ⟨tokens, hrun, by rw [htokens]; simp⟩

/-- A rendering with an escaped byte and a comment. -/
theorem rendering_sample :
    Rendering [(.ifKw, str "if"), (.string, [34, 7])] (str "if/* * */\"\\\"\\x07\"") := by
  have hif : TokenForm (.ifKw, str "if") (str "if") := .keyword (by decide)
  have hgap : Trivia (str "/*" ++ str " * " ++ str "*/" ++ []) := .block (by decide) .nil
  have hescapes : EscapedString [34, 7] ([92, 34] ++ ([92, 120, 48, 55] ++ [])) :=
    .cons (.named (by decide)) (.cons (.hex (m := 0) (n := 7) (by decide) (Or.inl (by decide))
      (Or.inl (by decide))) .nil)
  exact ⟨[], _, .nil, .cons hif hgap (fun _ => by decide)
    (.cons (.string hescapes) .nil (fun h => absurd rfl h) .nil), by decide⟩

/-- A keyword, a comment that ends at its first `*/` and a string with escapes. -/
theorem tokenize_rendering_sample :
    ∃ tokens, tokenize (str "if/* * */\"\\\"\\x07\"") = .ok tokens ∧
      tokens.map Token.lexeme = [(.ifKw, str "if"), (.string, [34, 7]), (.endOfFile, [])] :=
  tokenize_rendering rendering_sample

end ZeroTrust.Ztl
