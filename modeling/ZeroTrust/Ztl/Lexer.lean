import ZeroTrust.Lib.Loop
import ZeroTrust.Ztl.Token

/-!
# The lexer

The six scanners of `lexer.cpp` share a cursor: the unread text and its position. Scanners
that only look one or two characters ahead recurse on the unread text; the loops that call
other scanners are `Loop`s whose variant is its length.
-/

namespace ZeroTrust.Ztl

/-- The unread text and where it starts. -/
structure Cursor where
  rest : Bytes
  pos : Pos
deriving DecidableEq, Repr

/-- `LexError`. -/
structure LexError where
  msg : Bytes
  pos : Pos
deriving DecidableEq, Repr

/-- The text of a lexical error. -/
def LexError.what (e : LexError) : Bytes :=
  str "lex error at " ++ decimal e.pos.line ++ str ":" ++ decimal e.pos.col ++ str ": " ++ e.msg

/-- Advance while the next character satisfies `p`, and collect what was read. -/
def advanceWhile (p : Byte → Bool) : Bytes → Pos → Bytes × Cursor
  | [], pos => ([], ⟨[], pos⟩)
  | c :: rest, pos =>
    if p c then
      let (out, cur) := advanceWhile p rest (pos.next c)
      (c :: out, cur)
    else ([], ⟨c :: rest, pos⟩)

/-- The end of a block comment, behind its opening; an unterminated one ends with the text. -/
def skipBlockComment : Bytes → Pos → Cursor
  | [], pos => ⟨[], pos⟩
  | c :: rest, pos =>
    if c = 42 ∧ rest.head? = some 47 then ⟨rest.tail, (pos.next c).next 47⟩
    else skipBlockComment rest (pos.next c)

/-- Advancing does not add to what is left. -/
theorem length_advanceWhile_le (p : Byte → Bool) (s : Bytes) (pos : Pos) :
    (advanceWhile p s pos).2.rest.length ≤ s.length := by
  induction s generalizing pos with
  | nil => exact Nat.le_refl _
  | cons c s ih =>
    rw [advanceWhile]
    split
    · exact Nat.le_succ_of_le (ih _)
    · exact Nat.le_refl _

/-- Advancing over a byte that matches takes it. -/
theorem length_advanceWhile_lt {p : Byte → Bool} {c : Byte} (h : p c) (s : Bytes) (pos : Pos) :
    (advanceWhile p (c :: s) pos).2.rest.length < (c :: s).length := by
  rw [advanceWhile, if_pos h]
  exact Nat.lt_succ_of_le (length_advanceWhile_le p s _)

/-- Skipping a comment does not add to what is left. -/
theorem length_skipBlockComment_le (s : Bytes) (pos : Pos) :
    (skipBlockComment s pos).rest.length ≤ s.length := by
  induction s generalizing pos with
  | nil => exact Nat.le_refl _
  | cons c s ih =>
    rw [skipBlockComment]
    split
    · simp only [List.length_cons, List.length_tail]; omega
    · exact Nat.le_succ_of_le (ih _)

/-- The white space of the language. -/
def isBlank (c : Byte) : Bool := c == 32 || c == 9 || c == 13 || c == 10

/-- The body of `skip_ws_and_comments`. -/
def skipStep (cur : Cursor) : Cursor ⊕ Cursor :=
  match cur.rest with
  | [] => .inr cur
  | c :: rest =>
    if isBlank c then .inl ⟨rest, cur.pos.next c⟩
    else if c = 47 ∧ rest.head? = some 47 then .inl (advanceWhile (· != 10) (c :: rest) cur.pos).2
    else if c = 47 ∧ rest.head? = some 42 then
      .inl (skipBlockComment rest.tail ((cur.pos.next c).next 42))
    else if c = 35 then .inl (advanceWhile (· != 10) (c :: rest) cur.pos).2
    else .inr cur

/-- One step of skipping takes a byte. -/
theorem skipStep_decreases (cur s : Cursor) (h : skipStep cur = .inl s) : s.rest.length < cur.rest.length := by
  obtain ⟨_ | ⟨c, rest⟩, pos⟩ := cur
  · cases h
  · dsimp only [skipStep] at h
    split_ifs at h with h₁ h₂ h₃ h₄
    · cases h; exact Nat.lt_succ_self _
    · cases h; exact length_advanceWhile_lt (by rw [h₂.1]; rfl) _ _
    · cases h
      have hle := length_skipBlockComment_le rest.tail ((pos.next c).next 42)
      have htail := List.length_tail (l := rest)
      simp only [List.length_cons]
      omega
    · cases h; exact length_advanceWhile_lt (by rw [h₄]; rfl) _ _

/-- `skip_ws_and_comments`. -/
def skipWsAndComments : Loop Cursor Cursor where
  step := skipStep
  variant := fun cur => cur.rest.length
  decreases := skipStep_decreases

/-- The value of a hexadecimal digit. -/
def hexValue (c : Byte) : Option Byte :=
  if 48 ≤ c && c ≤ 57 then some (c - 48)
  else if 97 ≤ c && c ≤ 102 then some (10 + c - 97)
  else if 65 ≤ c && c ≤ 70 then some (10 + c - 65)
  else none

/-- The character that a backslash and a letter other than `x` stand for. -/
def escapeValue (esc : Byte) : Byte :=
  if esc = 110 then 10
  else if esc = 116 then 9
  else if esc = 114 then 13
  else if esc = 48 then 0
  else esc

/-- The character that an escape stands for; `cur` is behind the backslash. -/
def readEscape (start : Pos) (cur : Cursor) : Except LexError (Byte × Cursor) :=
  match cur.rest with
  | [] => .ok (92, cur)
  | esc :: rest =>
    let pos := cur.pos.next esc
    if esc = 120 then
      match rest with
      | h :: l :: rest =>
        match hexValue h, hexValue l with
        | some hv, some lv => .ok (hv <<< 4 ||| lv, ⟨rest, (pos.next h).next l⟩)
        | _, _ => .error ⟨str "bad \\xHH digits", start⟩
      | _ => .error ⟨str "truncated \\xHH", start⟩
    else .ok (escapeValue esc, ⟨rest, pos⟩)

/-- Reading an escape does not add to what is left. -/
theorem length_readEscape_le {start : Pos} {cur cur' : Cursor} {b : Byte}
    (h : readEscape start cur = .ok (b, cur')) : cur'.rest.length ≤ cur.rest.length := by
  obtain ⟨rest, pos⟩ := cur
  unfold readEscape at h
  split at h
  · cases h; exact Nat.le_refl _
  · next esc rest hrest =>
    dsimp only at hrest
    subst hrest
    split_ifs at h
    · split at h
      · split at h
        · cases h; simp only [List.length_cons]; omega
        · cases h
      · cases h
    · cases h; exact Nat.le_succ _

/-- The loop of `read_string` behind the opening quote. -/
def readStringBody (start : Pos) : Loop (Cursor × Bytes) (Except LexError (Bytes × Cursor)) where
  step := fun (cur, out) =>
    match cur.rest with
    | [] => .inr (.error ⟨str "unterminated string", start⟩)
    | c :: rest =>
      let cur : Cursor := ⟨rest, cur.pos.next c⟩
      if c = 34 then .inr (.ok (out, cur))
      else if c = 92 then
        match readEscape start cur with
        | .ok (b, cur) => .inl (cur, out ++ [b])
        | .error e => .inr (.error e)
      else .inl (cur, out ++ [c])
  variant := fun (cur, _) => cur.rest.length
  decreases := by
    rintro ⟨⟨_ | ⟨c, rest⟩, pos⟩, out⟩ s h
    · cases h
    · dsimp only at h
      split_ifs at h
      · split at h
        · next hescape =>
          cases h
          exact Nat.lt_succ_of_le (length_readEscape_le hescape)
        · cases h
      · cases h; exact Nat.lt_succ_self _

/-- `read_number`. -/
def readNumber (cur : Cursor) : Token × Cursor :=
  let (whole, cur') := advanceWhile isDigit cur.rest cur.pos
  match cur'.rest with
  | 46 :: d :: rest =>
    if isDigit d then
      let (fraction, cur'') := advanceWhile isDigit (d :: rest) (cur'.pos.next 46)
      (⟨.number, whole ++ 46 :: fraction, cur.pos⟩, cur'')
    else (⟨.number, whole, cur.pos⟩, cur')
  | _ => (⟨.number, whole, cur.pos⟩, cur')

/-- The characters of identifiers. -/
def isIdentByte (c : Byte) : Bool := isAlnum c || c == 95

/-- `read_ident_or_keyword`. -/
def readIdentOrKeyword (cur : Cursor) : Token × Cursor :=
  let (out, cur') := advanceWhile isIdentByte cur.rest cur.pos
  match keywords.lookup out with
  | some type => (⟨type, out, cur.pos⟩, cur')
  | none => (⟨.ident, out, cur.pos⟩, cur')

/-- The token of the character `c` alone; `cur` is behind it. -/
def singleToken (c : Byte) (start : Pos) (cur : Cursor) (type : TokenType) :
    Except LexError (Token × Cursor) :=
  .ok (⟨type, [c], start⟩, cur)

/-- The token of `c` and `second` when `match(second)` succeeds behind `c`. -/
def doubleToken (c : Byte) (start : Pos) (cur : Cursor) (second : Byte) (type : TokenType)
    (otherwise : Except LexError (Token × Cursor)) : Except LexError (Token × Cursor) :=
  if cur.rest.head? = some second then
    .ok (⟨type, [c, second], start⟩, ⟨cur.rest.tail, cur.pos.next second⟩)
  else otherwise

/-- The punctuation that starts with `c`, at `start`; `cur` is behind `c`. -/
def readPunctuation (c : Byte) (start : Pos) (cur : Cursor) : Except LexError (Token × Cursor) :=
  match c with
  | 40 => singleToken c start cur .lparen
  | 41 => singleToken c start cur .rparen
  | 123 => singleToken c start cur .lbrace
  | 125 => singleToken c start cur .rbrace
  | 91 => singleToken c start cur .lbracket
  | 93 => singleToken c start cur .rbracket
  | 44 => singleToken c start cur .comma
  | 59 => singleToken c start cur .semicolon
  | 46 => singleToken c start cur .dot
  | 43 => singleToken c start cur .plus
  | 45 => singleToken c start cur .minus
  | 58 => doubleToken c start cur 58 .scope (singleToken c start cur .colon)
  | 61 => doubleToken c start cur 61 .eq (singleToken c start cur .assign)
  | 33 => doubleToken c start cur 61 .neq (singleToken c start cur .bang)
  | 60 => doubleToken c start cur 61 .lte (singleToken c start cur .lt)
  | 62 => doubleToken c start cur 61 .gte (singleToken c start cur .gt)
  | 38 => doubleToken c start cur 38 .and (.error ⟨str "expected &&", start⟩)
  | 124 => doubleToken c start cur 124 .or (.error ⟨str "expected ||", start⟩)
  | _ => .error ⟨str "unexpected character: '" ++ [c] ++ str "'", start⟩

/-- `read_string`. -/
def readString (cur : Cursor) : Except LexError (Token × Cursor) :=
  match (readStringBody cur.pos).run (⟨cur.rest.tail, cur.pos.next 34⟩, []) with
  | .ok (out, cur') => .ok (⟨.string, out, cur.pos⟩, cur')
  | .error e => .error e

/-- One token at the character `c`. -/
def readToken (c : Byte) (rest : Bytes) (pos : Pos) : Except LexError (Token × Cursor) :=
  if c = 34 then readString ⟨c :: rest, pos⟩
  else if isDigit c then .ok (readNumber ⟨c :: rest, pos⟩)
  else if isAlpha c || c == 95 then .ok (readIdentOrKeyword ⟨c :: rest, pos⟩)
  else readPunctuation c pos ⟨rest, pos.next c⟩

/-- Reading a string takes a byte. -/
theorem length_readString_lt {c : Byte} {rest : Bytes} {pos : Pos} {t : Token} {cur : Cursor}
    (h : readString ⟨c :: rest, pos⟩ = .ok (t, cur)) : cur.rest.length < (c :: rest).length := by
  unfold readString at h
  split at h
  · next hrun =>
    cases h
    refine Nat.lt_succ_of_le ?_
    refine (readStringBody pos).run_induction (fun s => s.1.rest.length ≤ rest.length)
      (fun r => ∀ out cur, r = .ok (out, cur) → cur.rest.length ≤ rest.length) ?_ ?_ _ (Nat.le_refl _)
      _ _ hrun
    · intro s s' hs hstep
      exact ((readStringBody pos).decreases s s' hstep).le.trans hs
    · rintro ⟨⟨_ | ⟨c, more⟩, pos'⟩, out'⟩ r hs hstep out cur hr
      · cases hstep; cases hr
      · simp only [readStringBody] at hstep
        split_ifs at hstep
        · cases hstep; cases hr
          exact (Nat.le_succ _).trans hs
        · split at hstep
          · cases hstep
          · cases hstep; cases hr
  · cases h

/-- Reading a number takes its first digit. -/
theorem length_readNumber_lt {c : Byte} (hc : isDigit c) (rest : Bytes) (pos : Pos) :
    (readNumber ⟨c :: rest, pos⟩).2.rest.length < (c :: rest).length := by
  have hwhole := length_advanceWhile_lt hc rest pos
  unfold readNumber
  dsimp only
  split
  · next d more hrest =>
    rw [hrest] at hwhole
    split
    · have hfraction := length_advanceWhile_le isDigit (d :: more)
        ((advanceWhile isDigit (c :: rest) pos).2.pos.next 46)
      simp only [List.length_cons] at hwhole hfraction ⊢
      omega
    · rw [hrest]; exact hwhole
  · exact hwhole

/-- Reading a name takes its first byte. -/
theorem length_readIdentOrKeyword_lt {c : Byte} (hc : isIdentByte c) (rest : Bytes) (pos : Pos) :
    (readIdentOrKeyword ⟨c :: rest, pos⟩).2.rest.length < (c :: rest).length := by
  unfold readIdentOrKeyword
  dsimp only
  split <;> exact length_advanceWhile_lt hc rest pos

/-- A single-byte token does not add to what is left. -/
theorem length_singleToken_le {c : Byte} {start : Pos} {cur : Cursor} {type : TokenType} :
    ∀ t cur', singleToken c start cur type = .ok (t, cur') → cur'.rest.length ≤ cur.rest.length := by
  rintro t cur' ⟨⟩
  exact Nat.le_refl _

/-- A double-byte token does not add to what is left. -/
theorem length_doubleToken_le {c second : Byte} {start : Pos} {cur : Cursor} {type : TokenType}
    {otherwise : Except LexError (Token × Cursor)}
    (hother : ∀ t cur', otherwise = .ok (t, cur') → cur'.rest.length ≤ cur.rest.length) :
    ∀ t cur', doubleToken c start cur second type otherwise = .ok (t, cur') →
      cur'.rest.length ≤ cur.rest.length := by
  intro t cur' h
  unfold doubleToken at h
  split at h
  · cases h; simp
  · exact hother t cur' h

/-- Reading punctuation does not add to what is left. -/
theorem length_readPunctuation_le {c : Byte} {start : Pos} {cur : Cursor} :
    ∀ t cur', readPunctuation c start cur = .ok (t, cur') → cur'.rest.length ≤ cur.rest.length := by
  unfold readPunctuation
  split
  case h_19 => exact nofun
  case h_17 | h_18 => exact length_doubleToken_le nofun
  case h_12 | h_13 | h_14 | h_15 | h_16 => exact length_doubleToken_le length_singleToken_le
  all_goals exact length_singleToken_le

/-- A token is never empty. -/
theorem length_readToken_lt {c : Byte} {rest : Bytes} {pos : Pos} {t : Token} {cur : Cursor}
    (h : readToken c rest pos = .ok (t, cur)) : cur.rest.length < (c :: rest).length := by
  unfold readToken at h
  split_ifs at h with h₁ h₂ h₃
  · exact length_readString_lt h
  · obtain rfl := congrArg Prod.snd (Except.ok.inj h)
    exact length_readNumber_lt h₂ rest pos
  · obtain rfl := congrArg Prod.snd (Except.ok.inj h)
    refine length_readIdentOrKeyword_lt ?_ rest pos
    rw [isIdentByte, isAlnum, Bool.or_assoc, Bool.or_comm (isDigit c), ← Bool.or_assoc, h₃]
    rfl
  · exact Nat.lt_succ_of_le (length_readPunctuation_le _ _ h)

/-- The cursor after white space and comments is not before the cursor. -/
theorem length_skipWsAndComments_le (cur : Cursor) :
    (skipWsAndComments.run cur).rest.length ≤ cur.rest.length := by
  refine skipWsAndComments.run_induction (fun s => s.rest.length ≤ cur.rest.length)
    (fun r => r.rest.length ≤ cur.rest.length) ?_ ?_ cur (Nat.le_refl _)
  · intro s s' hs hstep
    exact (skipWsAndComments.decreases s s' hstep).le.trans hs
  · rintro ⟨_ | ⟨c, rest⟩, pos⟩ r hs hstep
    · cases hstep; exact hs
    · simp only [skipWsAndComments, skipStep] at hstep
      split_ifs at hstep
      cases hstep; exact hs

/-- The loop of `tokenize` with the tokens so far. -/
def tokenizeLoop : Loop (Cursor × List Token) (Except LexError (List Token)) where
  step := fun (cur, tokens) =>
    let cur := skipWsAndComments.run cur
    match cur.rest with
    | [] => .inr (.ok (tokens ++ [⟨.endOfFile, [], cur.pos⟩]))
    | c :: rest =>
      match readToken c rest cur.pos with
      | .ok (t, cur) => .inl (cur, tokens ++ [t])
      | .error e => .inr (.error e)
  variant := fun (cur, _) => cur.rest.length
  decreases := by
    rintro ⟨cur, tokens⟩ s h
    have hskip := length_skipWsAndComments_le cur
    dsimp only at h
    split at h
    · cases h
    · next c rest hrest =>
      rw [hrest] at hskip
      split at h
      · next htoken =>
        cases h
        exact (length_readToken_lt htoken).trans_le hskip
      · cases h

/-- `Lexer::tokenize` on the source text. -/
def tokenize (src : Bytes) : Except LexError (List Token) :=
  tokenizeLoop.run (⟨src, { line := 1, col := 1 }⟩, [])

example : (tokenize (str "f(x) // c\n == 1.5")).map (List.map Token.text) =
    .ok [str "f", str "(", str "x", str ")", str "==", str "1.5", []] := by decide

end ZeroTrust.Ztl
