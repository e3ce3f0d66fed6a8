import ZeroTrust.Ztl.Lexer
import Mathlib.Data.List.Forall2
import Mathlib.Data.List.Induction

/-!
# Token positions

The lexer keeps its line and column incrementally: every scanner goes through `advance`. Here the
position of an offset is read off the text, and every token is shown to carry the position of the
offset at which it was read.
-/

namespace ZeroTrust.Ztl

/-- The position behind a text: its newlines, and what follows the last of them. -/
def posAfter (front : Bytes) : Pos where
  line := 1 + front.count 10
  col := 1 + (front.reverse.takeWhile (· != 10)).length

/-- The position of an offset in the source. -/
def posAt (src : Bytes) (offset : ℕ) : Pos := posAfter (src.take offset)

/-- One more byte moves the position on by that byte. -/
theorem posAfter_append_singleton (front : Bytes) (c : Byte) :
    posAfter (front ++ [c]) = (posAfter front).next c := by
  by_cases hc : c = 10
  · simp [posAfter, Pos.next, hc, Nat.add_assoc]
  · simp [posAfter, Pos.next, hc, Nat.add_assoc]

/-- Advancing over a text from its start leads to the position behind it. -/
theorem foldl_next (front : Bytes) : front.foldl Pos.next { line := 1, col := 1 } = posAfter front := by
  induction front using List.reverseRecOn with
  | nil => rfl
  | append_singleton front c ih => rw [List.foldl_append, ih, posAfter_append_singleton]; rfl

/-- Lines and columns are at most as many as characters. -/
theorem posAt_le (src : Bytes) (offset : ℕ) :
    (posAt src offset).line ≤ src.length + 1 ∧ (posAt src offset).col ≤ src.length + 1 := by
  have htake : (src.take offset).length ≤ src.length := List.length_take_le' _ _
  have hcount : (src.take offset).count 10 ≤ (src.take offset).length := List.count_le_length
  have hwhile := (List.takeWhile_sublist (l := (src.take offset).reverse) (· != 10)).length_le
  rw [List.length_reverse] at hwhile
  simp only [posAt, posAfter]
  omega

/-- From one cursor to another by `advance` over the text between them. -/
def Cursor.AdvancesTo (cur cur' : Cursor) : Prop :=
  ∃ read, cur.rest = read ++ cur'.rest ∧ cur'.pos = read.foldl Pos.next cur.pos

namespace Cursor.AdvancesTo

/-- A cursor advances to itself. -/
theorem refl (cur : Cursor) : cur.AdvancesTo cur := ⟨[], rfl, rfl⟩

/-- Two advances in a row are one. -/
theorem trans {a b c : Cursor} (hab : a.AdvancesTo b) (hbc : b.AdvancesTo c) : a.AdvancesTo c := by
  obtain ⟨read, hrest, hpos⟩ := hab
  obtain ⟨read', hrest', hpos'⟩ := hbc
  exact ⟨read ++ read', by rw [hrest, hrest', List.append_assoc], by rw [hpos', hpos, List.foldl_append]⟩

/-- One `advance`. -/
theorem step (c : Byte) (rest : Bytes) (pos : Pos) : Cursor.AdvancesTo ⟨c :: rest, pos⟩ ⟨rest, pos.next c⟩ :=
  ⟨[c], rfl, rfl⟩

/-- `advance` over a character that has been looked at. -/
theorem head {c : Byte} {rest : Bytes} (h : rest.head? = some c) (pos : Pos) :
    Cursor.AdvancesTo ⟨rest, pos⟩ ⟨rest.tail, pos.next c⟩ := by
  obtain ⟨tail, rfl⟩ := List.head?_eq_some_iff.mp h
  exact step c tail pos

/-- Where a cursor stands that was reached from the start of the source. -/
theorem offset {src : Bytes} {cur : Cursor} (h : Cursor.AdvancesTo ⟨src, { line := 1, col := 1 }⟩ cur) :
    cur.rest = src.drop (src.length - cur.rest.length) ∧
      cur.pos = posAt src (src.length - cur.rest.length) := by
  obtain ⟨read, hrest, hpos⟩ := h
  dsimp only at hrest hpos
  have hlength : src.length - cur.rest.length = read.length := by simp [hrest]
  rw [hlength, hpos, foldl_next, posAt]
  simp [hrest]

end Cursor.AdvancesTo

/-- Advancing while a test holds is an advance. -/
theorem advanceWhile_advances (p : Byte → Bool) (s : Bytes) (pos : Pos) :
    Cursor.AdvancesTo ⟨s, pos⟩ (advanceWhile p s pos).2 := by
  induction s generalizing pos with
  | nil => exact Cursor.AdvancesTo.refl _
  | cons c s ih =>
    rw [advanceWhile]
    split
    · exact (Cursor.AdvancesTo.step c s pos).trans (ih _)
    · exact Cursor.AdvancesTo.refl _

/-- Skipping a comment is an advance. -/
theorem skipBlockComment_advances (s : Bytes) (pos : Pos) :
    Cursor.AdvancesTo ⟨s, pos⟩ (skipBlockComment s pos) := by
  induction s generalizing pos with
  | nil => exact Cursor.AdvancesTo.refl _
  | cons c s ih =>
    rw [skipBlockComment]
    split
    · next hend => exact (Cursor.AdvancesTo.step c s pos).trans (Cursor.AdvancesTo.head hend.2 _)
    · exact (Cursor.AdvancesTo.step c s pos).trans (ih _)

/-- Skipping white space and comments is an advance. -/
theorem skipWsAndComments_advances (cur : Cursor) : cur.AdvancesTo (skipWsAndComments.run cur) := by
  apply skipWsAndComments.run_induction (fun s => cur.AdvancesTo s) (fun r => cur.AdvancesTo r)
  · rintro ⟨rest, pos⟩ s' hs hstep
    apply hs.trans
    cases rest with
    | nil => cases hstep
    | cons c rest =>
      simp only [skipWsAndComments, skipStep] at hstep
      split_ifs at hstep with hblank hline hblock hhash
      · cases hstep
        exact Cursor.AdvancesTo.step c rest pos
      · cases hstep
        exact advanceWhile_advances _ _ _
      · cases hstep
        apply (Cursor.AdvancesTo.step c rest pos).trans
        exact (Cursor.AdvancesTo.head hblock.2 _).trans (skipBlockComment_advances _ _)
      · cases hstep
        exact advanceWhile_advances _ _ _
  · rintro ⟨rest, pos⟩ r hs hstep
    cases rest with
    | nil =>
      cases hstep
      exact hs
    | cons c rest =>
      simp only [skipWsAndComments, skipStep] at hstep
      split_ifs at hstep
      cases hstep
      exact hs
  · exact Cursor.AdvancesTo.refl cur

/-- Reading an escape is an advance. -/
theorem readEscape_advances {start : Pos} {cur cur' : Cursor} {b : Byte}
    (h : readEscape start cur = .ok (b, cur')) : cur.AdvancesTo cur' := by
  obtain ⟨rest, pos⟩ := cur
  cases rest with
  | nil =>
    cases h
    exact Cursor.AdvancesTo.refl _
  | cons esc rest =>
    apply (Cursor.AdvancesTo.step esc rest pos).trans
    simp only [readEscape] at h
    split_ifs at h
    · split at h
      · next high low more =>
        split at h
        · cases h
          exact (Cursor.AdvancesTo.step high (low :: more) _).trans (Cursor.AdvancesTo.step low more _)
        · cases h
      · cases h
    · cases h
      exact Cursor.AdvancesTo.refl _

/-- Reading the body of a string is an advance. -/
theorem readStringBody_advances {start : Pos} {cur cur' : Cursor} {out : Bytes}
    (h : (readStringBody start).run (cur, []) = .ok (out, cur')) : cur.AdvancesTo cur' := by
  have hrun := (readStringBody start).run_induction (fun s => cur.AdvancesTo s.1)
    (fun r => ∀ out cur', r = .ok (out, cur') → cur.AdvancesTo cur') ?_ ?_ (cur, []) (Cursor.AdvancesTo.refl cur)
  · exact hrun out cur' h
  · rintro ⟨⟨rest, pos⟩, out⟩ s' hs hstep
    apply hs.trans
    cases rest with
    | nil => cases hstep
    | cons c rest =>
      apply (Cursor.AdvancesTo.step c rest pos).trans
      simp only [readStringBody] at hstep
      split_ifs at hstep
      · split at hstep
        · next hescape =>
          cases hstep
          exact readEscape_advances hescape
        · cases hstep
      · cases hstep
        exact Cursor.AdvancesTo.refl _
  · rintro ⟨⟨rest, pos⟩, out⟩ r hs hstep out' cur' hr
    cases rest with
    | nil =>
      cases hstep
      cases hr
    | cons c rest =>
      simp only [readStringBody] at hstep
      split_ifs at hstep
      · cases hstep
        cases hr
        exact hs.trans (Cursor.AdvancesTo.step c rest pos)
      · split at hstep
        · cases hstep
        · cases hstep
          cases hr

/-- A token read at a cursor: it has the position of the cursor and the text behind it is left. -/
def ReadFrom (cur : Cursor) (result : Token × Cursor) : Prop :=
  result.1.pos = cur.pos ∧ cur.AdvancesTo result.2

/-- A string is read from where it starts. -/
theorem readString_from {cur : Cursor} {rest : Bytes} (hrest : cur.rest = 34 :: rest) {result : Token × Cursor}
    (h : readString cur = .ok result) : ReadFrom cur result := by
  unfold readString at h
  split at h
  · next hrun =>
    cases h
    refine ⟨rfl, ?_⟩
    have hbody := readStringBody_advances hrun
    rw [hrest] at hbody
    obtain ⟨src, pos⟩ := cur
    subst hrest
    exact (Cursor.AdvancesTo.step 34 rest pos).trans hbody
  · cases h

/-- A number is read from where it starts. -/
theorem readNumber_from (cur : Cursor) : ReadFrom cur (readNumber cur) := by
  have hwhole : cur.AdvancesTo (advanceWhile isDigit cur.rest cur.pos).2 := advanceWhile_advances _ _ _
  unfold readNumber
  dsimp only
  split
  · next d more hrest =>
    split
    · refine ⟨rfl, hwhole.trans ?_⟩
      have hpoint := Cursor.AdvancesTo.step 46 (d :: more) (advanceWhile isDigit cur.rest cur.pos).2.pos
      rw [← hrest] at hpoint
      exact hpoint.trans (advanceWhile_advances _ _ _)
    · exact ⟨rfl, hwhole⟩
  · exact ⟨rfl, hwhole⟩

/-- A name is read from where it starts. -/
theorem readIdentOrKeyword_from (cur : Cursor) : ReadFrom cur (readIdentOrKeyword cur) := by
  have hword : cur.AdvancesTo (advanceWhile isIdentByte cur.rest cur.pos).2 := advanceWhile_advances _ _ _
  unfold readIdentOrKeyword
  dsimp only
  split <;> exact ⟨rfl, hword⟩

section Punctuation

variable {c : Byte} {start : Pos} {cur : Cursor} {type : TokenType} {result : Token × Cursor}

/-- A single-byte token is read from its start. -/
theorem singleToken_from (h : singleToken c start cur type = .ok result) :
    result.1.pos = start ∧ cur.AdvancesTo result.2 := by
  cases h
  exact ⟨rfl, Cursor.AdvancesTo.refl _⟩

/-- A double-byte token is read from its start. -/
theorem doubleToken_from {second : Byte} {otherwise : Except LexError (Token × Cursor)}
    (hother : otherwise = .ok result → result.1.pos = start ∧ cur.AdvancesTo result.2)
    (h : doubleToken c start cur second type otherwise = .ok result) :
    result.1.pos = start ∧ cur.AdvancesTo result.2 := by
  unfold doubleToken at h
  split at h
  · next hsecond =>
    cases h
    exact ⟨rfl, Cursor.AdvancesTo.head hsecond _⟩
  · exact hother h

/-- Punctuation is read from its start. -/
theorem readPunctuation_from (h : readPunctuation c start cur = .ok result) :
    result.1.pos = start ∧ cur.AdvancesTo result.2 := by
  unfold readPunctuation at h
  split at h
  case h_19 => cases h
  case h_17 | h_18 => exact doubleToken_from (by nofun) h
  case h_12 | h_13 | h_14 | h_15 | h_16 => exact doubleToken_from singleToken_from h
  all_goals exact singleToken_from h

end Punctuation

/-- A token is read from where it starts. -/
theorem readToken_from {c : Byte} {rest : Bytes} {pos : Pos} {result : Token × Cursor}
    (h : readToken c rest pos = .ok result) : ReadFrom ⟨c :: rest, pos⟩ result := by
  unfold readToken at h
  split_ifs at h with hquote hdigit hword
  · subst hquote
    exact readString_from rfl h
  · cases h
    exact readNumber_from _
  · cases h
    exact readIdentOrKeyword_from _
  · obtain ⟨hpos, hadvances⟩ := readPunctuation_from h
    exact ⟨hpos, (Cursor.AdvancesTo.step c rest pos).trans hadvances⟩

/-- The token that is read at an offset of the source, with the position of that offset. -/
def ReadAt (src : Bytes) (offset : ℕ) (t : Token) : Prop :=
  t.pos = posAt src offset ∧ ∃ c rest cur, src.drop offset = c :: rest ∧
    readToken c rest (posAt src offset) = .ok (t, cur)

/-- The tokens so far were read at growing offsets before the cursor. -/
structure TokensExact (src : Bytes) (cur : Cursor) (tokens : List Token) (offsets : List ℕ) : Prop where
  advanced : Cursor.AdvancesTo ⟨src, { line := 1, col := 1 }⟩ cur
  read : List.Forall₂ (ReadAt src) offsets tokens
  increasing : offsets.Pairwise (· < ·)
  before : ∀ o ∈ offsets, o + cur.rest.length < src.length

namespace TokensExact

variable {src : Bytes} {cur cur' : Cursor} {tokens : List Token} {offsets : List ℕ}

/-- Skipping keeps the tokens exact. -/
theorem skip (h : TokensExact src cur tokens offsets) (hskip : cur.AdvancesTo cur') :
    TokensExact src cur' tokens offsets := by
  have hle : cur'.rest.length ≤ cur.rest.length := by
    obtain ⟨read, hrest, -⟩ := hskip
    simp [hrest]
  refine ⟨h.advanced.trans hskip, h.read, h.increasing, fun o ho => ?_⟩
  have hbefore := h.before o ho
  omega

/-- Reading a token keeps the tokens exact. -/
theorem token (h : TokensExact src cur tokens offsets) {c : Byte} {rest : Bytes} (hrest : cur.rest = c :: rest)
    {t : Token} (htoken : readToken c rest cur.pos = .ok (t, cur')) :
    TokensExact src cur' (tokens ++ [t]) (offsets ++ [src.length - cur.rest.length]) := by
  have hshorter := length_readToken_lt htoken
  rw [← hrest] at hshorter
  have hfrom := readToken_from htoken
  have hcur : (⟨c :: rest, cur.pos⟩ : Cursor) = cur := by rw [← hrest]
  rw [hcur] at hfrom
  obtain ⟨hdrop, hpos⟩ := h.advanced.offset
  have hle : cur.rest.length ≤ src.length := by
    obtain ⟨read, hsrc, -⟩ := h.advanced
    dsimp only at hsrc
    simp [hsrc]
  constructor
  · exact h.advanced.trans hfrom.2
  · apply List.rel_append h.read
    apply List.Forall₂.cons _ List.Forall₂.nil
    refine ⟨hfrom.1.trans hpos, c, rest, cur', by rw [← hdrop, hrest], ?_⟩
    rw [← hpos]
    exact htoken
  · rw [List.pairwise_append]
    refine ⟨h.increasing, List.pairwise_singleton _ _, fun o ho o' ho' => ?_⟩
    have hbefore := h.before o ho
    rw [List.mem_singleton.mp ho']
    omega
  · intro o ho
    rcases List.mem_append.mp ho with hold | hnew
    · have hbefore := h.before o hold
      omega
    · rw [List.mem_singleton.mp hnew]
      omega

end TokensExact

/-- The loop of `tokenize` keeps the positions exact. -/
theorem tokenizeLoop_exact {src : Bytes} {tokens : List Token} (h : tokenize src = .ok tokens) :
    ∃ cur front offsets, cur.rest = [] ∧ TokensExact src cur front offsets ∧
      tokens = front ++ [⟨.endOfFile, [], cur.pos⟩] := by
  refine tokenizeLoop.run_induction (fun s => ∃ offsets, TokensExact src s.1 s.2 offsets)
    (fun r => ∀ tokens, r = .ok tokens → ∃ cur front offsets, cur.rest = [] ∧
      TokensExact src cur front offsets ∧ tokens = front ++ [⟨.endOfFile, [], cur.pos⟩]) ?_ ?_ _ ?_ tokens h
  · intro s s' hs hstep
    obtain ⟨offsets, hexact⟩ := hs
    have hskipped := hexact.skip (skipWsAndComments_advances s.1)
    simp only [tokenizeLoop] at hstep
    split at hstep
    · cases hstep
    · next c rest hrest =>
      split at hstep
      · next htoken =>
        cases hstep
        exact ⟨_, hskipped.token hrest htoken⟩
      · cases hstep
  · intro s r hs hstep tokens hr
    obtain ⟨offsets, hexact⟩ := hs
    have hskipped := hexact.skip (skipWsAndComments_advances s.1)
    simp only [tokenizeLoop] at hstep
    split at hstep
    · next hrest =>
      cases hstep
      cases hr
      exact ⟨_, _, offsets, hrest, hskipped, rfl⟩
    · split at hstep
      · cases hstep
      · cases hstep
        cases hr
  · exact ⟨[], Cursor.AdvancesTo.refl _, List.Forall₂.nil, List.Pairwise.nil,
      fun _ h => absurd h List.not_mem_nil⟩

/-- Every token carries the position of the offset at which it was read. The offsets grow, and the
end of the file has the position of the end of the source. No number is beyond the length of the
source. -/
theorem token_positions {src : Bytes} {tokens : List Token} (h : tokenize src = .ok tokens) :
    ∃ offsets front, tokens = front ++ [⟨.endOfFile, [], posAt src src.length⟩] ∧
      List.Forall₂ (ReadAt src) offsets front ∧ (offsets ++ [src.length]).Pairwise (· < ·) ∧
      ∀ t ∈ tokens, t.pos.line ≤ src.length + 1 ∧ t.pos.col ≤ src.length + 1 := by
  obtain ⟨cur, front, offsets, hend, hexact, rfl⟩ := tokenizeLoop_exact h
  have hpos : cur.pos = posAt src src.length := by
    have hoffset := hexact.advanced.offset.2
    rwa [hend, List.length_nil, Nat.sub_zero] at hoffset
  refine ⟨offsets, front, by rw [hpos], hexact.read, ?_, fun t ht => ?_⟩
  · rw [List.pairwise_append]
    refine ⟨hexact.increasing, List.pairwise_singleton _ _, fun o ho o' ho' => ?_⟩
    have hbefore := hexact.before o ho
    rw [List.mem_singleton.mp ho']
    omega
  · rcases List.mem_append.mp ht with hfront | hlast
    · obtain ⟨o, hread⟩ : ∃ o, ReadAt src o t := by
        obtain ⟨i, hi, rfl⟩ := List.getElem_of_mem hfront
        exact ⟨_, hexact.read.get (hexact.read.length_eq ▸ hi) hi⟩
      rw [hread.1]
      exact posAt_le src o
    · rw [List.mem_singleton.mp hlast, hpos]
      exact posAt_le src _

/-- A comment and a string that span lines. -/
def spannedSource : Bytes := str "f /* a\n */ \"b\n\" =="

/-- The tokens of the source with their positions. -/
def spannedTokens : List Token :=
  [⟨.ident, str "f", { line := 1, col := 1 }⟩, ⟨.string, str "b\n", { line := 2, col := 5 }⟩,
    ⟨.eq, str "==", { line := 3, col := 3 }⟩, ⟨.endOfFile, [], { line := 3, col := 5 }⟩]

/-- Line, column and offsets of a source that spans several lines. -/
theorem token_positions_spanned : ∃ offsets front,
    spannedTokens = front ++ [⟨.endOfFile, [], posAt spannedSource spannedSource.length⟩] ∧
      List.Forall₂ (ReadAt spannedSource) offsets front ∧ (offsets ++ [spannedSource.length]).Pairwise (· < ·) ∧
      ∀ t ∈ spannedTokens, t.pos.line ≤ spannedSource.length + 1 ∧ t.pos.col ≤ spannedSource.length + 1 :=
  token_positions (by decide +kernel : tokenize spannedSource = .ok spannedTokens)

end ZeroTrust.Ztl
