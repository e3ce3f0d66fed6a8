import ZeroTrust.WebUi.JsonText

/-!
# The JSON reader

`json_string_field` and `json_number_field` look for a quoted key anywhere in a text and read what
stands behind the next colon. On the text of an object this is the object's own member as long as no
earlier string shows the quoted key and the value uses no escape that the reader does not know.
-/

namespace ZeroTrust

/-- What follows the first occurrence of a pattern. -/
def afterFirst (sub : Bytes) : Bytes → Option Bytes
  | [] => if sub = [] then some [] else none
  | x :: xs => if sub.isPrefixOf (x :: xs) then some ((x :: xs).drop sub.length) else afterFirst sub xs

/-- What stands behind the colon after the first occurrence of the quoted key. -/
def afterKey (src key : Bytes) : Option Bytes := do
  let rest ← afterFirst (34 :: (key ++ [34])) src
  let rest ← afterFirst [58] rest
  return rest.dropWhile isSpace

/-- The byte that `json_string_field` reads for an escape. -/
def unescapeByte (e : Byte) : Byte := if e = 110 then 10 else if e = 116 then 9 else e

/-- The loop of `json_string_field` over the value. -/
def readJsonString : Bytes → Bytes
  | [] => []
  | 92 :: e :: s => unescapeByte e :: readJsonString s
  | c :: s => if c = 34 then [] else c :: readJsonString s

/-- `json_string_field`. -/
def jsonStringField (src key : Bytes) : Bytes :=
  match afterKey src key with
  | some (34 :: rest) => readJsonString rest
  | _ => []

/-- The loop of `json_number_field`; a value beyond `long` is undefined. -/
def readJsonDigits : ℕ → Bytes → Option ℕ
  | v, [] => some v
  | v, c :: s =>
    if isDigit c then
      let v := v * 10 + (c.toNat - 48)
      if v < 2 ^ 63 then readJsonDigits v s else none
    else some v

/-- The sign and the digits of `json_number_field`. -/
def readJsonNumber : Bytes → Option ℤ
  | 45 :: s => (readJsonDigits 0 s).map fun v : ℕ => -(v : ℤ)
  | s => (readJsonDigits 0 s).map fun v : ℕ => (v : ℤ)

/-- `json_number_field`. -/
def jsonNumberField (src key : Bytes) : Option ℤ :=
  match afterKey src key with
  | some rest => readJsonNumber rest
  | none => some 0

/-- A key that no spelling can hide: letters, digits and underscores. -/
def IsFieldName (key : Bytes) : Prop := key ≠ [] ∧ ∀ c ∈ key, (isAlnum c || c == 95) = true

/-- The quoted key can be seen inside a string: it ends the string behind an escaped quote. -/
def ShowsKeyInside (key : Bytes) : List JsonChar → Prop
  | [] => False
  | c :: cs => (c.raw = [92, 34] ∧ jsonRaw cs = key) ∨ ShowsKeyInside key cs

/-- The quoted key can be seen in a string: it is the string or stands inside. -/
def ShowsKey (key : Bytes) (cs : List JsonChar) : Prop := jsonRaw cs = key ∨ ShowsKeyInside key cs

/-- The quoted key can be seen in a value. -/
def JsonValue.ShowsKey (key : Bytes) : JsonValue → Prop
  | .string cs => ZeroTrust.ShowsKey key cs
  | .integer _ => False

/-- No string shows the quoted key before the key of the member itself, which is spelled plainly. -/
def KeyClear (key : Bytes) : List JsonMember → Prop
  | [] => True
  | m :: ms => jsonRaw m.key = key ∨
    (¬ShowsKey key m.key ∧ jsonDecode m.key ≠ key ∧ ¬m.value.ShowsKey key ∧ KeyClear key ms)

instance decidableShowsKeyInside (key : Bytes) : ∀ cs, Decidable (ShowsKeyInside key cs)
  | [] => inferInstanceAs (Decidable False)
  | c :: cs =>
    have := decidableShowsKeyInside key cs
    inferInstanceAs (Decidable ((c.raw = [92, 34] ∧ jsonRaw cs = key) ∨ ShowsKeyInside key cs))

instance (key : Bytes) (cs : List JsonChar) : Decidable (ShowsKey key cs) :=
  inferInstanceAs (Decidable (_ ∨ _))

instance (key : Bytes) : ∀ v : JsonValue, Decidable (v.ShowsKey key)
  | .string cs => inferInstanceAs (Decidable (ShowsKey key cs))
  | .integer _ => inferInstanceAs (Decidable False)

instance decidableKeyClear (key : Bytes) : ∀ ms, Decidable (KeyClear key ms)
  | [] => inferInstanceAs (Decidable True)
  | m :: ms =>
    have := decidableKeyClear key ms
    inferInstanceAs (Decidable (jsonRaw m.key = key ∨
      (¬ShowsKey key m.key ∧ jsonDecode m.key ≠ key ∧ ¬m.value.ShowsKey key ∧ KeyClear key ms)))

/-- A search passes over text without the first byte of the pattern. -/
theorem afterFirst_append_of_not_mem {c : Byte} {sub s rest : Bytes} (h : c ∉ s) :
    afterFirst (c :: sub) (s ++ rest) = afterFirst (c :: sub) rest := by
  induction s with
  | nil => rfl
  | cons x s ih =>
    rw [List.mem_cons, not_or] at h
    have hstarts : ¬(c :: sub).isPrefixOf (x :: (s ++ rest)) = true := by
      rw [List.isPrefixOf_cons_cons, Bool.and_eq_true, beq_iff_eq]
      exact fun hcx => h.1 hcx.1
    rw [List.cons_append, afterFirst, if_neg hstarts]
    exact ih h.2

/-- A search passes over a byte at which the pattern does not start. -/
theorem afterFirst_cons_of_no_match {c : Byte} {sub rest : Bytes} (h : ¬sub <+: rest) :
    afterFirst (c :: sub) (c :: rest) = afterFirst (c :: sub) rest := by
  have hstarts : ¬(c :: sub).isPrefixOf (c :: rest) = true := by
    rw [List.isPrefixOf_iff_prefix, List.cons_prefix_cons]
    exact fun hcx => h hcx.2
  rw [afterFirst, if_neg hstarts]

/-- A search stops at the pattern. -/
theorem afterFirst_self {c : Byte} (sub rest : Bytes) :
    afterFirst (c :: sub) (c :: (sub ++ rest)) = some rest := by
  have hstarts : (c :: sub).isPrefixOf (c :: (sub ++ rest)) = true := by
    rw [List.isPrefixOf_iff_prefix, List.cons_prefix_cons]
    exact ⟨rfl, List.prefix_append _ _⟩
  rw [afterFirst, if_pos hstarts]
  simp

/-- The spelling of the first character, and the rest. -/
theorem jsonRaw_cons (c : JsonChar) (cs : List JsonChar) : jsonRaw (c :: cs) = c.raw ++ jsonRaw cs := rfl

namespace IsFieldName

variable {key : Bytes}

/-- A field name contains no punctuation. -/
theorem not_mem (h : IsFieldName key) {c : Byte} (hc : (isAlnum c || c == 95) = false) : c ∉ key := by
  intro hmem
  rw [h.2 c hmem] at hc
  cases hc

/-- A field name does not start where a token ends. -/
theorem not_prefix (h : IsFieldName key) {c : Byte} (hc : (isAlnum c || c == 95) = false) (sub rest : Bytes) :
    ¬key ++ sub <+: c :: rest := by
  obtain ⟨hne, -⟩ := id h
  cases hkey : key with
  | nil => exact absurd hkey hne
  | cons k ks =>
    rw [List.cons_append, List.cons_prefix_cons]
    rintro ⟨rfl, -⟩
    exact h.not_mem hc (hkey ▸ List.mem_cons_self)

end IsFieldName

/-- A hexadecimal digit is no quote. -/
theorem HexDigit.ne_quote (d : HexDigit) : d.1 ≠ 34 := by
  intro h
  have hd := d.2
  rw [h] at hd
  exact absurd hd (by decide)

/-- Only the escaped quote contains a quote. -/
theorem JsonChar.quote_not_mem_raw (c : JsonChar) (h : c.raw ≠ [92, 34]) : 34 ∉ c.raw := by
  cases c with
  | plain c hc _ _ => simpa [raw] using Ne.symm hc
  | unicode a b c d => simp [raw, a.ne_quote.symm, b.ne_quote.symm, c.ne_quote.symm, d.ne_quote.symm]
  | escape e => cases e <;> first | exact absurd rfl h | decide

/-- The search for a quoted key between two quotes: it stops where the key stands between them. -/
theorem afterFirst_segment {key segment : Bytes} (hkey : 34 ∉ key) (hsegment : 34 ∉ segment) (rest : Bytes) :
    afterFirst (34 :: (key ++ [34])) (34 :: (segment ++ 34 :: rest)) =
      if segment = key then some rest else afterFirst (34 :: (key ++ [34])) (34 :: rest) := by
  by_cases hown : segment = key
  · have htext : 34 :: (segment ++ 34 :: rest) = 34 :: ((key ++ [34]) ++ rest) := by simp [hown]
    rw [if_pos hown, htext]
    exact afterFirst_self _ rest
  · have hstarts : ¬key ++ [34] <+: segment ++ 34 :: rest := by
      intro hprefix
      apply hown
      clear hown
      -- both end at the first quote
      induction key generalizing segment with
      | nil =>
        cases segment with
        | nil => rfl
        | cons x segment =>
          exact absurd (List.cons_prefix_cons.mp hprefix).1 (List.ne_of_not_mem_cons hsegment)
      | cons k key ih =>
        cases segment with
        | nil => exact absurd (List.cons_prefix_cons.mp hprefix).1.symm (List.ne_of_not_mem_cons hkey)
        | cons x segment =>
          obtain ⟨rfl, hrest⟩ := List.cons_prefix_cons.mp hprefix
          exact congrArg (k :: ·) (ih (List.not_mem_of_not_mem_cons hkey)
            (List.not_mem_of_not_mem_cons hsegment) hrest)
    rw [if_neg hown, afterFirst_cons_of_no_match hstarts]
    exact afterFirst_append_of_not_mem hsegment

/-- The search for a quoted key in a string: it stops at the closing quote of a string that shows the key. -/
theorem afterFirst_string {key : Bytes} (hquote : 34 ∉ key) (hbackslash : 92 ∉ key) (cs : List JsonChar)
    (rest : Bytes) : afterFirst (34 :: (key ++ [34])) (34 :: (jsonRaw cs ++ 34 :: rest)) =
      if ShowsKey key cs then some rest else afterFirst (34 :: (key ++ [34])) (34 :: rest) := by
  -- what stands between the last quote and the characters that are left
  suffices hread : ∀ segment : Bytes, 34 ∉ segment →
      afterFirst (34 :: (key ++ [34])) (34 :: (segment ++ (jsonRaw cs ++ 34 :: rest))) =
        if segment ++ jsonRaw cs = key ∨ ShowsKeyInside key cs then some rest
        else afterFirst (34 :: (key ++ [34])) (34 :: rest) from hread [] List.not_mem_nil
  induction cs with
  | nil =>
    intro segment hsegment
    have hsame : (segment ++ jsonRaw [] = key ∨ ShowsKeyInside key []) ↔ segment = key := by
      simp [jsonRaw, ShowsKeyInside]
    exact (afterFirst_segment hquote hsegment rest).trans (if_congr hsame.symm rfl rfl)
  | cons c cs ih =>
    intro segment hsegment
    rw [jsonRaw_cons, List.append_assoc]
    by_cases hc : c.raw = [92, 34]
    · have hslash : segment ++ [92] ≠ key := by
        rintro rfl
        exact hbackslash (List.mem_append_right _ List.mem_cons_self)
      have hslash' : segment ++ (c.raw ++ jsonRaw cs) ≠ key := by
        rintro rfl
        exact hbackslash (by simp [hc])
      have htext : 34 :: (segment ++ (c.raw ++ (jsonRaw cs ++ 34 :: rest))) =
          34 :: ((segment ++ [92]) ++ 34 :: (jsonRaw cs ++ 34 :: rest)) := by simp [hc]
      have hsame : (jsonRaw cs = key ∨ ShowsKeyInside key cs) ↔
          segment ++ (c.raw ++ jsonRaw cs) = key ∨ ShowsKeyInside key (c :: cs) := by
        rw [or_iff_right hslash', ShowsKeyInside, and_iff_right hc]
      rw [htext, afterFirst_segment hquote (by simp [hsegment]), if_neg hslash]
      exact (ih [] List.not_mem_nil).trans (if_congr hsame rfl rfl)
    · have hmore := ih (segment ++ c.raw) (by simp [hsegment, c.quote_not_mem_raw hc])
      have hsame : ((segment ++ c.raw) ++ jsonRaw cs = key ∨ ShowsKeyInside key cs) ↔
          segment ++ (c.raw ++ jsonRaw cs) = key ∨ ShowsKeyInside key (c :: cs) := by
        simp [ShowsKeyInside, hc]
      rw [← List.append_assoc segment, hmore]
      exact if_congr hsame rfl rfl

/-- The search for a quoted field name passes over a string that does not show it. -/
theorem IsFieldName.afterFirst_string {key : Bytes} (hkey : IsFieldName key) {cs : List JsonChar} {rest : Bytes}
    (hshows : ¬ShowsKey key cs) (hrest : ¬key ++ [34] <+: rest) :
    afterFirst (34 :: (key ++ [34])) (34 :: (jsonRaw cs ++ 34 :: rest)) = afterFirst (34 :: (key ++ [34])) rest := by
  rw [ZeroTrust.afterFirst_string (hkey.not_mem rfl) (hkey.not_mem rfl), if_neg hshows]
  exact afterFirst_cons_of_no_match hrest

/-- Blanks contain no byte of the tokens. -/
theorem JsonBlank.not_mem (b : JsonBlank) {c : Byte} (hc : c ≠ 32 ∧ c ≠ 9 ∧ c ≠ 10 ∧ c ≠ 13) : c ∉ b.1 := by
  intro hmem
  rcases b.2 c hmem with h | h | h | h
  · exact hc.1 h
  · exact hc.2.1 h
  · exact hc.2.2.1 h
  · exact hc.2.2.2 h

/-- A field name does not start in blanks that precede punctuation. -/
theorem IsFieldName.not_prefix_blank {key : Bytes} (h : IsFieldName key) (b : JsonBlank) {c : Byte}
    (hc : (isAlnum c || c == 95) = false) (sub rest : Bytes) : ¬key ++ sub <+: b.1 ++ c :: rest := by
  cases hb : b.1 with
  | nil => exact h.not_prefix hc sub rest
  | cons d ds =>
    apply h.not_prefix
    rcases b.2 d (hb ▸ List.mem_cons_self) with rfl | rfl | rfl | rfl <;> rfl

/-- An integer contains no quote. -/
theorem quote_not_mem_decimalInt (n : ℤ) : 34 ∉ decimalInt n := by
  unfold decimalInt
  split
  · rw [List.mem_cons, not_or]
    exact ⟨by decide, not_mem_decimal rfl⟩
  · exact not_mem_decimal rfl

/-- What can follow a member. -/
def EndsMember (c : Byte) : Prop := c = 44 ∨ c = 125

/-- What ends a member is no part of a word. -/
theorem EndsMember.not_word {c : Byte} (h : EndsMember c) : (isAlnum c || c == 95) = false := by
  rcases h with rfl | rfl <;> rfl

/-- What ends a member is no quote. -/
theorem EndsMember.ne_quote {c : Byte} (h : EndsMember c) : c ≠ 34 := by
  rcases h with rfl | rfl <;> decide

/-- The tail of a member in front of what ends it. -/
theorem JsonMember.tail_append (m : JsonMember) (c : Byte) (rest : Bytes) :
    m.tail ++ c :: rest = (m.beforeColon.1 ++ 58 :: m.beforeValue.1) ++
      (m.value.text ++ (m.afterValue.1 ++ c :: rest)) := by
  simp [JsonMember.tail]

/-- The search for a quoted key stops at the member that has it. -/
theorem afterFirst_own {key : Bytes} {m : JsonMember} (hname : jsonRaw m.key = key) (rest : Bytes) :
    afterFirst (34 :: (key ++ [34])) (m.text ++ rest) = some (m.tail ++ rest) := by
  have htext : m.text ++ rest = m.beforeKey.1 ++ 34 :: ((key ++ [34]) ++ (m.tail ++ rest)) := by
    simp [JsonMember.text, hname]
  rw [htext, afterFirst_append_of_not_mem (m.beforeKey.not_mem (by decide))]
  exact afterFirst_self _ _

section Search

variable {key : Bytes} (hkey : IsFieldName key)
include hkey

/-- The search for a quoted key passes over the value of a member that does not show it. -/
theorem afterFirst_tail {m : JsonMember} (hvalue : ¬m.value.ShowsKey key) {c : Byte} (hc : EndsMember c)
    (rest : Bytes) : afterFirst (34 :: (key ++ [34])) (m.tail ++ c :: rest) =
      afterFirst (34 :: (key ++ [34])) rest := by
  have hcolon : 34 ∉ m.beforeColon.1 ++ 58 :: m.beforeValue.1 := by
    rw [List.mem_append, List.mem_cons, not_or, not_or]
    exact ⟨m.beforeColon.not_mem (by decide), by decide, m.beforeValue.not_mem (by decide)⟩
  have hend : afterFirst (34 :: (key ++ [34])) (m.afterValue.1 ++ c :: rest) =
      afterFirst (34 :: (key ++ [34])) rest := by
    rw [afterFirst_append_of_not_mem (m.afterValue.not_mem (by decide))]
    exact @afterFirst_append_of_not_mem 34 (key ++ [34]) [c] rest (by simpa using hc.ne_quote.symm)
  rw [m.tail_append, afterFirst_append_of_not_mem hcolon]
  cases hm : m.value with
  | integer n =>
    rw [JsonValue.text, afterFirst_append_of_not_mem (quote_not_mem_decimalInt n)]
    exact hend
  | string cs =>
    rw [hm] at hvalue
    have htext : (JsonValue.string cs).text ++ (m.afterValue.1 ++ c :: rest) =
        34 :: (jsonRaw cs ++ 34 :: (m.afterValue.1 ++ c :: rest)) := by simp [JsonValue.text]
    rw [htext, hkey.afterFirst_string hvalue (hkey.not_prefix_blank _ hc.not_word _ _)]
    exact hend

/-- The search for a quoted key passes over a member that does not show it. -/
theorem afterFirst_member {m : JsonMember} (hname : ¬ShowsKey key m.key) (hvalue : ¬m.value.ShowsKey key)
    {c : Byte} (hc : EndsMember c) (rest : Bytes) : afterFirst (34 :: (key ++ [34])) (m.text ++ c :: rest) =
      afterFirst (34 :: (key ++ [34])) rest := by
  have htext : m.text ++ c :: rest = m.beforeKey.1 ++ 34 :: (jsonRaw m.key ++ 34 :: (m.tail ++ c :: rest)) := by
    simp [JsonMember.text]
  have htail : ¬key ++ [34] <+: m.tail ++ c :: rest := by
    rw [JsonMember.tail, List.append_assoc]
    exact hkey.not_prefix_blank _ rfl _ _
  rw [htext, afterFirst_append_of_not_mem (m.beforeKey.not_mem (by decide)), hkey.afterFirst_string hname htail]
  exact afterFirst_tail hkey hvalue hc rest

/-- A plainly spelled field name is decoded as it is spelled. -/
theorem jsonDecode_of_raw {cs : List JsonChar} (hraw : jsonRaw cs = key) : jsonDecode cs = key := by
  have hbackslash : 92 ∉ jsonRaw cs := hraw ▸ hkey.not_mem rfl
  rw [← hraw]
  clear hraw hkey
  induction cs with
  | nil => rfl
  | cons c cs ih =>
    rw [jsonRaw_cons, List.mem_append, not_or] at hbackslash
    cases c with
    | plain c _ _ _ => exact congrArg (c :: ·) (ih hbackslash.2)
    | escape e => exact absurd List.mem_cons_self hbackslash.1
    | unicode a b c d => exact absurd List.mem_cons_self hbackslash.1

/-- Where the search for a quoted key ends among members that keep it clear. -/
theorem afterFirst_membersText {ms : List JsonMember} (hclear : KeyClear key ms) (after : Bytes) :
    (∀ m, ms.find? (fun m => jsonDecode m.key = key) = some m → ∃ c rest, EndsMember c ∧
      afterFirst (34 :: (key ++ [34])) (membersText ms ++ 125 :: after) = some (m.tail ++ c :: rest)) ∧
    (ms.find? (fun m => jsonDecode m.key = key) = none →
      afterFirst (34 :: (key ++ [34])) (membersText ms ++ 125 :: after) = afterFirst (34 :: (key ++ [34])) after) := by
  induction ms with
  | nil =>
    refine ⟨nofun, fun _ => ?_⟩
    exact @afterFirst_append_of_not_mem 34 (key ++ [34]) [125] after (by decide)
  | cons m ms ih =>
    have htext : ∃ c rest, EndsMember c ∧ membersText (m :: ms) ++ 125 :: after = m.text ++ c :: rest ∧
        (ms = [] → rest = after) ∧ (ms ≠ [] → rest = membersText ms ++ 125 :: after) := by
      cases ms with
      | nil => exact ⟨125, after, .inr rfl, rfl, fun _ => rfl, fun h => absurd rfl h⟩
      | cons m' ms => exact ⟨44, _, .inl rfl, by simp [membersText], nofun, fun _ => rfl⟩
    obtain ⟨c, rest, hc, htext, hlast, hmore⟩ := htext
    rw [htext]
    rcases hclear with hname | ⟨hname, hdecode, hvalue, hclear⟩
    · have hfind : (m :: ms).find? (fun m => jsonDecode m.key = key) = some m :=
        List.find?_cons_of_pos (by simpa using jsonDecode_of_raw hkey hname)
      rw [hfind]
      refine ⟨fun _ h => ?_, nofun⟩
      cases h
      exact ⟨c, rest, hc, afterFirst_own hname _⟩
    · have hfind : (m :: ms).find? (fun m => jsonDecode m.key = key) = ms.find? fun m => jsonDecode m.key = key :=
        List.find?_cons_of_neg (by simpa using hdecode)
      rw [hfind, afterFirst_member hkey hname hvalue hc]
      by_cases hms : ms = []
      · rw [hlast hms, hms]
        exact ⟨nofun, fun _ => rfl⟩
      · rw [hmore hms]
        exact ih hclear

end Search

/-- The bytes that the reader makes of a character. -/
def JsonChar.read : JsonChar → Bytes
  | .plain c _ _ _ => [c]
  | .escape e => [unescapeByte e.mark]
  | .unicode a b c d => [117, a.1, b.1, c.1, d.1]

/-- The reader reads a string to its closing quote. -/
theorem readJsonString_eq (cs : List JsonChar) (rest : Bytes) :
    readJsonString (jsonRaw cs ++ 34 :: rest) = cs.flatMap JsonChar.read := by
  induction cs with
  | nil => rfl
  | cons c cs ih =>
    have hplain : ∀ {x : Byte} (t : Bytes), x ≠ 34 → x ≠ 92 → readJsonString (x :: t) = x :: readJsonString t := by
      intro x t hquote hbackslash
      rw [readJsonString, if_neg hquote]
      exact fun _ _ h _ => hbackslash h
    have hhex : ∀ (d : HexDigit) (t : Bytes), readJsonString (d.1 :: t) = d.1 :: readJsonString t := by
      intro d t
      apply hplain t d.ne_quote
      intro h
      have hd := d.2
      rw [h] at hd
      exact absurd hd (by decide)
    rw [jsonRaw_cons, List.append_assoc, List.flatMap_cons, ← ih]
    cases c with
    | plain c hquote hbackslash _ => exact hplain _ hquote hbackslash
    | escape e => rfl
    | unicode a b c d =>
      change 117 :: readJsonString (a.1 :: b.1 :: c.1 :: d.1 :: (jsonRaw cs ++ 34 :: rest)) = _
      rw [hhex, hhex, hhex, hhex]
      rfl

/-- The reader knows the escapes of a string. -/
def JsonChar.Readable : JsonChar → Prop
  | .plain _ _ _ _ => True
  | .escape e => unescapeByte e.mark = e.byte
  | .unicode _ _ _ _ => False

/-- The reader knows the escapes of a value. -/
def JsonValue.Readable : JsonValue → Prop
  | .string cs => ∀ c ∈ cs, c.Readable
  | .integer _ => True

instance : ∀ c : JsonChar, Decidable c.Readable
  | .plain _ _ _ _ => inferInstanceAs (Decidable True)
  | .escape e => inferInstanceAs (Decidable (unescapeByte e.mark = e.byte))
  | .unicode _ _ _ _ => inferInstanceAs (Decidable False)

instance : ∀ v : JsonValue, Decidable v.Readable
  | .string cs => inferInstanceAs (Decidable (∀ c ∈ cs, c.Readable))
  | .integer _ => inferInstanceAs (Decidable True)

/-- The reader decodes a string whose escapes it knows. -/
theorem readJsonString_raw {cs : List JsonChar} (h : ∀ c ∈ cs, c.Readable) (rest : Bytes) :
    readJsonString (jsonRaw cs ++ 34 :: rest) = jsonDecode cs := by
  rw [readJsonString_eq]
  induction cs with
  | nil => rfl
  | cons c cs ih =>
    have hcs := ih fun c hc => h c (List.mem_cons_of_mem _ hc)
    have hc := h c List.mem_cons_self
    rw [List.flatMap_cons, hcs]
    cases c with
    | plain c _ _ _ => rfl
    | escape e => exact congrArg (· :: jsonDecode cs) hc
    | unicode a b c d => exact hc.elim

/-- A value does not start with white space. -/
theorem JsonValue.text_eq_cons (v : JsonValue) : ∃ c t, v.text = c :: t ∧ isSpace c = false := by
  have hdecimal : ∀ n : ℕ, ∃ c t, decimal n = c :: t ∧ isSpace c = false := by
    intro n
    obtain ⟨c, t, hn, hdigit⟩ := exists_decimal_eq_cons n
    exact ⟨c, t, hn, isSpace_of_isDigit hdigit⟩
  cases v with
  | string cs => exact ⟨34, _, rfl, rfl⟩
  | integer n =>
    change ∃ c t, decimalInt n = c :: t ∧ _
    unfold decimalInt
    split
    · exact ⟨45, _, rfl, rfl⟩
    · exact hdecimal _

/-- What the reader finds behind a key that is clear in an object. -/
theorem afterKey_text {key : Bytes} (hkey : IsFieldName key) {obj : JsonObject} (hclear : KeyClear key obj.members) :
    (∀ v, obj.own key = some v → ∃ (b : JsonBlank) (c : Byte) (rest : Bytes), EndsMember c ∧
      afterKey obj.text key = some (v.text ++ (b.1 ++ c :: rest))) ∧
    (obj.own key = none → afterKey obj.text key = none) := by
  have hopen : 34 ∉ obj.before.1 ++ 123 :: obj.inside.1 := by
    rw [List.mem_append, List.mem_cons, not_or, not_or]
    exact ⟨obj.before.not_mem (by decide), by decide, obj.inside.not_mem (by decide)⟩
  have htext : obj.text = (obj.before.1 ++ 123 :: obj.inside.1) ++ (membersText obj.members ++ 125 :: obj.after.1) := by
    simp [JsonObject.text]
  obtain ⟨hsome, hnone⟩ := afterFirst_membersText hkey hclear obj.after.1
  unfold afterKey JsonObject.own memberValue
  rw [htext, afterFirst_append_of_not_mem hopen]
  cases hfind : obj.members.find? fun m => jsonDecode m.key = key with
  | none =>
    refine ⟨nofun, fun _ => ?_⟩
    have hafter := @afterFirst_append_of_not_mem 34 (key ++ [34]) obj.after.1 [] (obj.after.not_mem (by decide))
    rw [List.append_nil] at hafter
    rw [hnone hfind, hafter]
    rfl
  | some m =>
    refine ⟨fun v hv => ?_, nofun⟩
    cases hv
    obtain ⟨c, rest, hc, hfirst⟩ := hsome m hfind
    refine ⟨m.afterValue, c, rest, hc, ?_⟩
    have hcolon : afterFirst [58] (m.tail ++ c :: rest) =
        some (m.beforeValue.1 ++ (m.value.text ++ (m.afterValue.1 ++ c :: rest))) := by
      rw [m.tail_append, List.append_assoc, List.cons_append,
        afterFirst_append_of_not_mem (m.beforeColon.not_mem (by decide))]
      exact afterFirst_self [] _
    have hblanks : ∀ d ∈ m.beforeValue.1, isSpace d = true := by
      intro d hd
      rcases m.beforeValue.2 d hd with rfl | rfl | rfl | rfl <;> rfl
    obtain ⟨d, t, hvalue, hspace⟩ := m.value.text_eq_cons
    rw [hfirst]
    change (afterFirst [58] (m.tail ++ c :: rest)).bind _ = _
    rw [hcolon]
    change some (List.dropWhile isSpace _) = _
    rw [List.dropWhile_append_of_pos hblanks, hvalue, List.cons_append, List.dropWhile_cons_of_neg (by simp [hspace])]

/-- `json_string_field` reads an object's own member. -/
theorem jsonStringField_text {key : Bytes} (hkey : IsFieldName key) {obj : JsonObject}
    (hclear : KeyClear key obj.members) (hreadable : ∀ v ∈ obj.own key, v.Readable) :
    jsonStringField obj.text key = ((obj.own key).bind JsonValue.asString).getD [] := by
  obtain ⟨hsome, hnone⟩ := afterKey_text hkey hclear
  unfold jsonStringField
  cases hown : obj.own key with
  | none =>
    rw [hnone hown]
    rfl
  | some v =>
    obtain ⟨b, c, rest, hc, hafter⟩ := hsome v hown
    rw [hafter]
    cases v with
    | string cs =>
      have hquoted : (JsonValue.string cs).text ++ (b.1 ++ c :: rest) =
          34 :: (jsonRaw cs ++ 34 :: (b.1 ++ c :: rest)) := by simp [JsonValue.text]
      rw [hquoted]
      exact readJsonString_raw (hreadable _ hown) _
    | integer n =>
      obtain ⟨d, t, hvalue, -⟩ := (JsonValue.integer n).text_eq_cons
      have hd : d ≠ 34 := by
        rintro rfl
        have hmem : 34 ∈ decimalInt n := by
          change 34 ∈ (JsonValue.integer n).text
          rw [hvalue]
          exact List.mem_cons_self
        exact quote_not_mem_decimalInt n hmem
      rw [hvalue, List.cons_append]
      split
      · next heq => exact absurd (List.cons.inj (Option.some.inj heq)).1 hd
      · rfl

/-- Digits are read up to the first other byte. -/
theorem readJsonDigits_append {digits : Bytes} (hdigits : ∀ c ∈ digits, isDigit c = true) {c : Byte}
    (hc : isDigit c = false) (rest : Bytes) {v r : ℕ} (h : readJsonDigits v (digits ++ c :: rest) = some r) :
    r = digits.foldl (fun n c => 10 * n + (c.toNat - 48)) v := by
  induction digits generalizing v with
  | nil =>
    rw [List.nil_append, readJsonDigits, hc] at h
    exact (Option.some.inj h).symm
  | cons d digits ih =>
    rw [List.cons_append, readJsonDigits, if_pos (hdigits d List.mem_cons_self)] at h
    dsimp only at h
    split at h
    · rw [List.foldl_cons, Nat.mul_comm]
      exact ih (fun c hc => hdigits c (List.mem_cons_of_mem _ hc)) h
    · cases h

/-- `json_number_field` reads an object's own member, unless it is undefined. -/
theorem jsonNumberField_text {key : Bytes} (hkey : IsFieldName key) {obj : JsonObject}
    (hclear : KeyClear key obj.members) {n : ℤ} (hown : obj.own key = some (.integer n)) {v : ℤ}
    (hv : jsonNumberField obj.text key = some v) : v = n := by
  obtain ⟨b, c, rest, hc, hafter⟩ := (afterKey_text hkey hclear).1 _ hown
  have hdecimal : ∀ {k r : ℕ}, readJsonDigits 0 (decimal k ++ (b.1 ++ c :: rest)) = some r → r = k := by
    intro k r h
    rw [← digitsValue_decimal k]
    cases hb : b.1 with
    | nil =>
      rw [hb] at h
      exact readJsonDigits_append (fun _ => isDigit_of_mem_decimal) (by rcases hc with rfl | rfl <;> rfl) _ h
    | cons d ds =>
      rw [hb] at h
      apply readJsonDigits_append (fun _ => isDigit_of_mem_decimal) _ _ h
      rcases b.2 d (hb ▸ List.mem_cons_self) with rfl | rfl | rfl | rfl <;> rfl
  unfold jsonNumberField at hv
  rw [hafter] at hv
  change readJsonNumber (decimalInt n ++ _) = some v at hv
  unfold decimalInt at hv
  split at hv
  · next hneg =>
    obtain ⟨r, hr, rfl⟩ := Option.map_eq_some_iff.mp hv
    rw [hdecimal hr]
    omega
  · next hpos =>
    unfold readJsonNumber at hv
    split at hv
    · next heq =>
      exfalso
      obtain ⟨d, t, hn, hdigit⟩ := exists_decimal_eq_cons n.natAbs
      have hminus : d = 45 := by
        rw [hn] at heq
        exact (List.cons.inj heq).1
      rw [hminus] at hdigit
      cases hdigit
    · obtain ⟨r, hr, rfl⟩ := Option.map_eq_some_iff.mp hv
      rw [hdecimal hr]
      omega

end ZeroTrust
