import ZeroTrust.WebUi.JsonText

/-!
# The JSON writer

`json_escape` spells a string: its bytes as characters of a JSON string that decode to them. Bytes
from `0x80` on are copied.
-/

namespace ZeroTrust

/-- A digit of `%x`. -/
def lowerHexDigit (n : ℕ) : Byte := if n < 10 then (48 + n).toUInt8 else (87 + n).toUInt8

/-- The spelling of a byte in `json_escape`; a control byte goes through `"\\u%04x"`. -/
def escapeByte (c : Byte) : Bytes :=
  if c = 34 then [92, 34]
  else if c = 92 then [92, 92]
  else if c = 10 then [92, 110]
  else if c = 13 then [92, 114]
  else if c = 9 then [92, 116]
  else if c < 0x20 then [92, 117, 48, 48, lowerHexDigit (c.toNat / 16), lowerHexDigit (c.toNat % 16)]
  else [c]

/-- `json_escape`. -/
def jsonEscape (s : Bytes) : Bytes := s.flatMap escapeByte

/-- The elements of `json_string_array`, separated by commas. -/
def quotedElements : List Bytes → Bytes
  | [] => []
  | [v] => 34 :: jsonEscape v ++ [34]
  | v :: v' :: vs => 34 :: jsonEscape v ++ [34] ++ 44 :: quotedElements (v' :: vs)

/-- `json_string_array`. -/
def jsonStringArray (values : List Bytes) : Bytes := 91 :: quotedElements values ++ [93]

/-- A digit of the writer is one of the reader. -/
theorem lowerHexDigit_spec (n : ℕ) (h : n < 16) :
    (isDigit (lowerHexDigit n) || (65 ≤ lowerHexDigit n && lowerHexDigit n ≤ 70) ||
      (97 ≤ lowerHexDigit n && lowerHexDigit n ≤ 102)) = true := by
  have hall : ∀ m < 16, (isDigit (lowerHexDigit m) || (65 ≤ lowerHexDigit m && lowerHexDigit m ≤ 70) ||
      (97 ≤ lowerHexDigit m && lowerHexDigit m ≤ 102)) = true := by decide
  exact hall n h

/-- The digit of a number below `16`. -/
def hexDigitOf (n : ℕ) (h : n < 16) : HexDigit := ⟨lowerHexDigit n, lowerHexDigit_spec n h⟩

/-- It has the value that was meant. -/
theorem hexDigitOf_value (n : ℕ) (h : n < 16) : (hexDigitOf n h).value = n := by
  have hall : ∀ m, ∀ hm : m < 16, (hexDigitOf m hm).value = m := by decide
  exact hall n h

/-- The base is not zero. -/
theorem zero_lt_base : 0 < 16 := by omega

/-- The last digit of a byte. -/
theorem mod_lt_base (c : Byte) : c.toNat % 16 < 16 := by omega

/-- The first digit of a control character. -/
theorem lt_sixteen_of_control {c : Byte} (h : c < 0x20) : c.toNat / 16 < 16 := by
  have hlt : c.toNat < 32 := h
  omega

/-- The character that `json_escape` writes for a byte. -/
def escapedChar (c : Byte) : JsonChar :=
  if hquote : c = 34 then .escape .quote
  else if hbackslash : c = 92 then .escape .backslash
  else if c = 10 then .escape .lineFeed
  else if c = 13 then .escape .carriageReturn
  else if c = 9 then .escape .tab
  else if hcontrol : c < 0x20 then
    .unicode (hexDigitOf 0 zero_lt_base) (hexDigitOf 0 zero_lt_base)
      (hexDigitOf (c.toNat / 16) (lt_sixteen_of_control hcontrol)) (hexDigitOf (c.toNat % 16) (mod_lt_base c))
  else .plain c hquote hbackslash (UInt8.not_lt.mp hcontrol)

/-- The writer spells a byte as this character. -/
theorem raw_escapedChar (c : Byte) : (escapedChar c).raw = escapeByte c := by
  unfold escapedChar escapeByte
  split_ifs <;> rfl

/-- What `json_escape` writes is a spelling. -/
theorem jsonRaw_escapedChar (s : Bytes) : jsonRaw (s.map escapedChar) = jsonEscape s := by
  rw [jsonRaw, jsonEscape, List.flatMap_map]
  exact List.flatMap_congr fun c _ => raw_escapedChar c

/-- A control byte is its own encoding. -/
theorem utf8Encode_control {c : Byte} (h : c < 0x20) :
    utf8Encode (codeUnit (hexDigitOf 0 zero_lt_base) (hexDigitOf 0 zero_lt_base)
      (hexDigitOf (c.toNat / 16) (lt_sixteen_of_control h)) (hexDigitOf (c.toNat % 16) (mod_lt_base c))) = [c] := by
  have hlt : c.toNat < 32 := h
  have hunit : codeUnit (hexDigitOf 0 zero_lt_base) (hexDigitOf 0 zero_lt_base)
      (hexDigitOf (c.toNat / 16) (lt_sixteen_of_control h)) (hexDigitOf (c.toNat % 16) (mod_lt_base c)) = c.toNat := by
    simp only [codeUnit, hexDigitOf_value]
    omega
  rw [hunit, utf8Encode, if_pos (by omega)]
  simp

/-- A code unit that is no surrogate is decoded on its own. -/
theorem jsonDecode_unicode {a b c d : HexDigit} (h : codeUnit a b c d < 0xD800) (cs : List JsonChar) :
    jsonDecode (.unicode a b c d :: cs) = utf8Encode (codeUnit a b c d) ++ jsonDecode cs := by
  cases cs with
  | nil => rfl
  | cons next cs =>
    cases next with
    | plain x _ _ _ => rfl
    | escape e => rfl
    | unicode a' b' c' d' =>
      rw [jsonDecode, if_neg (by omega)]

/-- An escaped byte is decoded to itself. -/
theorem jsonDecode_escapedChar_cons (c : Byte) (cs : List JsonChar) :
    jsonDecode (escapedChar c :: cs) = c :: jsonDecode cs := by
  unfold escapedChar
  split_ifs with hquote hbackslash hnewline hreturn htab hcontrol
  · rw [hquote]
    rfl
  · rw [hbackslash]
    rfl
  · rw [hnewline]
    rfl
  · rw [hreturn]
    rfl
  · rw [htab]
    rfl
  · rw [jsonDecode_unicode, utf8Encode_control hcontrol]
    · rfl
    · simp only [codeUnit, hexDigitOf_value]
      have hlt : c.toNat < 32 := hcontrol
      omega
  · rfl

/-- The spelling stands for the string. -/
theorem jsonDecode_escapedChar (s : Bytes) : jsonDecode (s.map escapedChar) = s := by
  induction s with
  | nil => rfl
  | cons c s ih => rw [List.map_cons, jsonDecode_escapedChar_cons, ih]

/-- A spelled character contains no control byte. -/
theorem JsonChar.le_of_mem_raw {ch : JsonChar} {c : Byte} (h : c ∈ ch.raw) : 32 ≤ c := by
  have hhex : ∀ d : HexDigit, 32 ≤ d.1 := by
    intro d
    have hd := d.2
    simp only [isDigit, Bool.or_eq_true, Bool.and_eq_true, decide_eq_true_eq] at hd
    rcases hd with (hd | hd) | hd
    · exact UInt8.le_trans (by decide) hd.1
    · exact UInt8.le_trans (by decide) hd.1
    · exact UInt8.le_trans (by decide) hd.1
  cases ch with
  | plain x _ _ hcontrol =>
    rw [List.mem_singleton.mp h]
    exact hcontrol
  | escape e =>
    rcases List.mem_cons.mp h with rfl | hmark
    · decide
    · rw [List.mem_singleton.mp hmark]
      cases e <;> decide
  | unicode a b x d =>
    simp only [raw, List.mem_cons, List.not_mem_nil, or_false] at h
    rcases h with rfl | rfl | rfl | rfl | rfl | rfl
    · decide
    · decide
    · exact hhex a
    · exact hhex b
    · exact hhex x
    · exact hhex d

/-- Nothing that `json_escape` writes is a control byte. -/
theorem le_of_mem_jsonEscape {s : Bytes} {c : Byte} (h : c ∈ jsonEscape s) : 32 ≤ c := by
  rw [← jsonRaw_escapedChar] at h
  obtain ⟨ch, -, hch⟩ := List.mem_flatMap.mp h
  exact ch.le_of_mem_raw hch

end ZeroTrust
