import ZeroTrust.Core.Bytes

/-!
# Texts of flat JSON objects

An object is kept together with the way it is spelled: which escapes its strings use and where its
blanks stand. Its text and its members are both read off, so that a reader of the text can be compared
with the members.
-/

namespace ZeroTrust

/-- The escapes that stand for one byte. -/
inductive JsonEscape
  | quote | backslash | slash | backspace | formFeed | lineFeed | carriageReturn | tab
deriving DecidableEq, Repr

/-- The byte behind the backslash. -/
def JsonEscape.mark : JsonEscape → Byte
  | .quote => 34
  | .backslash => 92
  | .slash => 47
  | .backspace => 98
  | .formFeed => 102
  | .lineFeed => 110
  | .carriageReturn => 114
  | .tab => 116

/-- The byte that is meant. -/
def JsonEscape.byte : JsonEscape → Byte
  | .quote => 34
  | .backslash => 92
  | .slash => 47
  | .backspace => 8
  | .formFeed => 12
  | .lineFeed => 10
  | .carriageReturn => 13
  | .tab => 9

/-- A hexadecimal digit as it is spelled. -/
def HexDigit : Type := { c : Byte // (isDigit c || (65 ≤ c && c ≤ 70) || (97 ≤ c && c ≤ 102)) = true }

/-- What the digit is worth. -/
def HexDigit.value (d : HexDigit) : ℕ :=
  if isDigit d.1 then d.1.toNat - 48 else if d.1 ≤ 70 then d.1.toNat - 55 else d.1.toNat - 87

/-- A character of a JSON string as it is spelled. -/
inductive JsonChar
  | plain (c : Byte) (quote : c ≠ 34) (backslash : c ≠ 92) (control : 32 ≤ c)
  | escape (e : JsonEscape)
  | unicode (a b c d : HexDigit)

/-- The spelling of a character. -/
def JsonChar.raw : JsonChar → Bytes
  | .plain c _ _ _ => [c]
  | .escape e => [92, e.mark]
  | .unicode a b c d => [92, 117, a.1, b.1, c.1, d.1]

/-- The UTF-8 encoding of a code point. -/
def utf8Encode (n : ℕ) : Bytes :=
  if n < 0x80 then [n.toUInt8]
  else if n < 0x800 then [(0xC0 + n / 0x40).toUInt8, (0x80 + n % 0x40).toUInt8]
  else if n < 0x10000 then [(0xE0 + n / 0x1000).toUInt8, (0x80 + n / 0x40 % 0x40).toUInt8, (0x80 + n % 0x40).toUInt8]
  else [(0xF0 + n / 0x40000).toUInt8, (0x80 + n / 0x1000 % 0x40).toUInt8, (0x80 + n / 0x40 % 0x40).toUInt8,
    (0x80 + n % 0x40).toUInt8]

/-- The code unit that four digits spell. -/
def codeUnit (a b c d : HexDigit) : ℕ := 4096 * a.value + 256 * b.value + 16 * c.value + d.value

/-- The bytes that a string stands for; two surrogates in a row are one code point. -/
def jsonDecode : List JsonChar → Bytes
  | [] => []
  | .plain c _ _ _ :: cs => c :: jsonDecode cs
  | .escape e :: cs => e.byte :: jsonDecode cs
  | .unicode a b c d :: .unicode a' b' c' d' :: cs =>
    let high := codeUnit a b c d
    let low := codeUnit a' b' c' d'
    if 0xD800 ≤ high ∧ high < 0xDC00 ∧ 0xDC00 ≤ low ∧ low < 0xE000 then
      utf8Encode (0x10000 + 0x400 * (high - 0xD800) + (low - 0xDC00)) ++ jsonDecode cs
    else utf8Encode high ++ jsonDecode (.unicode a' b' c' d' :: cs)
  | .unicode a b c d :: cs => utf8Encode (codeUnit a b c d) ++ jsonDecode cs

/-- The spelling of a string between its quotes. -/
def jsonRaw (cs : List JsonChar) : Bytes := cs.flatMap JsonChar.raw

/-- The value of a member. -/
inductive JsonValue
  | string (cs : List JsonChar)
  | integer (n : ℤ)

/-- The spelling of a value. -/
def JsonValue.text : JsonValue → Bytes
  | .string cs => 34 :: jsonRaw cs ++ [34]
  | .integer n => decimalInt n

/-- The string that a value is, if it is one. -/
def JsonValue.asString : JsonValue → Option Bytes
  | .string cs => some (jsonDecode cs)
  | .integer _ => none

/-- White space between tokens. -/
def JsonBlank : Type := { s : Bytes // ∀ c ∈ s, c = 32 ∨ c = 9 ∨ c = 10 ∨ c = 13 }

/-- A member with the blanks around its tokens. -/
structure JsonMember where
  key : List JsonChar
  value : JsonValue
  beforeKey : JsonBlank
  beforeColon : JsonBlank
  beforeValue : JsonBlank
  afterValue : JsonBlank

/-- What follows the quoted key of a member. -/
def JsonMember.tail (m : JsonMember) : Bytes :=
  m.beforeColon.1 ++ 58 :: (m.beforeValue.1 ++ m.value.text ++ m.afterValue.1)

/-- The spelling of a member. -/
def JsonMember.text (m : JsonMember) : Bytes := m.beforeKey.1 ++ 34 :: (jsonRaw m.key ++ 34 :: m.tail)

/-- The spelling of members separated by commas. -/
def membersText : List JsonMember → Bytes
  | [] => []
  | [m] => m.text
  | m :: m' :: ms => m.text ++ 44 :: membersText (m' :: ms)

/-- A flat object: its members have distinct keys. -/
structure JsonObject where
  members : List JsonMember
  before : JsonBlank
  inside : JsonBlank
  after : JsonBlank
  distinct : (members.map fun m => jsonDecode m.key).Nodup

/-- The spelling of an object. -/
def JsonObject.text (obj : JsonObject) : Bytes :=
  obj.before.1 ++ 123 :: (obj.inside.1 ++ membersText obj.members ++ 125 :: obj.after.1)

/-- The member with a key among some members. -/
def memberValue (key : Bytes) (ms : List JsonMember) : Option JsonValue :=
  (ms.find? fun m => jsonDecode m.key = key).map JsonMember.value

/-- The value of an object's own member. -/
def JsonObject.own (obj : JsonObject) (key : Bytes) : Option JsonValue := memberValue key obj.members

end ZeroTrust
