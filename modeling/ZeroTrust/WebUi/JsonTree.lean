import ZeroTrust.WebUi.JsonWriter

/-!
# Reading what the writer writes

A JSON reader, as it runs in a browser, for the texts that the server writes: objects whose members are
strings, numbers, arrays of strings or objects of strings, without blanks. Bytes from `0x80` on are
opaque. Every text is read back as the tree that was written.
-/

namespace ZeroTrust

/-- The escape with a mark. -/
def jsonEscapeOf (mark : Byte) : Option JsonEscape :=
  if mark = 34 then some .quote
  else if mark = 92 then some .backslash
  else if mark = 47 then some .slash
  else if mark = 98 then some .backspace
  else if mark = 102 then some .formFeed
  else if mark = 110 then some .lineFeed
  else if mark = 114 then some .carriageReturn
  else if mark = 116 then some .tab
  else none

/-- A hexadecimal digit, if the byte is one. -/
def hexDigit? (c : Byte) : Option HexDigit :=
  if h : (isDigit c || (65 ≤ c && c ≤ 70) || (97 ≤ c && c ≤ 102)) = true then some ⟨c, h⟩ else none

section Copied

variable {c : Byte}

/-- What is copied is no quote. -/
theorem ne_quote_of_copied (h : c ≠ 34 ∧ c ≠ 92 ∧ 32 ≤ c) : c ≠ 34 := h.1

/-- It is no backslash. -/
theorem ne_backslash_of_copied (h : c ≠ 34 ∧ c ≠ 92 ∧ 32 ≤ c) : c ≠ 92 := h.2.1

/-- It is no control character. -/
theorem no_control_of_copied (h : c ≠ 34 ∧ c ≠ 92 ∧ 32 ≤ c) : 32 ≤ c := h.2.2

end Copied

/-- The characters of a string up to its closing quote. -/
def readJsonChars : Bytes → Option (List JsonChar × Bytes)
  | [] => none
  | 34 :: rest => some ([], rest)
  | 92 :: 117 :: a :: b :: c :: d :: rest => do
    let a ← hexDigit? a
    let b ← hexDigit? b
    let c ← hexDigit? c
    let d ← hexDigit? d
    let (cs, rest) ← readJsonChars rest
    return (.unicode a b c d :: cs, rest)
  | 92 :: mark :: rest => do
    let e ← jsonEscapeOf mark
    let (cs, rest) ← readJsonChars rest
    return (.escape e :: cs, rest)
  | c :: rest =>
    if h : c ≠ 34 ∧ c ≠ 92 ∧ 32 ≤ c then do
      let (cs, rest) ← readJsonChars rest
      return (.plain c (ne_quote_of_copied h) (ne_backslash_of_copied h) (no_control_of_copied h) :: cs, rest)
    else none

/-- The string that is spelled up to the closing quote. -/
def readQuoted (s : Bytes) : Option (Bytes × Bytes) := (readJsonChars s).map fun (cs, rest) => (jsonDecode cs, rest)

/-- An escape is known by its mark. -/
theorem jsonEscapeOf_mark (e : JsonEscape) : jsonEscapeOf e.mark = some e := by
  cases e <;> rfl

/-- A digit is known by its byte. -/
theorem hexDigit?_val (d : HexDigit) : hexDigit? d.1 = some d := by
  rw [hexDigit?, dif_pos d.2]
  rfl

/-- Every spelling is read back. -/
theorem readJsonChars_jsonRaw (cs : List JsonChar) (rest : Bytes) :
    readJsonChars (jsonRaw cs ++ 34 :: rest) = some (cs, rest) := by
  induction cs with
  | nil => rfl
  | cons c cs ih =>
    change readJsonChars (c.raw ++ jsonRaw cs ++ 34 :: rest) = _
    rw [List.append_assoc]
    cases c with
    | plain c hquote hbackslash hcontrol =>
      change readJsonChars (c :: (jsonRaw cs ++ 34 :: rest)) = _
      rw [readJsonChars, dif_pos ⟨hquote, hbackslash, hcontrol⟩, ih]
      · rfl
      · exact hquote
      · intro a b x d more hc
        exact absurd hc hbackslash
      · intro mark more hc
        exact absurd hc hbackslash
    | escape e =>
      change readJsonChars (92 :: e.mark :: (jsonRaw cs ++ 34 :: rest)) = _
      rw [readJsonChars, jsonEscapeOf_mark, ih]
      · rfl
      · intro a b x d more hmark
        cases e <;> cases hmark
    | unicode a b x d =>
      change readJsonChars (92 :: 117 :: a.1 :: b.1 :: x.1 :: d.1 :: (jsonRaw cs ++ 34 :: rest)) = _
      rw [readJsonChars, hexDigit?_val, hexDigit?_val, hexDigit?_val, hexDigit?_val, ih]
      rfl

/-- The reader recovers a string from what `json_escape` makes of it. -/
theorem readQuoted_jsonEscape (s rest : Bytes) : readQuoted (jsonEscape s ++ 34 :: rest) = some (s, rest) := by
  rw [readQuoted, ← jsonRaw_escapedChar, readJsonChars_jsonRaw, Option.map_some]
  exact congrArg (fun t => some (t, rest)) (jsonDecode_escapedChar s)

section Sequence

variable {α : Type}

/-- Items separated by commas up to a closing byte. -/
def readItems (read : Bytes → Option (α × Bytes)) (close : Byte) : ℕ → Bytes → Option (List α × Bytes)
  | 0, _ => none
  | n + 1, s => do
    let (item, s) ← read s
    match s with
    | 44 :: s =>
      let (items, s) ← readItems read close n s
      return (item :: items, s)
    | c :: s => if c = close then return ([item], s) else none
    | [] => none

/-- A sequence that may be empty. -/
def readSequence (read : Bytes → Option (α × Bytes)) (close : Byte) (s : Bytes) : Option (List α × Bytes) :=
  match s with
  | c :: rest => if c = close then some ([], rest) else readItems read close s.length s
  | [] => none

/-- Items separated by commas, in front of a text. -/
def writeItems (write : α → Bytes → Bytes) : List α → Bytes → Bytes
  | [], rest => rest
  | [item], rest => write item rest
  | item :: item' :: items, rest => write item (44 :: writeItems write (item' :: items) rest)

/-- Good items are read back in front of anything that can follow them, and are not empty. -/
structure ReadsBack (good : α → Prop) (read : Bytes → Option (α × Bytes)) (write : α → Bytes → Bytes) : Prop where
  back : ∀ item, good item → ∀ c rest, c = 44 ∨ c = 93 ∨ c = 125 →
    read (write item (c :: rest)) = some (item, c :: rest)
  starts : ∀ item, good item → ∀ rest, ∃ c t, write item rest = c :: t ∧ c ≠ 93 ∧ c ≠ 125
  longer : ∀ item, good item → ∀ rest, rest.length < (write item rest).length

variable {good : α → Prop} {read : Bytes → Option (α × Bytes)} {write : α → Bytes → Bytes} {close : Byte}

/-- Items that are read back one by one are read back as a list. -/
theorem readItems_writeItems (hback : ReadsBack good read write) (hclose : close = 93 ∨ close = 125) {items : List α}
    (hgood : ∀ item ∈ items, good item) (hne : items ≠ []) (rest : Bytes) {n : ℕ}
    (hn : (writeItems write items (close :: rest)).length ≤ n) :
    readItems read close n (writeItems write items (close :: rest)) = some (items, rest) := by
  induction items generalizing n with
  | nil => exact absurd rfl hne
  | cons item items ih =>
    have hitem := hgood item List.mem_cons_self
    cases n with
    | zero =>
      cases items with
      | nil =>
        have hlonger := hback.longer item hitem (close :: rest)
        rw [writeItems] at hn
        omega
      | cons item' items =>
        have hlonger := hback.longer item hitem (44 :: writeItems write (item' :: items) (close :: rest))
        rw [writeItems] at hn
        omega
    | succ n =>
      cases items with
      | nil =>
        rw [writeItems, readItems, hback.back item hitem close rest (.inr hclose)]
        rcases hclose with rfl | rfl <;> rfl
      | cons item' items =>
        have hlonger := hback.longer item hitem (44 :: writeItems write (item' :: items) (close :: rest))
        rw [writeItems] at hn
        rw [List.length_cons] at hlonger
        have hmore := ih (fun i hi => hgood i (List.mem_cons_of_mem _ hi)) (by simp) (n := n) (by omega)
        rw [writeItems, readItems, hback.back item hitem 44 _ (.inl rfl)]
        change (readItems read close n (writeItems write (item' :: items) (close :: rest))).bind _ = _
        rw [hmore]
        rfl

/-- A sequence is not shorter than what stands behind it. -/
theorem length_writeItems_ge (hback : ReadsBack good read write) {items : List α}
    (hgood : ∀ item ∈ items, good item) (rest : Bytes) : rest.length ≤ (writeItems write items rest).length := by
  induction items with
  | nil => exact Nat.le_refl _
  | cons item items ih =>
    have hitem := hgood item List.mem_cons_self
    cases items with
    | nil => exact (hback.longer item hitem rest).le
    | cons item' items =>
      have hmore := ih fun i hi => hgood i (List.mem_cons_of_mem _ hi)
      have hlonger := hback.longer item hitem (44 :: writeItems write (item' :: items) rest)
      rw [List.length_cons] at hlonger
      rw [writeItems]
      omega

/-- A sequence is read back. -/
theorem readSequence_writeItems (hback : ReadsBack good read write) (hclose : close = 93 ∨ close = 125)
    {items : List α} (hgood : ∀ item ∈ items, good item) (rest : Bytes) :
    readSequence read close (writeItems write items (close :: rest)) = some (items, rest) := by
  cases items with
  | nil =>
    change readSequence read close (close :: rest) = _
    rw [readSequence, if_pos rfl]
  | cons item items =>
    have hstart : ∃ c t, writeItems write (item :: items) (close :: rest) = c :: t ∧ c ≠ close := by
      have hitem := hback.starts item (hgood item List.mem_cons_self)
      cases items with
      | nil =>
        obtain ⟨c, t, htext, hc⟩ := hitem (close :: rest)
        exact ⟨c, t, htext, by rcases hclose with rfl | rfl; exacts [hc.1, hc.2]⟩
      | cons item' items =>
        obtain ⟨c, t, htext, hc⟩ := hitem (44 :: writeItems write (item' :: items) (close :: rest))
        exact ⟨c, t, htext, by rcases hclose with rfl | rfl; exacts [hc.1, hc.2]⟩
    obtain ⟨c, t, htext, hc⟩ := hstart
    have hitems := readItems_writeItems hback hclose hgood (by simp) rest (Nat.le_refl _)
    rw [htext] at hitems ⊢
    rw [readSequence, if_neg hc]
    exact hitems

end Sequence

/-- The value of a member. -/
inductive JsonNode
  | string (s : Bytes)
  | number (text : Bytes)
  | strings (values : List Bytes)
  | object (members : List (Bytes × Bytes))

/-- The bytes of a number. -/
def isNumberByte (c : Byte) : Bool := isDigit c || c == 43 || c == 45 || c == 46 || c == 101 || c == 69

/-- A quoted string. -/
def readJsonText : Bytes → Option (Bytes × Bytes)
  | 34 :: s => readQuoted s
  | _ => none

/-- A key, a colon and a value. -/
def readMember {α : Type} (read : Bytes → Option (α × Bytes)) (s : Bytes) : Option ((Bytes × α) × Bytes) := do
  let (key, s) ← readJsonText s
  match s with
  | 58 :: s =>
    let (value, s) ← read s
    return ((key, value), s)
  | _ => none

/-- A value. -/
def readNode (s : Bytes) : Option (JsonNode × Bytes) :=
  match s with
  | 34 :: rest => (readQuoted rest).map fun r => (.string r.1, r.2)
  | 91 :: rest => (readSequence readJsonText 93 rest).map fun r => (.strings r.1, r.2)
  | 123 :: rest => (readSequence (readMember readJsonText) 125 rest).map fun r => (.object r.1, r.2)
  | s =>
    if s.takeWhile isNumberByte = [] then none
    else some (.number (s.takeWhile isNumberByte), s.dropWhile isNumberByte)

/-- A text that is one object. -/
def readObject (s : Bytes) : Option (List (Bytes × JsonNode)) :=
  match s with
  | 123 :: rest =>
    match readSequence (readMember readNode) 125 rest with
    | some (members, []) => some members
    | _ => none
  | _ => none

/-- A string in front of a text. -/
def writeString (s rest : Bytes) : Bytes := 34 :: (jsonEscape s ++ 34 :: rest)

/-- A member in front of a text; its key is written as it is. -/
def writeMember {α : Type} (write : α → Bytes → Bytes) (member : Bytes × α) (rest : Bytes) : Bytes :=
  34 :: (member.1 ++ 34 :: 58 :: write member.2 rest)

/-- A value in front of a text. -/
def writeNode : JsonNode → Bytes → Bytes
  | .string s, rest => writeString s rest
  | .number text, rest => text ++ rest
  | .strings values, rest => 91 :: writeItems writeString values (93 :: rest)
  | .object members, rest => 123 :: writeItems (writeMember writeString) members (125 :: rest)

/-- The text of an object. -/
def writeObject (members : List (Bytes × JsonNode)) : Bytes :=
  123 :: writeItems (writeMember writeNode) members [125]

/-- A key that `json_escape` would not change. -/
def PlainKey (key : Bytes) : Prop := jsonEscape key = key

/-- A value whose numbers and keys are written as they are. -/
def JsonNode.Plain : JsonNode → Prop
  | .string _ | .strings _ => True
  | .number text => text ≠ [] ∧ ∀ c ∈ text, isNumberByte c = true
  | .object members => ∀ member ∈ members, PlainKey member.1

/-- Every string is read back. -/
theorem readsBack_string : ReadsBack (fun _ => True) readJsonText writeString where
  back s _ c rest _ := readQuoted_jsonEscape s (c :: rest)
  starts s _ rest := ⟨34, _, rfl, by decide, by decide⟩
  longer s _ rest := by
    simp only [writeString, List.length_cons, List.length_append]
    omega

/-- Members are read back if their values are. -/
theorem readsBack_member {α : Type} {good : α → Prop} {read : Bytes → Option (α × Bytes)} {write : α → Bytes → Bytes}
    (hback : ReadsBack good read write) :
    ReadsBack (fun member => PlainKey member.1 ∧ good member.2) (readMember read) (writeMember write) where
  back member hmember c rest hc := by
    obtain ⟨key, value⟩ := member
    have hkey : readJsonText (writeMember write (key, value) (c :: rest)) =
        some (key, 58 :: write value (c :: rest)) := by
      have hquoted := readQuoted_jsonEscape key (58 :: write value (c :: rest))
      rw [show jsonEscape key = key from hmember.1] at hquoted
      exact hquoted
    have hvalue := hback.back value hmember.2 c rest hc
    rw [readMember, hkey]
    change (read (write value (c :: rest))).bind _ = _
    rw [hvalue]
    rfl
  starts member _ rest := ⟨34, _, rfl, by decide, by decide⟩
  longer member hmember rest := by
    have hlonger := hback.longer member.2 hmember.2 rest
    simp only [writeMember, List.length_cons, List.length_append]
    omega

/-- A number is read up to what follows it. -/
theorem readNode_number {text : Bytes} (hne : text ≠ []) (hbytes : ∀ c ∈ text, isNumberByte c = true) {c : Byte}
    (hc : c = 44 ∨ c = 93 ∨ c = 125) (rest : Bytes) :
    readNode (text ++ c :: rest) = some (.number text, c :: rest) := by
  have hstop : isNumberByte c = false := by rcases hc with rfl | rfl | rfl <;> rfl
  have htake : (text ++ c :: rest).takeWhile isNumberByte = text := by
    rw [List.takeWhile_append_of_pos hbytes, List.takeWhile_cons_of_neg (by simp [hstop]), List.append_nil]
  have hdrop : (text ++ c :: rest).dropWhile isNumberByte = c :: rest := by
    rw [List.dropWhile_append_of_pos hbytes, List.dropWhile_cons_of_neg (by simp [hstop])]
  have hother : ∀ d : Byte, isNumberByte d = false → ∀ t, text ++ c :: rest ≠ d :: t := by
    intro d hd t heq
    cases text with
    | nil => exact hne rfl
    | cons x text =>
      have hx := hbytes x List.mem_cons_self
      rw [(List.cons.inj heq).1, hd] at hx
      cases hx
  rw [readNode]
  · rw [htake, hdrop, if_neg hne]
  · exact hother 34 rfl
  · exact hother 91 rfl
  · exact hother 123 rfl

/-- Every plain node is read back. -/
theorem readsBack_node : ReadsBack JsonNode.Plain readNode writeNode where
  back node hnode c rest hc := by
    cases node with
    | string s =>
      change (readQuoted (jsonEscape s ++ 34 :: c :: rest)).map _ = _
      rw [readQuoted_jsonEscape]
      rfl
    | strings values =>
      change (readSequence readJsonText 93 (writeItems writeString values (93 :: c :: rest))).map _ = _
      rw [readSequence_writeItems readsBack_string (.inl rfl) fun _ _ => trivial]
      rfl
    | object members =>
      change (readSequence (readMember readJsonText) 125
        (writeItems (writeMember writeString) members (125 :: c :: rest))).map _ = _
      rw [readSequence_writeItems (readsBack_member readsBack_string) (.inr rfl) fun m hm => ⟨hnode m hm, trivial⟩]
      rfl
    | number text => exact readNode_number hnode.1 hnode.2 hc rest
  starts node hnode rest := by
    cases node with
    | string s => exact ⟨34, _, rfl, by decide, by decide⟩
    | strings values => exact ⟨91, _, rfl, by decide, by decide⟩
    | object members => exact ⟨123, _, rfl, by decide, by decide⟩
    | number text =>
      obtain ⟨hne, hbytes⟩ := hnode
      cases text with
      | nil => exact absurd rfl hne
      | cons c t =>
        have hc := hbytes c List.mem_cons_self
        refine ⟨c, t ++ rest, rfl, ?_, ?_⟩
        · rintro rfl
          cases hc
        · rintro rfl
          cases hc
  longer node hnode rest := by
    cases node with
    | string s => exact readsBack_string.longer s trivial rest
    | strings values =>
      have hitems := length_writeItems_ge readsBack_string (fun _ (_ : _ ∈ values) => trivial) (93 :: rest)
      simp only [writeNode, List.length_cons] at hitems ⊢
      omega
    | object members =>
      have hitems := length_writeItems_ge (readsBack_member readsBack_string) 
        (fun m hm => ⟨hnode m hm, trivial⟩) (125 :: rest)
      simp only [writeNode, List.length_cons] at hitems ⊢
      omega
    | number text =>
      have hpos := List.length_pos_iff.mpr hnode.1
      simp only [writeNode, List.length_append]
      omega

/-- The reader recovers the members of an object. -/
theorem readObject_writeObject {members : List (Bytes × JsonNode)}
    (hmembers : ∀ member ∈ members, PlainKey member.1 ∧ member.2.Plain) :
    readObject (writeObject members) = some members := by
  change (match readSequence (readMember readNode) 125 (writeItems (writeMember writeNode) members [125]) with
    | some (members, []) => some members | _ => none) = _
  rw [readSequence_writeItems (readsBack_member readsBack_node) (.inr rfl) hmembers]

/-- A text without control bytes. -/
def Printable (s : Bytes) : Prop := ∀ c ∈ s, 32 ≤ c

/-- One more character that can be printed. -/
theorem Printable.cons {c : Byte} {s : Bytes} (hc : 32 ≤ c) (hs : Printable s) : Printable (c :: s) :=
  List.forall_mem_cons.mpr ⟨hc, hs⟩

/-- Two texts that can be printed. -/
theorem Printable.append {s t : Bytes} (hs : Printable s) (ht : Printable t) : Printable (s ++ t) :=
  List.forall_mem_append.mpr ⟨hs, ht⟩

/-- No control character is left. -/
theorem printable_jsonEscape (s : Bytes) : Printable (jsonEscape s) := fun _ => le_of_mem_jsonEscape

/-- A plain key can be printed. -/
theorem PlainKey.printable {key : Bytes} (h : PlainKey key) : Printable key := by
  have hescaped := printable_jsonEscape key
  rwa [show jsonEscape key = key from h] at hescaped

/-- What is written in front of a text without control bytes contains none. -/
def WritesPrintable {α : Type} (good : α → Prop) (write : α → Bytes → Bytes) : Prop :=
  ∀ item, good item → ∀ rest, Printable rest → Printable (write item rest)

/-- Items that can be printed one by one. -/
theorem printable_writeItems {α : Type} {good : α → Prop} {write : α → Bytes → Bytes}
    (hwrite : WritesPrintable good write) {items : List α} (hgood : ∀ item ∈ items, good item) {rest : Bytes}
    (hrest : Printable rest) : Printable (writeItems write items rest) := by
  induction items with
  | nil => exact hrest
  | cons item items ih =>
    have hitem := hwrite item (hgood item List.mem_cons_self)
    have hmore := ih fun i hi => hgood i (List.mem_cons_of_mem _ hi)
    cases items with
    | nil => exact hitem rest hrest
    | cons item' items => exact hitem _ (hmore.cons (by decide))

/-- Every string can be printed. -/
theorem printable_writeString : WritesPrintable (fun _ => True) writeString := by
  intro s _ rest hrest
  exact ((printable_jsonEscape s).append (hrest.cons (by decide))).cons (by decide)

/-- A member can be printed with its value. -/
theorem printable_writeMember {α : Type} {good : α → Prop} {write : α → Bytes → Bytes}
    (hwrite : WritesPrintable good write) :
    WritesPrintable (fun member => PlainKey member.1 ∧ good member.2) (writeMember write) := by
  intro member hmember rest hrest
  have hvalue := hwrite member.2 hmember.2 rest hrest
  exact (hmember.1.printable.append ((hvalue.cons (by decide)).cons (by decide))).cons (by decide)

/-- Numbers are spelled with digits, signs, a point and an exponent. -/
theorem le_of_isNumberByte {c : Byte} (h : isNumberByte c = true) : 32 ≤ c := by
  simp only [isNumberByte, isDigit, Bool.or_eq_true, Bool.and_eq_true, decide_eq_true_eq, beq_iff_eq] at h
  rcases h with ((((h | rfl) | rfl) | rfl) | rfl) | rfl
  · exact UInt8.le_trans (by decide) h.1
  all_goals decide

/-- Every plain node can be printed. -/
theorem printable_writeNode : WritesPrintable JsonNode.Plain writeNode := by
  intro node hnode rest hrest
  cases node with
  | string s => exact printable_writeString s trivial rest hrest
  | number text =>
    have htext : Printable text := fun c hc => le_of_isNumberByte (hnode.2 c hc)
    exact htext.append hrest
  | strings values =>
    have hvalues : Printable (writeItems writeString values (93 :: rest)) :=
      printable_writeItems printable_writeString (fun _ _ => trivial) (hrest.cons (by decide))
    exact hvalues.cons (by decide)
  | object members =>
    have hmembers : Printable (writeItems (writeMember writeString) members (125 :: rest)) :=
      printable_writeItems (printable_writeMember printable_writeString) (fun m hm => ⟨hnode m hm, trivial⟩)
        (hrest.cons (by decide))
    exact hmembers.cons (by decide)

/-- The text of an object contains no control byte. -/
theorem printable_writeObject {members : List (Bytes × JsonNode)}
    (hmembers : ∀ member ∈ members, PlainKey member.1 ∧ member.2.Plain) : Printable (writeObject members) := by
  have hend : Printable [125] := Printable.cons (by decide) (fun _ => nofun)
  exact (printable_writeItems (printable_writeMember printable_writeNode) hmembers hend).cons (by decide)

end ZeroTrust
