import ZeroTrust.WebUi.JsonReader
import ZeroTrust.WebUi.JsonTree

/-!
# Reading objects of strings

Flat objects as the handlers write them: keys that need no escape, values through `json_escape`, no blanks. What
`json_string_field` reads from such a text is told from the members alone: which of them is the first to show the
quoted key, and what stands behind the colon that comes next.
-/

namespace ZeroTrust

instance (key : Bytes) : Decidable (PlainKey key) := inferInstanceAs (Decidable (_ = _))

/-- The value of a key among some members, empty where it has none. -/
def stringValue (key : Bytes) (members : List (Bytes × Bytes)) : Bytes :=
  ((members.find? fun member => member.1 = key).map Prod.snd).getD []

/-- A flat object with string values: its keys are plain and distinct. -/
structure StringObject where
  members : List (Bytes × Bytes)
  plain : ∀ member ∈ members, PlainKey member.1
  distinct : (members.map Prod.fst).Nodup

namespace StringObject

/-- The text of an object. -/
def text (obj : StringObject) : Bytes := writeNode (.object obj.members) []

/-- The value of a key, empty where it is no member. -/
def value (obj : StringObject) (key : Bytes) : Bytes := stringValue key obj.members

end StringObject

/-- What the reader makes of a byte that the writer wrote: it knows the escapes of the tab and of the newline. -/
def readBack (c : Byte) : Bytes :=
  if c = 13 then [114]
  else if c < 32 ∧ c ≠ 10 ∧ c ≠ 9 then [117, 48, 48, lowerHexDigit (c.toNat / 16), lowerHexDigit (c.toNat % 16)]
  else [c]

/-- A byte that is read as it was written. -/
def SurvivesReading (c : Byte) : Prop := 32 ≤ c ∨ c = 10 ∨ c = 9

instance (c : Byte) : Decidable (SurvivesReading c) := inferInstanceAs (Decidable (_ ∨ _))

/-- Only blanks stand behind the first colon. -/
def blankAfterColon : Bytes → Bool
  | [] => false
  | c :: s => if c = 58 then s.all (· == 32) else blankAfterColon s

/-- What is read from behind a value: the value of the next member, unless its key contains a colon. -/
def readNext : List (Bytes × Bytes) → Bytes
  | [] => []
  | (key, value) :: _ =>
    if 58 ∈ key then if blankAfterColon key then [58] else []
    else value.flatMap readBack

/-- A key is read as its own value. In front of its own member another one can show it: between key and value where
it is a colon, at the end of the value, and in front of the next member where it is a comma. -/
def ReadsOwn (key : Bytes) : List (Bytes × Bytes) → Prop
  | [] => True
  | (key', value) :: members =>
    if key' = key then ∀ c ∈ value, SurvivesReading c
    else if key = [58] then
      stringValue key members =
        if 58 ∈ value then if blankAfterColon value then if members = [] then [125] else [44] else []
        else readNext members
    else if value = key ∨ 34 :: key <:+ value ∨ key = [44] then stringValue key members = readNext members
    else ReadsOwn key members

instance decidableReadsOwn (key : Bytes) : ∀ members, Decidable (ReadsOwn key members)
  | [] => inferInstanceAs (Decidable True)
  | (key', value) :: members =>
    have := decidableReadsOwn key members
    have : Decidable (∀ c ∈ value, SurvivesReading c) := List.decidableBAll _ value
    inferInstanceAs (Decidable (if key' = key then ∀ c ∈ value, SurvivesReading c
      else if key = [58] then
        stringValue key members =
          if 58 ∈ value then if blankAfterColon value then if members = [] then [125] else [44] else []
          else readNext members
      else if value = key ∨ 34 :: key <:+ value ∨ key = [44] then stringValue key members = readNext members
      else ReadsOwn key members))

section Escape

variable {c : Byte} {s key : Bytes}

/-- A text is escaped byte by byte. -/
theorem jsonEscape_cons (c : Byte) (s : Bytes) : jsonEscape (c :: s) = escapeByte c ++ jsonEscape s := rfl

/-- A byte is copied, or spelled by a backslash and a mark without a colon. -/
theorem escapeByte_cases (c : Byte) : (escapeByte c = [c] ∧ 32 ≤ c ∧ c ≠ 34 ∧ c ≠ 92) ∨
    ∃ mark marks, escapeByte c = 92 :: mark :: marks ∧ 58 ∉ mark :: marks ∧ (c < 32 ∨ c = 34 ∨ c = 92) := by
  have hhex : ∀ n < 16, 58 ≠ lowerHexDigit n := by decide
  unfold escapeByte
  split_ifs with hquote hbackslash hnewline hreturn htab hcontrol
  · exact .inr ⟨34, [], rfl, by decide, .inr (.inl hquote)⟩
  · exact .inr ⟨92, [], rfl, by decide, .inr (.inr hbackslash)⟩
  · exact .inr ⟨110, [], rfl, by decide, .inl (hnewline ▸ by decide)⟩
  · exact .inr ⟨114, [], rfl, by decide, .inl (hreturn ▸ by decide)⟩
  · exact .inr ⟨116, [], rfl, by decide, .inl (htab ▸ by decide)⟩
  · have hlow := hhex (c.toNat % 16) (by omega)
    have hhigh := hhex (c.toNat / 16) (lt_sixteen_of_control hcontrol)
    exact .inr ⟨117, _, rfl, by simp [hlow, hhigh], .inl hcontrol⟩
  · exact .inl ⟨rfl, UInt8.not_lt.mp hcontrol, hquote, hbackslash⟩

/-- A string without a backslash in its spelling is copied. -/
theorem jsonEscape_of_not_mem (h : 92 ∉ jsonEscape s) : jsonEscape s = s := by
  induction s with
  | nil => rfl
  | cons c s ih =>
    rw [jsonEscape_cons, List.mem_append, not_or] at h
    rw [jsonEscape_cons, ih h.2]
    rcases escapeByte_cases c with ⟨hcopied, -⟩ | ⟨mark, marks, hescape, -⟩
    · rw [hcopied]
      rfl
    · exact absurd List.mem_cons_self (hescape ▸ h.1)

/-- A spelling is not shorter than the string. -/
theorem length_le_jsonEscape (s : Bytes) : s.length ≤ (jsonEscape s).length := by
  induction s with
  | nil => exact le_rfl
  | cons c s ih =>
    have hbyte : 1 ≤ (escapeByte c).length := by
      rcases escapeByte_cases c with ⟨hcopied, -⟩ | ⟨mark, marks, hescape, -⟩
      · simp [hcopied]
      · simp [hescape]
    rw [jsonEscape_cons, List.length_append, List.length_cons]
    omega

/-- A plain key contains neither a quote nor a backslash. -/
theorem PlainKey.not_mem (h : PlainKey key) {c : Byte} (hc : c = 34 ∨ c = 92) : c ∉ key := by
  unfold PlainKey at h
  induction key with
  | nil => exact List.not_mem_nil
  | cons d key ih =>
    rw [jsonEscape_cons] at h
    rcases escapeByte_cases d with ⟨hcopied, -, hquote, hbackslash⟩ | ⟨mark, marks, hescape, -⟩
    · rw [hcopied] at h
      have hne : c ≠ d := by
        rintro rfl
        exact hc.elim hquote hbackslash
      exact List.not_mem_cons_of_ne_of_not_mem hne (ih (List.cons.inj h).2)
    · -- an escape makes the spelling longer
      have hlength := congrArg List.length h
      have hle := length_le_jsonEscape key
      rw [hescape, List.length_append, List.length_cons, List.length_cons, List.length_cons] at hlength
      omega

/-- Only a colon is spelled with a colon. -/
theorem colon_mem_escapeByte : 58 ∈ escapeByte c ↔ 58 = c := by
  rcases escapeByte_cases c with ⟨hcopied, -⟩ | ⟨mark, marks, hescape, hmarks, hc⟩
  · rw [hcopied, List.mem_singleton]
  · have hcolon : 58 ≠ c := by
      rintro rfl
      exact absurd hc (by decide)
    rw [hescape]
    exact iff_of_false (List.not_mem_cons_of_ne_of_not_mem (by decide) hmarks) hcolon

/-- What the reader makes of the spelling of a byte. -/
theorem read_escapedChar (c : Byte) : (escapedChar c).read = readBack c := by
  unfold escapedChar
  split_ifs with hquote hbackslash hnewline hreturn htab hcontrol
  · rw [hquote]
    rfl
  · rw [hbackslash]
    rfl
  · rw [hnewline]
    rfl
  · rw [hreturn]
    rfl
  · rw [htab]
    rfl
  · rw [readBack, if_neg hreturn, if_pos ⟨hcontrol, hnewline, htab⟩]
    rfl
  · rw [readBack, if_neg hreturn, if_neg fun h => hcontrol h.1]
    rfl

/-- The reader reads a written string up to its closing quote. -/
theorem readJsonString_jsonEscape (s rest : Bytes) :
    readJsonString (jsonEscape s ++ 34 :: rest) = s.flatMap readBack := by
  rw [← jsonRaw_escapedChar, readJsonString_eq, List.flatMap_map]
  exact List.flatMap_congr fun c _ => read_escapedChar c

/-- A string is read as it was written exactly if the reader knows its escapes. -/
theorem flatMap_readBack_eq_self : s.flatMap readBack = s ↔ ∀ c ∈ s, SurvivesReading c := by
  induction s with
  | nil => exact iff_of_true rfl fun _ h => absurd h List.not_mem_nil
  | cons c s ih =>
    rw [List.flatMap_cons, List.forall_mem_cons]
    by_cases hc : SurvivesReading c
    · have hreturn : c ≠ 13 := by
        rintro rfl
        exact absurd hc (by decide)
      have hcontrol : ¬(c < 32 ∧ c ≠ 10 ∧ c ≠ 9) := by
        rintro ⟨hlt, hnewline, htab⟩
        rcases hc with h | h | h
        · exact absurd hlt (UInt8.not_lt.mpr h)
        · exact hnewline h
        · exact htab h
      have hkept : readBack c = [c] := by rw [readBack, if_neg hreturn, if_neg hcontrol]
      rw [hkept, and_iff_right hc, ← ih]
      exact ⟨fun h => (List.cons.inj h).2, congrArg (c :: ·)⟩
    · -- the mark of the escape stands in the place of the control byte
      refine iff_of_false (fun h => hc ?_) fun h => hc h.1
      unfold readBack at h
      split_ifs at h with hreturn hcontrol
      · exact .inl ((List.cons.inj h).1 ▸ by decide)
      · exact .inl ((List.cons.inj h).1 ▸ by decide)
      · by_contra hsurvives
        simp only [SurvivesReading, not_or, UInt8.not_le] at hsurvives
        exact hcontrol hsurvives

end Escape

/-- What `json_string_field` reads from behind a colon. -/
def readAtColon (s : Bytes) : Bytes :=
  match s.dropWhile isSpace with
  | 34 :: rest => readJsonString rest
  | _ => []

/-- What `json_string_field` reads from behind the quoted key. -/
def readBehind (s : Bytes) : Bytes := (afterFirst [58] s).elim [] readAtColon

section Behind

variable {s rest : Bytes}

/-- The field reader reads behind the first quoted occurrence of the key. -/
theorem jsonStringField_eq (src key : Bytes) :
    jsonStringField src key = (afterFirst (34 :: (key ++ [34])) src).elim [] readBehind := by
  unfold jsonStringField afterKey readBehind
  cases afterFirst (34 :: (key ++ [34])) src with
  | none => rfl
  | some rest =>
    simp only [Option.bind_eq_bind, Option.bind_some, Option.elim_some]
    cases afterFirst [58] rest with
    | none => rfl
    | some t =>
      simp only [Option.bind_some, Option.elim_some]
      unfold readAtColon
      cases t.dropWhile isSpace with
      | nil => rfl
      | cons c t =>
        by_cases hc : c = 34
        · subst hc
          rfl
        · split
          · next heq => exact absurd (List.cons.inj (Option.some.inj heq)).1 hc
          · split
            · next heq => exact absurd (List.cons.inj heq).1 hc
            · rfl

/-- Text without a colon is passed over. -/
theorem readBehind_append (h : 58 ∉ s) : readBehind (s ++ rest) = readBehind rest := by
  rw [readBehind, afterFirst_append_of_not_mem h]
  rfl

/-- A colon right behind the key starts the value. -/
theorem readBehind_colon (rest : Bytes) : readBehind (58 :: rest) = readAtColon rest := by
  have hcolon : afterFirst [58] (58 :: rest) = some rest := afterFirst_self [] rest
  rw [readBehind, hcolon]
  rfl

/-- Nothing is read where no quote follows the colon. -/
theorem readAtColon_cons {c : Byte} (hspace : isSpace c = false) (hquote : c ≠ 34) (rest : Bytes) :
    readAtColon (c :: rest) = [] := by
  rw [readAtColon, List.dropWhile_cons_of_neg (by simp [hspace])]
  split
  · next heq => exact absurd (List.cons.inj heq).1 hquote
  · rfl

/-- Behind a colon inside a string only blanks lead to the closing quote. -/
theorem readAtColon_jsonEscape (s rest : Bytes) :
    readAtColon (jsonEscape s ++ 34 :: rest) = if s.all (· == 32) then readJsonString rest else [] := by
  induction s with
  | nil => rfl
  | cons c s ih =>
    by_cases hc : c = 32
    · subst hc
      exact ih
    · have hnot : (c :: s).all (· == 32) = false := by simp [hc]
      rw [hnot, if_neg Bool.false_ne_true, jsonEscape_cons, List.append_assoc]
      rcases escapeByte_cases c with ⟨hcopied, hcontrol, hquote, -⟩ | ⟨mark, marks, hescape, -⟩
      · have hspace : isSpace c = false := by
          have hlarge : ¬c ≤ 13 := fun h => absurd (UInt8.le_trans hcontrol h) (by decide)
          simp [isSpace, hc, hlarge]
        rw [hcopied]
        exact readAtColon_cons hspace hquote _
      · rw [hescape]
        exact readAtColon_cons rfl (by decide) _

/-- What is read from inside a string. -/
theorem readBehind_jsonEscape (s rest : Bytes) : readBehind (jsonEscape s ++ 34 :: rest) =
    if 58 ∈ s then if blankAfterColon s then readJsonString rest else [] else readBehind rest := by
  induction s with
  | nil => exact @readBehind_append [34] rest (by decide)
  | cons c s ih =>
    rw [jsonEscape_cons, List.append_assoc]
    by_cases hc : c = 58
    · subst hc
      rw [if_pos List.mem_cons_self]
      exact (readBehind_colon _).trans (readAtColon_jsonEscape s rest)
    · have hmem : 58 ∈ c :: s ↔ 58 ∈ s := by
        rw [List.mem_cons]
        exact or_iff_right (Ne.symm hc)
      have hblank : blankAfterColon (c :: s) = blankAfterColon s := by rw [blankAfterColon, if_neg hc]
      rw [readBehind_append fun h => hc (colon_mem_escapeByte.mp h).symm, ih, hblank]
      exact (if_congr hmem rfl rfl).symm

end Behind

section Shows

variable {key : Bytes} (hkey : PlainKey key)
include hkey

/-- A value is spelled as a plain key exactly if it is that key. -/
theorem jsonEscape_eq_key {value : Bytes} : jsonEscape value = key ↔ value = key := by
  constructor
  · intro h
    have hcopied : jsonEscape value = value := jsonEscape_of_not_mem (h ▸ hkey.not_mem (.inr rfl))
    exact hcopied.symm.trans h
  · rintro rfl
    exact hkey

/-- A value shows a plain key exactly if it is the key or ends with a quote and the key. -/
theorem showsKey_jsonEscape (value : Bytes) :
    ShowsKey key (value.map escapedChar) ↔ value = key ∨ 34 :: key <:+ value := by
  have hinside : ShowsKeyInside key (value.map escapedChar) ↔ 34 :: key <:+ value := by
    induction value with
    | nil => exact iff_of_false id (by simp)
    | cons c value ih =>
      have hquote : (escapedChar c).raw = [92, 34] ↔ 34 = c := by
        rw [raw_escapedChar]
        constructor
        · intro h
          unfold escapeByte at h
          split_ifs at h with hquote
          · exact hquote.symm
          all_goals simp at h
        · rintro rfl
          rfl
      rw [List.map_cons, ShowsKeyInside, ih, hquote, jsonRaw_escapedChar, jsonEscape_eq_key hkey,
        List.suffix_cons_iff, List.cons.injEq, eq_comm (a := key)]
  rw [ShowsKey, hinside, jsonRaw_escapedChar, jsonEscape_eq_key hkey]

end Shows

/-- What follows the text of a member: the other members and the closing brace. -/
def behindMember : List (Bytes × Bytes) → Bytes
  | [] => [125]
  | member :: members => 44 :: writeItems (writeMember writeString) (member :: members) [125]

/-- A member and what follows it. -/
theorem writeItems_cons (member : Bytes × Bytes) (members : List (Bytes × Bytes)) :
    writeItems (writeMember writeString) (member :: members) [125] =
      34 :: (member.1 ++ 34 :: ([58] ++ 34 :: (jsonEscape member.2 ++ 34 :: behindMember members))) := by
  cases members with
  | nil => rfl
  | cons member' members => rfl

/-- What is read from the key of a member on. -/
theorem readBehind_key {member : Bytes × Bytes} (hplain : PlainKey member.1) (members : List (Bytes × Bytes)) :
    readBehind (member.1 ++ 34 :: ([58] ++ 34 :: (jsonEscape member.2 ++ 34 :: behindMember members))) =
      readNext (member :: members) := by
  have hvalue : readBehind ([58] ++ 34 :: (jsonEscape member.2 ++ 34 :: behindMember members)) =
      member.2.flatMap readBack :=
    (readBehind_colon _).trans (readJsonString_jsonEscape member.2 _)
  have hcopied : jsonEscape member.1 = member.1 := hplain
  have hread := readBehind_jsonEscape member.1 ([58] ++ 34 :: (jsonEscape member.2 ++ 34 :: behindMember members))
  rw [hcopied, hvalue] at hread
  exact hread

/-- What is read from behind a member. -/
theorem readBehind_behindMember {members : List (Bytes × Bytes)} (hplain : ∀ member ∈ members, PlainKey member.1) :
    readBehind (behindMember members) = readNext members := by
  cases members with
  | nil => rfl
  | cons member members =>
    rw [behindMember, writeItems_cons]
    exact (@readBehind_append [44, 34] _ (by decide)).trans (readBehind_key (hplain member List.mem_cons_self) members)

/-- The value of a key is that of the first member with that name. -/
theorem stringValue_cons (key : Bytes) (member : Bytes × Bytes) (members : List (Bytes × Bytes)) :
    stringValue key (member :: members) = if member.1 = key then member.2 else stringValue key members := by
  simp only [stringValue, getD_map_find?_cons, decide_eq_true_eq]

/-- No key is found in the closing brace. -/
theorem afterFirst_brace (key : Bytes) : afterFirst (34 :: (key ++ [34])) [125] = none :=
  @afterFirst_append_of_not_mem 34 (key ++ [34]) [125] [] (by decide)

/-- What the reader makes of the text between a value and the next quote. -/
theorem readJsonString_behindMember (members : List (Bytes × Bytes)) :
    readJsonString (behindMember members) = if members = [] then [125] else [44] := by
  cases members with
  | nil => rfl
  | cons member members =>
    rw [behindMember, writeItems_cons]
    rfl

section Search

variable {key : Bytes} (hkey : PlainKey key)
include hkey

/-- What is read from the closing quote of a value on. -/
theorem read_behind_value {members : List (Bytes × Bytes)} (hplain : ∀ member ∈ members, PlainKey member.1) :
    (afterFirst (34 :: (key ++ [34])) (34 :: behindMember members)).elim [] readBehind =
      if key = [44] then readNext members
      else (afterFirst (34 :: (key ++ [34])) (writeItems (writeMember writeString) members [125])).elim []
        readBehind := by
  have hquote := hkey.not_mem (.inl rfl)
  cases members with
  | nil =>
    have hstarts : ¬key ++ [34] <+: [125] := by
      intro hprefix
      have hmem : (34 : Byte) ∈ [125] := hprefix.subset (List.mem_append_right key List.mem_cons_self)
      exact absurd hmem (by decide)
    rw [behindMember, writeItems, afterFirst_cons_of_no_match hstarts, afterFirst_brace]
    exact (ite_self _).symm
  | cons member members =>
    rw [writeItems_cons]
    change (afterFirst (34 :: (key ++ [34])) (34 :: ([44] ++ _))).elim [] readBehind = _
    rw [writeItems_cons, afterFirst_segment hquote (by decide)]
    by_cases hcomma : key = [44]
    · rw [if_pos hcomma, if_pos hcomma.symm]
      exact readBehind_key (hplain member List.mem_cons_self) members
    · rw [if_neg hcomma, if_neg (Ne.symm hcomma)]

/-- What is read of an object's members. -/
theorem read_members {members : List (Bytes × Bytes)} (hplain : ∀ member ∈ members, PlainKey member.1) :
    (afterFirst (34 :: (key ++ [34])) (writeItems (writeMember writeString) members [125])).elim [] readBehind =
      stringValue key members ↔ ReadsOwn key members := by
  have hquote := hkey.not_mem (.inl rfl)
  induction members with
  | nil =>
    rw [writeItems, afterFirst_brace]
    exact iff_of_true rfl trivial
  | cons member members ih =>
    obtain ⟨key', value⟩ := member
    obtain ⟨hplain', hmembers⟩ := List.forall_mem_cons.mp hplain
    rw [writeItems_cons, afterFirst_segment hquote (hplain'.not_mem (.inl rfl)), stringValue_cons]
    dsimp only [ReadsOwn]
    by_cases hown : key' = key
    · rw [if_pos hown, if_pos hown, if_pos hown, ← flatMap_readBack_eq_self]
      have hread : readBehind ([58] ++ 34 :: (jsonEscape value ++ 34 :: behindMember members)) =
          value.flatMap readBack :=
        (readBehind_colon _).trans (readJsonString_jsonEscape value _)
      exact Eq.congr_left hread
    rw [if_neg hown, if_neg hown, if_neg hown, afterFirst_segment hquote (by decide)]
    by_cases hcolon : key = [58]
    · rw [if_pos hcolon, if_pos hcolon.symm]
      change readBehind _ = _ ↔ _
      rw [readBehind_jsonEscape, readBehind_behindMember hmembers, readJsonString_behindMember]
      exact eq_comm
    have hsame := showsKey_jsonEscape hkey value
    rw [if_neg hcolon, if_neg (Ne.symm hcolon), ← jsonRaw_escapedChar,
      afterFirst_string hquote (hkey.not_mem (.inr rfl))]
    by_cases hshows : ShowsKey key (value.map escapedChar)
    · rw [if_pos hshows, if_pos ((hsame.mp hshows).imp_right Or.inl)]
      change readBehind _ = _ ↔ _
      rw [readBehind_behindMember hmembers]
      exact eq_comm
    · rw [if_neg hshows, read_behind_value hkey hmembers]
      by_cases hcomma : key = [44]
      · rw [if_pos hcomma, if_pos (.inr (.inr hcomma))]
        exact eq_comm
      · have hnot : ¬(value = key ∨ 34 :: key <:+ value ∨ key = [44]) := by
          rw [← or_assoc, ← hsame]
          exact not_or.mpr ⟨hshows, hcomma⟩
        rw [if_neg hcomma, if_neg hnot]
        exact ih hmembers

end Search

/-- The value of a key is returned exactly if the reader meets no other spelling of the key in front of its member
whose next value differs, and knows every escape of the value. -/
theorem jsonStringField_text_eq_value_iff (obj : StringObject) {key : Bytes} (hkey : PlainKey key) :
    jsonStringField obj.text key = obj.value key ↔ ReadsOwn key obj.members := by
  have hopen : afterFirst (34 :: (key ++ [34])) obj.text =
      afterFirst (34 :: (key ++ [34])) (writeItems (writeMember writeString) obj.members [125]) :=
    @afterFirst_append_of_not_mem 34 (key ++ [34]) [123] _ (by decide)
  rw [jsonStringField_eq, hopen]
  exact read_members hkey obj.plain

/-- The members of a user whose name is the name of a key. -/
def namedAfterKey : StringObject where
  members := [(str "username", str "picture"), (str "email", str "e"), (str "picture", str "p")]
  plain := by decide
  distinct := by decide

/-- An email behind a value that names it is still read. -/
theorem jsonStringField_text_email :
    jsonStringField namedAfterKey.text (str "email") = namedAfterKey.value (str "email") := by
  have hplain : PlainKey (str "email") := by decide
  apply (jsonStringField_text_eq_value_iff namedAfterKey hplain).mpr
  decide

/-- The picture is looked for behind the value that is spelled like its key. -/
theorem not_jsonStringField_text_picture :
    jsonStringField namedAfterKey.text (str "picture") ≠ namedAfterKey.value (str "picture") := by
  decide

end ZeroTrust
