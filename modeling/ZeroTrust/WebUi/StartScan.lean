import ZeroTrust.Core.Ipv4
import ZeroTrust.WebUi.JsonReader
import ZeroTrust.WebUi.JsonWriter

/-!
# Starting a scan

`start_scan` behind its session check, for a request body in the order in which the dashboard writes it. The
numbers are spelled with any number of digits, and the reader accumulates them before their range is tested.
-/

namespace ZeroTrust

/-- What `start_scan` answers when it creates no job. -/
inductive StartFailure
  | invalidInput
  | dnsFailed (target : Bytes)
deriving DecidableEq

/-- The body of a `400`. -/
def StartFailure.text : StartFailure → Bytes
  | .invalidInput => str "\x7b\"error\":\"invalid_input\"\x7d"
  | .dnsFailed target => str "\x7b\"error\":\"dns_failed\",\"message\":\"could not resolve " ++ jsonEscape target ++
    str "\"\x7d"

/-- A new `ScanJob`. -/
structure NewScan where
  id : Bytes
  target : Bytes
  scanIp : Bytes
  portStart : ℤ
  portEnd : ℤ
  startedAt : ℤ
deriving DecidableEq

/-- `resolved`: an address is kept, a name is looked up. -/
def resolvedTarget (resolve : Bytes → Option Bytes) (target : Bytes) : Option Bytes :=
  if (inetPton (beforeNul target)).isSome then some target else resolve target

/-- `start_scan`, for what the name server answers, a random identifier and the time. A number that does not fit
`long` is undefined. -/
def startScan (resolve : Bytes → Option Bytes) (id : Bytes) (now : ℤ) (body : Bytes) :
    Option (Except StartFailure NewScan) := do
  let target := jsonStringField body (str "target")
  let ps ← jsonNumberField body (str "port_start")
  let pe ← jsonNumberField body (str "port_end")
  if target = [] ∨ ps ≤ 0 ∨ pe ≤ 0 ∨ pe < ps ∨ pe > 65535 then return .error .invalidInput
  match resolvedTarget resolve target with
  | none => return .error (.dnsFailed target)
  | some resolved => return .ok {
      id := id
      target := if resolved = target then target else target ++ str " (" ++ resolved ++ str ")"
      scanIp := resolved
      portStart := ps.bmod (2 ^ 32)
      portEnd := pe.bmod (2 ^ 32)
      startedAt := now }

/-- The sign of a number, as it is spelled. -/
inductive NumberSign
  | absent | minus | plus
deriving DecidableEq

/-- A decimal integer as it is spelled. -/
structure SpelledInteger where
  sign : NumberSign
  digits : Bytes
  digits_all : ∀ c ∈ digits, isDigit c = true

namespace SpelledInteger

/-- The spelling. -/
def text (n : SpelledInteger) : Bytes :=
  match n.sign with
  | .absent => n.digits
  | .minus => 45 :: n.digits
  | .plus => 43 :: n.digits

/-- The integer. -/
def value (n : SpelledInteger) : ℤ :=
  match n.sign with
  | .absent | .plus => digitsValue n.digits
  | .minus => -digitsValue n.digits

/-- What the reader makes of it: it knows no plus sign. -/
def read (n : SpelledInteger) : ℤ :=
  match n.sign with
  | .absent => digitsValue n.digits
  | .minus => -digitsValue n.digits
  | .plus => 0

/-- The reader stays within `long`. -/
def Fits (n : SpelledInteger) : Prop := n.sign = .plus ∨ digitsValue n.digits < 2 ^ 63

instance (n : SpelledInteger) : Decidable n.Fits := inferInstanceAs (Decidable (_ ∨ _))

end SpelledInteger

/-- The end of a request body, from the upper port on. -/
def portEndText (b : SpelledInteger) : Bytes := str ",\"port_end\":" ++ (b.text ++ str "\x7d")

/-- The end of a request body, from the lower port on. -/
def portsText (a b : SpelledInteger) : Bytes := str ",\"port_start\":" ++ (a.text ++ portEndText b)

/-- The request body. -/
def startBody (target : JsonValue) (a b : SpelledInteger) : Bytes :=
  str "\x7b\"target\":" ++ (target.text ++ portsText a b)

section Numbers

variable {digits rest : Bytes} {c : Byte}

/-- Further digits do not make a number smaller. -/
theorem le_foldl_digits (digits : Bytes) (v : ℕ) : v ≤ digits.foldl (fun n c => 10 * n + (c.toNat - 48)) v := by
  induction digits generalizing v with
  | nil => exact le_rfl
  | cons d digits ih =>
    have hstep : v ≤ 10 * v + (d.toNat - 48) := by omega
    exact hstep.trans (ih _)

/-- Digits are read to their value, unless it does not fit. -/
theorem readJsonDigits_eq (hdigits : ∀ c ∈ digits, isDigit c = true) (hc : isDigit c = false) (rest : Bytes) {v : ℕ}
    (hv : v < 2 ^ 63) : readJsonDigits v (digits ++ c :: rest) =
      if digits.foldl (fun n c => 10 * n + (c.toNat - 48)) v < 2 ^ 63 then
        some (digits.foldl (fun n c => 10 * n + (c.toNat - 48)) v) else none := by
  induction digits generalizing v with
  | nil =>
    rw [List.nil_append, readJsonDigits, hc]
    exact (if_pos hv).symm
  | cons d digits ih =>
    rw [List.cons_append, readJsonDigits, if_pos (hdigits d List.mem_cons_self), List.foldl_cons, Nat.mul_comm v]
    dsimp only
    by_cases hfits : 10 * v + (d.toNat - 48) < 2 ^ 63
    · rw [if_pos hfits]
      exact ih (fun c hc => hdigits c (List.mem_cons_of_mem _ hc)) hfits
    · have hlarge := le_foldl_digits digits (10 * v + (d.toNat - 48))
      rw [if_neg hfits, if_neg (by omega)]

/-- A number without a sign begins with no minus sign. -/
theorem readJsonNumber_digits (hdigits : ∀ c ∈ digits, isDigit c = true) (hminus : c ≠ 45) (rest : Bytes) :
    readJsonNumber (digits ++ c :: rest) = (readJsonDigits 0 (digits ++ c :: rest)).map fun v : ℕ => (v : ℤ) := by
  have hother : ∀ {d : Byte} (t : Bytes), d ≠ 45 →
      readJsonNumber (d :: t) = (readJsonDigits 0 (d :: t)).map fun v : ℕ => (v : ℤ) := by
    intro d t hd
    rw [readJsonNumber]
    exact fun _ h => hd (List.cons.inj h).1
  cases digits with
  | nil => exact hother rest hminus
  | cons d digits =>
    apply hother
    rintro rfl
    exact absurd (hdigits 45 List.mem_cons_self) (by decide)

/-- What the reader makes of a spelled integer. -/
theorem readJsonNumber_text (n : SpelledInteger) (hc : isDigit c = false) (hminus : c ≠ 45) (rest : Bytes) :
    readJsonNumber (n.text ++ c :: rest) = if n.Fits then some n.read else none := by
  obtain ⟨sign, digits, hdigits⟩ := n
  have hread : readJsonDigits 0 (digits ++ c :: rest) =
      if digitsValue digits < 2 ^ 63 then some (digitsValue digits) else none :=
    readJsonDigits_eq hdigits hc rest (by norm_num)
  by_cases hfits : digitsValue digits < 2 ^ 63
  · rw [if_pos (.inr hfits)]
    rw [if_pos hfits] at hread
    cases sign with
    | absent => exact (readJsonNumber_digits hdigits hminus rest).trans (by rw [hread]; rfl)
    | minus => exact congrArg (Option.map fun v : ℕ => -(v : ℤ)) hread
    | plus => rfl
  · rw [if_neg hfits] at hread
    cases sign with
    | absent =>
      have hno : ¬(⟨.absent, digits, hdigits⟩ : SpelledInteger).Fits := not_or.mpr ⟨by nofun, hfits⟩
      rw [if_neg hno]
      exact (readJsonNumber_digits hdigits hminus rest).trans (by rw [hread]; rfl)
    | minus =>
      have hno : ¬(⟨.minus, digits, hdigits⟩ : SpelledInteger).Fits := not_or.mpr ⟨by nofun, hfits⟩
      rw [if_neg hno]
      exact congrArg (Option.map fun v : ℕ => -(v : ℤ)) hread
    | plus => exact (if_pos (Or.inl rfl)).symm

end Numbers

/-- The string that the reader makes of a value; of a number it makes none. -/
def JsonValue.read : JsonValue → Bytes
  | .string cs => cs.flatMap JsonChar.read
  | .integer _ => []

section Shown

variable {key : Bytes} {cs : List JsonChar}

/-- A character without a backslash is read as it is spelled. -/
theorem flatMap_read_of_raw (h : 92 ∉ jsonRaw cs) : cs.flatMap JsonChar.read = jsonRaw cs := by
  induction cs with
  | nil => rfl
  | cons c cs ih =>
    rw [jsonRaw_cons, List.mem_append, not_or] at h
    cases c with
    | plain c _ _ _ => exact congrArg (c :: ·) (ih h.2)
    | escape e => exact absurd List.mem_cons_self h.1
    | unicode a b c d => exact absurd List.mem_cons_self h.1

/-- A string that shows a quoted key ends with it. -/
theorem ShowsKey.suffix_read (hkey : IsFieldName key) (h : ShowsKey key cs) : key <:+ cs.flatMap JsonChar.read := by
  have hown : ∀ {ds : List JsonChar}, jsonRaw ds = key → ds.flatMap JsonChar.read = key := by
    intro ds hraw
    rw [flatMap_read_of_raw (hraw ▸ hkey.not_mem rfl), hraw]
  rcases h with hraw | hinside
  · exact hown hraw ▸ List.suffix_rfl
  · induction cs with
    | nil => exact hinside.elim
    | cons c cs ih =>
      rw [List.flatMap_cons]
      rcases hinside with ⟨-, hraw⟩ | hinside
      · exact hown hraw ▸ List.suffix_append _ _
      · exact (ih hinside).trans (List.suffix_append _ _)

end Shown

section Fields

variable (target : JsonValue) (a b : SpelledInteger)

/-- A spelled integer does not start with white space. -/
theorem SpelledInteger.dropWhile_text (n : SpelledInteger) {c : Byte} (hc : isSpace c = false) (rest : Bytes) :
    (n.text ++ c :: rest).dropWhile isSpace = n.text ++ c :: rest := by
  obtain ⟨sign, digits, hdigits⟩ := n
  have hdigit : (digits ++ c :: rest).dropWhile isSpace = digits ++ c :: rest := by
    cases digits with
    | nil => exact List.dropWhile_cons_of_neg (by simp [hc])
    | cons d digits =>
      exact List.dropWhile_cons_of_neg (by simp [isSpace_of_isDigit (hdigits d List.mem_cons_self)])
  cases sign with
  | absent => exact hdigit
  | minus => exact List.dropWhile_cons_of_neg (by decide)
  | plus => exact List.dropWhile_cons_of_neg (by decide)

/-- A spelled integer contains no quote. -/
theorem SpelledInteger.quote_not_mem_text (n : SpelledInteger) : 34 ∉ n.text := by
  obtain ⟨sign, digits, hdigits⟩ := n
  have hdigit : 34 ∉ digits := fun h => absurd (hdigits 34 h) (by decide)
  cases sign with
  | absent => exact hdigit
  | minus => exact List.not_mem_cons_of_ne_of_not_mem (by decide) hdigit
  | plus => exact List.not_mem_cons_of_ne_of_not_mem (by decide) hdigit

/-- The number that is read where the next colon is its own. -/
theorem jsonNumberField_of_afterFirst {n : SpelledInteger} {src key s rest : Bytes} {c : Byte}
    (hspace : isSpace c = false) (hc : isDigit c = false) (hminus : c ≠ 45) (hs : 58 ∉ s)
    (hfirst : afterFirst (34 :: (key ++ [34])) src = some (s ++ 58 :: (n.text ++ c :: rest))) :
    jsonNumberField src key = if n.Fits then some n.read else none := by
  have hcolon : afterFirst [58] (58 :: (n.text ++ c :: rest)) = some (n.text ++ c :: rest) := afterFirst_self [] _
  have hafter : afterKey src key = some (n.text ++ c :: rest) := by
    unfold afterKey
    rw [hfirst]
    change (afterFirst [58] _).bind _ = _
    rw [afterFirst_append_of_not_mem hs, hcolon]
    exact congrArg some (n.dropWhile_text hspace rest)
  rw [jsonNumberField, hafter]
  exact readJsonNumber_text n hc hminus rest

/-- The search for a quoted key at a value. -/
theorem afterFirst_value {key : Bytes} (hkey : IsFieldName key) {c : Byte} (hc : (isAlnum c || c == 95) = false)
    (rest : Bytes) : afterFirst (34 :: (key ++ [34])) (target.text ++ c :: rest) =
      if target.ShowsKey key then some (c :: rest) else afterFirst (34 :: (key ++ [34])) (c :: rest) := by
  cases target with
  | integer n =>
    rw [JsonValue.text, afterFirst_append_of_not_mem (quote_not_mem_decimalInt n)]
    exact (if_neg id).symm
  | string cs =>
    have htext : (JsonValue.string cs).text ++ c :: rest = 34 :: (jsonRaw cs ++ 34 :: c :: rest) := by
      simp [JsonValue.text]
    rw [htext, afterFirst_string (hkey.not_mem rfl) (hkey.not_mem rfl),
      afterFirst_cons_of_no_match (hkey.not_prefix hc [34] rest)]
    rfl

/-- The target that is read. -/
theorem target_startBody : jsonStringField (startBody target a b) (str "target") = target.read := by
  have hfirst : afterFirst (34 :: (str "target" ++ [34])) (startBody target a b) =
      some (58 :: (target.text ++ portsText a b)) := rfl
  obtain ⟨c, t, htext, hspace⟩ := target.text_eq_cons
  have hafter : afterKey (startBody target a b) (str "target") = some (target.text ++ portsText a b) := by
    unfold afterKey
    rw [hfirst, htext]
    exact congrArg some (List.dropWhile_cons_of_neg (by simp [hspace]))
  rw [jsonStringField, hafter]
  cases target with
  | string cs =>
    rw [JsonValue.text, List.append_assoc]
    exact readJsonString_eq cs _
  | integer n =>
    have hquote : c ≠ 34 := by
      rintro rfl
      have hmem : 34 ∈ (JsonValue.integer n).text := htext ▸ List.mem_cons_self
      exact quote_not_mem_decimalInt n hmem
    rw [htext, List.cons_append]
    split
    · next heq => exact absurd (List.cons.inj (Option.some.inj heq)).1 hquote
    · rfl

/-- `port_start` is a field name the reader can look for. -/
theorem isFieldName_portStart : IsFieldName (str "port_start") := ⟨by decide, List.all_eq_true.mp (by decide)⟩

/-- `port_end` is a field name the reader can look for. -/
theorem isFieldName_portEnd : IsFieldName (str "port_end") := ⟨by decide, List.all_eq_true.mp (by decide)⟩

/-- The lower port that is read: where the target shows its key, the next colon is still its own. -/
theorem portStart_startBody :
    jsonNumberField (startBody target a b) (str "port_start") = if a.Fits then some a.read else none := by
  have hopen : afterFirst (34 :: (str "port_start" ++ [34])) (startBody target a b) =
      afterFirst (34 :: (str "port_start" ++ [34])) (target.text ++ portsText a b) := rfl
  have hvalue := @afterFirst_value target (str "port_start") isFieldName_portStart 44 rfl
    (str "\"port_start\":" ++ (a.text ++ portEndText b))
  by_cases hshows : target.ShowsKey (str "port_start")
  · rw [if_pos hshows] at hvalue
    have hs : (58 : Byte) ∉ str ",\"port_start\"" := by decide
    exact jsonNumberField_of_afterFirst rfl rfl (by decide) hs (hopen.trans hvalue)
  · rw [if_neg hshows] at hvalue
    have hown : afterFirst (34 :: (str "port_start" ++ [34])) (portsText a b) =
        some ([] ++ 58 :: (a.text ++ portEndText b)) := rfl
    exact jsonNumberField_of_afterFirst rfl rfl (by decide) List.not_mem_nil (hopen.trans (hvalue.trans hown))

/-- The upper port that is read: where the target shows its key, the next colon is that of the lower port. -/
theorem portEnd_startBody : jsonNumberField (startBody target a b) (str "port_end") =
    if target.ShowsKey (str "port_end") then if a.Fits then some a.read else none
    else if b.Fits then some b.read else none := by
  have hopen : afterFirst (34 :: (str "port_end" ++ [34])) (startBody target a b) =
      afterFirst (34 :: (str "port_end" ++ [34])) (target.text ++ portsText a b) := rfl
  have hvalue := @afterFirst_value target (str "port_end") isFieldName_portEnd 44 rfl
    (str "\"port_start\":" ++ (a.text ++ portEndText b))
  by_cases hshows : target.ShowsKey (str "port_end")
  · rw [if_pos hshows] at hvalue ⊢
    have hs : (58 : Byte) ∉ str ",\"port_start\"" := by decide
    exact jsonNumberField_of_afterFirst rfl rfl (by decide) hs (hopen.trans hvalue)
  · rw [if_neg hshows] at hvalue ⊢
    have hlower : afterFirst (34 :: (str "port_end" ++ [34])) (portsText a b) =
        afterFirst (34 :: (str "port_end" ++ [34])) (a.text ++ portEndText b) := rfl
    have hown : afterFirst (34 :: (str "port_end" ++ [34])) (portEndText b) =
        some ([] ++ 58 :: (b.text ++ str "\x7d")) := rfl
    rw [afterFirst_append_of_not_mem a.quote_not_mem_text, hown] at hlower
    exact jsonNumberField_of_afterFirst rfl rfl (by decide) List.not_mem_nil (hopen.trans (hvalue.trans hlower))

end Fields

section Ports

variable (resolve : Bytes → Option Bytes) (id : Bytes) (now : ℤ) (target : JsonValue) (a b : SpelledInteger)

/-- The handler is defined and a job has the ports that were asked for, which are in order and in range. -/
def StartsExactly : Prop :=
  (startScan resolve id now (startBody target a b)).isSome = true ∧
  ∀ scan, startScan resolve id now (startBody target a b) = some (.ok scan) →
    1 ≤ a.value ∧ a.value ≤ b.value ∧ b.value ≤ 65535 ∧ scan.portStart = a.value ∧ scan.portEnd = b.value

/-- A port that the reader finds positive is spelled without a sign. -/
theorem SpelledInteger.value_of_read {n : SpelledInteger} (h : 0 < n.read) : n.value = n.read := by
  obtain ⟨sign, digits, hdigits⟩ := n
  cases sign with
  | absent => rfl
  | minus => rfl
  | plus => exact absurd h (lt_irrefl 0)

/-- What is read has no zero byte. -/
theorem JsonValue.nulFree_read (v : JsonValue) : NulFree v.read := by
  cases v with
  | integer n => exact List.not_mem_nil
  | string cs =>
    intro hmem
    obtain ⟨c, -, hc⟩ := List.mem_flatMap.mp hmem
    cases c with
    | plain c _ _ hcontrol =>
      have hzero : (0 : Byte) = c := List.mem_singleton.mp hc
      exact absurd hcontrol (hzero ▸ by decide)
    | escape e =>
      have hzero : (0 : Byte) = unescapeByte e.mark := List.mem_singleton.mp hc
      cases e <;> exact absurd hzero (by decide)
    | unicode a b c d =>
      have hraw : 0 ∈ (JsonChar.unicode a b c d).raw := List.mem_cons_of_mem 92 hc
      exact absurd (JsonChar.le_of_mem_raw hraw) (by decide)

variable {target} in
/-- A target that shows a field name is no address. -/
theorem resolvedTarget_of_showsKey (h : target.ShowsKey (str "port_end")) :
    target.read ≠ [] ∧ resolvedTarget resolve target.read = resolve target.read := by
  have hmem : (100 : Byte) ∈ target.read := by
    cases target with
    | integer n => exact h.elim
    | string cs => exact (ShowsKey.suffix_read isFieldName_portEnd h).subset (by decide)
  refine ⟨List.ne_nil_of_mem hmem, if_neg fun haddress => ?_⟩
  rw [beforeNul_eq_self.mpr target.nulFree_read] at haddress
  obtain ⟨address, hread⟩ := Option.isSome_iff_exists.mp haddress
  rcases mem_of_inetPton hread hmem with hdigit | hdot
  · exact absurd hdigit (by decide)
  · exact absurd hdot (by decide)

/-- What is asked of the ports that were read. -/
theorem startsExactly_of_read {ps pe : ℤ}
    (hps : jsonNumberField (startBody target a b) (str "port_start") = some ps)
    (hpe : jsonNumberField (startBody target a b) (str "port_end") = some pe) :
    StartsExactly resolve id now target a b ↔
      (target.read ≠ [] → 1 ≤ ps → ps ≤ pe → pe ≤ 65535 → (resolvedTarget resolve target.read).isSome = true →
        1 ≤ a.value ∧ a.value ≤ b.value ∧ b.value ≤ 65535 ∧ ps = a.value ∧ pe = b.value) := by
  have hstart : startScan resolve id now (startBody target a b) =
      if target.read = [] ∨ ps ≤ 0 ∨ pe ≤ 0 ∨ pe < ps ∨ pe > 65535 then some (.error .invalidInput)
      else match resolvedTarget resolve target.read with
        | none => some (.error (.dnsFailed target.read))
        | some resolved => some (.ok {
            id := id
            target := if resolved = target.read then target.read else target.read ++ str " (" ++ resolved ++ str ")"
            scanIp := resolved
            portStart := ps.bmod (2 ^ 32)
            portEnd := pe.bmod (2 ^ 32)
            startedAt := now }) := by
    unfold startScan
    rw [hps, hpe, target_startBody]
    rfl
  unfold StartsExactly
  rw [hstart]
  by_cases hinvalid : target.read = [] ∨ ps ≤ 0 ∨ pe ≤ 0 ∨ pe < ps ∨ pe > 65535
  · rw [if_pos hinvalid]
    refine iff_of_true ⟨rfl, nofun⟩ fun hread hlow hle hhigh _ => ?_
    rcases hinvalid with h | h | h | h | h
    · exact absurd h hread
    all_goals omega
  · rw [if_neg hinvalid]
    simp only [not_or, not_le, not_lt] at hinvalid
    obtain ⟨hread, hlow, -, hle, hhigh⟩ := hinvalid
    cases hresolved : resolvedTarget resolve target.read with
    | none => exact iff_of_true ⟨rfl, nofun⟩ fun _ _ _ _ h => absurd h Bool.false_ne_true
    | some resolved =>
      have hpsInt : ps.bmod (2 ^ 32) = ps := Int.bmod_eq_of_le (by omega) (by omega)
      have hpeInt : pe.bmod (2 ^ 32) = pe := Int.bmod_eq_of_le (by omega) (by omega)
      dsimp only
      rw [hpsInt, hpeInt]
      constructor
      · rintro ⟨-, hscan⟩ - - - - -
        exact hscan _ rfl
      · intro hports
        refine ⟨rfl, fun scan hscan => ?_⟩
        cases hscan
        exact hports hread (by omega) hle hhigh rfl

/-- Only valid port ranges start a scan exactly if no number is too long for the reader and, where the target shows
the key of the upper port, both ports are one or the request is refused for the first of them. -/
theorem startsExactly_iff : StartsExactly resolve id now target a b ↔ a.Fits ∧
    if target.ShowsKey (str "port_end") then
      1 ≤ a.read → a.read ≤ 65535 → (resolve target.read).isSome = true → a.value = b.value
    else b.Fits := by
  have hps := portStart_startBody target a b
  have hpe := portEnd_startBody target a b
  by_cases hfits : a.Fits
  · rw [if_pos hfits] at hps hpe
    rw [and_iff_right hfits]
    by_cases hshows : target.ShowsKey (str "port_end")
    · rw [if_pos hshows] at hpe ⊢
      obtain ⟨hread, hresolved⟩ := resolvedTarget_of_showsKey resolve hshows
      rw [startsExactly_of_read resolve id now target a b hps hpe, hresolved]
      constructor
      · intro h hlow hhigh hname
        obtain ⟨-, -, -, ha, hb⟩ := h hread hlow le_rfl hhigh hname
        exact ha.symm.trans hb
      · intro h _ hlow _ hhigh hname
        have hvalue : a.value = a.read := SpelledInteger.value_of_read hlow
        have hsame := h hlow hhigh hname
        refine ⟨?_, ?_, ?_, ?_, ?_⟩ <;> omega
    · rw [if_neg hshows] at hpe ⊢
      by_cases hfits' : b.Fits
      · rw [if_pos hfits'] at hpe
        rw [startsExactly_of_read resolve id now target a b hps hpe]
        refine iff_of_true (fun _ hlow hle hhigh _ => ?_) hfits'
        have ha : a.value = a.read := SpelledInteger.value_of_read hlow
        have hb : b.value = b.read := SpelledInteger.value_of_read (hlow.trans hle)
        refine ⟨?_, ?_, ?_, ?_, ?_⟩ <;> omega
      · rw [if_neg hfits'] at hpe
        refine iff_of_false (fun h => ?_) hfits'
        have hnone : startScan resolve id now (startBody target a b) = none := by
          unfold startScan
          rw [hps, hpe]
          rfl
        exact absurd h.1 (by rw [hnone]; exact Bool.false_ne_true)
  · rw [if_neg hfits] at hps
    refine iff_of_false (fun h => ?_) fun h => hfits h.1
    have hnone : startScan resolve id now (startBody target a b) = none := by
      unfold startScan
      rw [hps]
      rfl
    exact absurd h.1 (by rw [hnone]; exact Bool.false_ne_true)

/-- A port of twenty digits leaves `long` before its range is tested. -/
theorem not_startsExactly_overflow : ¬StartsExactly (fun _ => none) [] 0
    (.string ((str "10.0.0.1").map escapedChar)) ⟨.absent, str "18446744073709551617", List.all_eq_true.mp rfl⟩
    ⟨.absent, str "80", List.all_eq_true.mp rfl⟩ := by
  intro h
  exact absurd h.1 (by decide)

end Ports

end ZeroTrust
