import ZeroTrust.Lib.ServerSentEvents
import ZeroTrust.WebUi.JsonTree
import ZeroTrust.WebUi.Stream
import ZeroTrust.Ztl.Number

/-!
# The text of the event stream

What `stream_scan` writes for its frames. The strings of a frame are bytes from scanned hosts; they pass
through two encodings, JSON strings inside the lines of an event stream, and both are undone exactly.
-/

namespace ZeroTrust

open ServerSentEvents (OneLine)

/-- A `double` in an `ostringstream`. -/
def doubleText (q : ℚ) : Bytes :=
  if q = 0 then str "0" else if q < 0 then 45 :: Ztl.generalFormat (-q) else Ztl.generalFormat q

/-- `verification_label`. -/
def verificationLabel (verification : Bytes) : Bytes :=
  if verification = str "VERSION_MATCH" then str "Potentially vulnerable"
  else if verification = str "CONFIG_MATCH" then str "Configuration verified"
  else if verification = str "ACTIVE_CHECK" then str "Actively verified"
  else if verification = str "NOT_VULNERABLE" then str "Not vulnerable"
  else str "Verification unknown"

/-- The data of a `port` event. -/
def portText (p : Port) : Bytes :=
  str "\x7b\"number\":" ++ (decimal p.number.toNat ++
    (str ",\"protocol\":\"" ++ (p.protocol.text ++ (str "\"" ++
    (str ",\"service\":\"" ++ (jsonEscape p.service ++ (str "\"" ++
    (str ",\"product\":\"" ++ (jsonEscape p.product ++ (str "\"" ++
    (str ",\"version\":\"" ++ (jsonEscape p.version ++ (str "\"" ++
    (str ",\"distro\":\"" ++ (jsonEscape p.distro ++ (str "\"" ++
    str "\x7d"))))))))))))))))

/-- The members of a `port` event. -/
def portMembers (p : Port) : List (Bytes × JsonNode) :=
  [(str "number", .number (decimal p.number.toNat)), (str "protocol", .string p.protocol.text),
    (str "service", .string p.service), (str "product", .string p.product),
    (str "version", .string p.version), (str "distro", .string p.distro)]

/-- The data of a `finding` event. -/
def findingText (f : Finding) : Bytes :=
  str "\x7b\"plugin_name\":\"" ++ (jsonEscape f.pluginName ++ (str "\"" ++
    (str ",\"title\":\"" ++ (jsonEscape f.title ++ (str "\"" ++
    (str ",\"description\":\"" ++ (jsonEscape f.description ++ (str "\"" ++
    (str ",\"severity\":\"" ++ (f.severity.text ++ (str "\"" ++
    (str ",\"confidence\":" ++ (doubleText f.confidenceScore ++
    (str ",\"verification\":\"" ++ (jsonEscape f.verification ++ (str "\"" ++
    (str ",\"verification_label\":\"" ++ (jsonEscape (verificationLabel f.verification) ++ (str "\"" ++
    (str ",\"cve\":\"" ++ (jsonEscape f.cveId ++ (str "\"" ++
    (str ",\"host\":\"" ++ (jsonEscape f.host ++ (str "\"" ++
    (str ",\"port_number\":" ++ (decimal f.portNumber.toNat ++
    (str ",\"protocol\":\"" ++ (f.protocol.text ++ (str "\"" ++
    (str ",\"scope\":\"" ++ (jsonEscape f.scope ++ (str "\"" ++
    (str ",\"service\":\"" ++ (jsonEscape f.service ++ (str "\"" ++
    (str ",\"product\":\"" ++ (jsonEscape f.product ++ (str "\"" ++
    (str ",\"version\":\"" ++ (jsonEscape f.version ++ (str "\"" ++
    (str ",\"evidence\":\"" ++ (jsonEscape f.evidence ++ (str "\"" ++
    (str ",\"evidence_data\":\x7b\"type\":\"" ++ (jsonEscape f.evidenceData.type ++
    (str "\",\"source\":\"" ++ (jsonEscape f.evidenceData.source ++
    (str "\",\"value\":\"" ++ (jsonEscape f.evidenceData.value ++
    (str "\",\"details\":\"" ++ (jsonEscape f.evidenceData.details ++ (str "\"\x7d" ++
    (str ",\"references\":" ++ (jsonStringArray f.references ++
    (str ",\"remediation\":\"" ++ (jsonEscape f.remediation ++ (str "\"" ++
    (str ",\"cvss\":" ++ (doubleText f.cvss ++
    (str ",\"cvss_vector\":\"" ++ (jsonEscape f.cvssVector ++ (str "\"" ++
    (str ",\"timestamp\":" ++ (decimalInt f.timestamp ++
    str "\x7d"))))))))))))))))))))))))))))))))))))))))))))))))))))))))))))))))))

/-- The members of a `finding` event. -/
def findingMembers (f : Finding) : List (Bytes × JsonNode) :=
  [(str "plugin_name", .string f.pluginName), (str "title", .string f.title),
    (str "description", .string f.description), (str "severity", .string f.severity.text),
    (str "confidence", .number (doubleText f.confidenceScore)), (str "verification", .string f.verification),
    (str "verification_label", .string (verificationLabel f.verification)), (str "cve", .string f.cveId),
    (str "host", .string f.host), (str "port_number", .number (decimal f.portNumber.toNat)),
    (str "protocol", .string f.protocol.text), (str "scope", .string f.scope), (str "service", .string f.service),
    (str "product", .string f.product), (str "version", .string f.version), (str "evidence", .string f.evidence),
    (str "evidence_data", .object [(str "type", f.evidenceData.type), (str "source", f.evidenceData.source),
      (str "value", f.evidenceData.value), (str "details", f.evidenceData.details)]),
    (str "references", .strings f.references), (str "remediation", .string f.remediation),
    (str "cvss", .number (doubleText f.cvss)), (str "cvss_vector", .string f.cvssVector),
    (str "timestamp", .number (decimalInt f.timestamp))]

/-- The name of an event. -/
def Frame.event : Frame → Bytes
  | .hello => str "hello"
  | .progress _ => str "progress"
  | .port _ => str "port"
  | .finding _ => str "finding"
  | .status _ => str "status"
  | .endOfStream => str "end"

/-- The data of an event. -/
def Frame.data : Frame → Bytes
  | .hello => str "\x7b\x7d"
  | .progress scanned => str "\x7b\"scanned\":" ++ (decimal scanned ++ str "\x7d")
  | .port p => portText p
  | .finding f => findingText f
  | .status s => str "\x7b\"status\":\"" ++ (s.text ++ str "\"\x7d")
  | .endOfStream => str "\x7b\x7d"

/-- The members of the object that the data of an event is. -/
def Frame.members : Frame → List (Bytes × JsonNode)
  | .hello => []
  | .progress scanned => [(str "scanned", .number (decimal scanned))]
  | .port p => portMembers p
  | .finding f => findingMembers f
  | .status s => [(str "status", .string s.text)]
  | .endOfStream => []

/-- `push`. -/
def Frame.text (frame : Frame) : Bytes :=
  str "event: " ++ frame.event ++ str "\ndata: " ++ frame.data ++ str "\n\n"

/-- The name of a protocol needs no escape. -/
theorem jsonEscape_protocol (p : Protocol) : jsonEscape p.text = p.text := by
  cases p <;> rfl

/-- The text of a port is that of its members. -/
theorem portText_eq (p : Port) : portText p = writeObject (portMembers p) := by
  rw [portText, ← jsonEscape_protocol p.protocol]
  rfl

/-- The name of a severity needs no escape. -/
theorem jsonEscape_severity (s : Severity) : jsonEscape s.text = s.text := by
  cases s <;> rfl

/-- The name of a status needs no escape. -/
theorem jsonEscape_status (s : JobStatus) : jsonEscape s.text = s.text := by
  cases s <;> rfl

/-- `json_string_array` in front of a text. -/
theorem jsonStringArray_append (values : List Bytes) (rest : Bytes) :
    jsonStringArray values ++ rest = writeNode (.strings values) rest := by
  have helements : ∀ rest, quotedElements values ++ rest = writeItems writeString values rest := by
    induction values with
    | nil => exact fun _ => rfl
    | cons v vs ih =>
      intro rest
      cases vs with
      | nil => simp [quotedElements, writeItems, writeString]
      | cons v' vs =>
        have hmore := ih rest
        simp [quotedElements, writeItems, writeString, ← hmore]
  rw [jsonStringArray, writeNode, ← helements]
  simp

set_option maxRecDepth 4000 in
/-- The text of a finding is that of its members. -/
theorem findingText_eq (f : Finding) : findingText f = writeObject (findingMembers f) := by
  rw [findingText, jsonStringArray_append, ← jsonEscape_severity f.severity, ← jsonEscape_protocol f.protocol]
  rfl

/-- The data of a frame is the text of its members. -/
theorem Frame.data_eq (frame : Frame) : frame.data = writeObject frame.members := by
  cases frame with
  | hello => rfl
  | progress scanned => rfl
  | port p => exact portText_eq p
  | finding f => exact findingText_eq f
  | status s =>
    rw [data, ← jsonEscape_status s]
    rfl
  | endOfStream => rfl

/-- Bytes of numbers only. -/
def OnlyNumberBytes (s : Bytes) : Prop := ∀ c ∈ s, isNumberByte c = true

/-- Two parts of a number. -/
theorem OnlyNumberBytes.append {s t : Bytes} (hs : OnlyNumberBytes s) (ht : OnlyNumberBytes t) :
    OnlyNumberBytes (s ++ t) := List.forall_mem_append.mpr ⟨hs, ht⟩

/-- Digits belong to a number. -/
theorem onlyNumberBytes_of_digits {s : Bytes} (h : ∀ c ∈ s, isDigit c = true) : OnlyNumberBytes s := by
  intro c hc
  simp [isNumberByte, h c hc]

/-- So does a decimal. -/
theorem onlyNumberBytes_decimal (n : ℕ) : OnlyNumberBytes (decimal n) :=
  onlyNumberBytes_of_digits fun _ => isDigit_of_mem_decimal

/-- Padding adds digits only. -/
theorem digit_of_mem_paddedDecimal {width n : ℕ} {c : Byte} (h : c ∈ Ztl.paddedDecimal width n) : isDigit c = true := by
  rw [Ztl.paddedDecimal, List.mem_append] at h
  rcases h with hzero | hdigit
  · rw [(List.mem_replicate.mp hzero).2]
    rfl
  · exact isDigit_of_mem_decimal hdigit

/-- So does a fraction. -/
theorem onlyNumberBytes_fractionText {digits : Bytes} (h : ∀ c ∈ digits, isDigit c = true) :
    OnlyNumberBytes (Ztl.fractionText digits) := by
  have hkept : ∀ c ∈ (digits.reverse.dropWhile (· == 48)).reverse, isDigit c = true := by
    intro c hc
    rw [List.mem_reverse] at hc
    exact h c (List.mem_reverse.mp ((List.dropWhile_sublist _).mem hc))
  rw [Ztl.fractionText]
  split
  · exact fun _ => nofun
  · exact List.forall_mem_cons.mpr ⟨rfl, onlyNumberBytes_of_digits hkept⟩

/-- A decimal is read back as a number. -/
theorem plainNode_decimal (n : ℕ) : (JsonNode.number (decimal n)).Plain := by
  obtain ⟨c, t, hn, -⟩ := exists_decimal_eq_cons n
  exact ⟨hn ▸ List.cons_ne_nil c t, onlyNumberBytes_decimal n⟩

/-- So is a number in scientific notation. -/
theorem plainNode_generalFormat (q : ℚ) : (JsonNode.number (Ztl.generalFormat q)).Plain := by
  have hpadded : ∀ width n, OnlyNumberBytes (Ztl.fractionText (Ztl.paddedDecimal width n)) :=
    fun _ _ => onlyNumberBytes_fractionText fun _ => digit_of_mem_paddedDecimal
  have hsign : ∀ exponent : ℤ, OnlyNumberBytes (if exponent < 0 then str "-" else str "+") := by
    intro exponent
    split
    · exact List.forall_mem_singleton.mpr rfl
    · exact List.forall_mem_singleton.mpr rfl
  have hexponent : OnlyNumberBytes (str "e") := List.forall_mem_singleton.mpr rfl
  have hpower : ∀ n, OnlyNumberBytes (Ztl.paddedDecimal 2 n) :=
    fun _ => onlyNumberBytes_of_digits fun _ => digit_of_mem_paddedDecimal
  have hparts : ∀ (mantissa : ℕ) (exponent : ℤ), (JsonNode.number (if -4 ≤ exponent ∧ exponent < 6 then
        decimal (mantissa / 10 ^ (5 - exponent).toNat) ++
          Ztl.fractionText (Ztl.paddedDecimal (5 - exponent).toNat (mantissa % 10 ^ (5 - exponent).toNat))
      else decimal (mantissa / 10 ^ 5) ++ Ztl.fractionText (Ztl.paddedDecimal 5 (mantissa % 10 ^ 5)) ++ str "e" ++
        (if exponent < 0 then str "-" else str "+") ++ Ztl.paddedDecimal 2 exponent.natAbs)).Plain := by
    intro mantissa exponent
    split
    · have hdecimal := plainNode_decimal (mantissa / 10 ^ (5 - exponent).toNat)
      exact ⟨List.append_ne_nil_of_left_ne_nil hdecimal.1 _, OnlyNumberBytes.append hdecimal.2 (hpadded _ _)⟩
    · have hdecimal := plainNode_decimal (mantissa / 10 ^ 5)
      have hne : decimal (mantissa / 10 ^ 5) ++ Ztl.fractionText (Ztl.paddedDecimal 5 (mantissa % 10 ^ 5)) ≠ [] :=
        List.append_ne_nil_of_left_ne_nil hdecimal.1 _
      refine ⟨List.append_ne_nil_of_left_ne_nil (List.append_ne_nil_of_left_ne_nil
        (List.append_ne_nil_of_left_ne_nil hne _) _) _, ?_⟩
      have hmantissa := OnlyNumberBytes.append hdecimal.2 (hpadded 5 (mantissa % 10 ^ 5))
      exact ((hmantissa.append hexponent).append (hsign exponent)).append (hpower _)
  exact hparts _ _

/-- So is an integer. -/
theorem plainNode_decimalInt (n : ℤ) : (JsonNode.number (decimalInt n)).Plain := by
  rw [decimalInt]
  split
  · exact ⟨List.cons_ne_nil _ _, List.forall_mem_cons.mpr ⟨rfl, onlyNumberBytes_decimal _⟩⟩
  · exact plainNode_decimal _

/-- So is every number that is written. -/
theorem plainNode_doubleText (q : ℚ) : (JsonNode.number (doubleText q)).Plain := by
  rw [doubleText]
  split
  · exact plainNode_decimal 0
  · split
    · exact ⟨List.cons_ne_nil _ _, List.forall_mem_cons.mpr ⟨rfl, (plainNode_generalFormat (-q)).2⟩⟩
    · exact plainNode_generalFormat q

/-- The members of a port are plain. -/
theorem plain_portMembers (p : Port) : ∀ member ∈ portMembers p, PlainKey member.1 ∧ member.2.Plain := by
  simp only [portMembers, List.forall_mem_cons]
  exact ⟨⟨rfl, plainNode_decimal _⟩, ⟨rfl, trivial⟩, ⟨rfl, trivial⟩, ⟨rfl, trivial⟩, ⟨rfl, trivial⟩, ⟨rfl, trivial⟩,
    nofun⟩

/-- The members of a finding are plain. -/
theorem plain_findingMembers (f : Finding) : ∀ member ∈ findingMembers f, PlainKey member.1 ∧ member.2.Plain := by
  have hevidence : (JsonNode.object [(str "type", f.evidenceData.type), (str "source", f.evidenceData.source),
      (str "value", f.evidenceData.value), (str "details", f.evidenceData.details)]).Plain := by
    simp only [JsonNode.Plain, List.forall_mem_cons]
    exact ⟨rfl, rfl, rfl, rfl, nofun⟩
  simp only [findingMembers, List.forall_mem_cons]
  exact ⟨⟨rfl, trivial⟩, ⟨rfl, trivial⟩, ⟨rfl, trivial⟩, ⟨rfl, trivial⟩, ⟨rfl, plainNode_doubleText _⟩, ⟨rfl, trivial⟩,
    ⟨rfl, trivial⟩, ⟨rfl, trivial⟩, ⟨rfl, trivial⟩, ⟨rfl, plainNode_decimal _⟩, ⟨rfl, trivial⟩, ⟨rfl, trivial⟩,
    ⟨rfl, trivial⟩, ⟨rfl, trivial⟩, ⟨rfl, trivial⟩, ⟨rfl, trivial⟩, ⟨rfl, hevidence⟩, ⟨rfl, trivial⟩, ⟨rfl, trivial⟩,
    ⟨rfl, plainNode_doubleText _⟩, ⟨rfl, trivial⟩, ⟨rfl, plainNode_decimalInt _⟩, nofun⟩

/-- The members of every frame are plain. -/
theorem Frame.plain_members (frame : Frame) : ∀ member ∈ frame.members, PlainKey member.1 ∧ member.2.Plain := by
  cases frame with
  | hello => exact nofun
  | progress scanned => exact List.forall_mem_singleton.mpr ⟨rfl, plainNode_decimal _⟩
  | port p => exact plain_portMembers p
  | finding f => exact plain_findingMembers f
  | status s => exact List.forall_mem_singleton.mpr ⟨rfl, trivial⟩
  | endOfStream => exact nofun

/-- A text without control bytes stays on its line. -/
theorem Printable.oneLine {s : Bytes} (h : Printable s) : OneLine s :=
  ⟨fun hmem => absurd (h 10 hmem) (by decide), fun hmem => absurd (h 13 hmem) (by decide)⟩

/-- The data of a frame have no control characters. -/
theorem Frame.printable_data (frame : Frame) : Printable frame.data := by
  rw [frame.data_eq]
  exact printable_writeObject frame.plain_members

/-- `push` writes the lines of one event. -/
theorem Frame.text_eq (frame : Frame) : frame.text = ServerSentEvents.eventLines frame.event frame.data := by
  rw [Frame.text, ServerSentEvents.eventLines, show str "event: " = ServerSentEvents.eventField ++ [58, 32] from rfl,
    show str "\ndata: " = 10 :: ServerSentEvents.dataField ++ [58, 32] from rfl, show str "\n\n" = [10, 10] from rfl]
  simp

/-- The name of an event is one line. -/
theorem Frame.event_spec (frame : Frame) : OneLine frame.event ∧ frame.event ≠ [] := by
  have hevent : frame.event ∈ [str "hello", str "progress", str "port", str "finding", str "status", str "end"] := by
    cases frame <;> simp [Frame.event]
  have hall : ∀ e ∈ [str "hello", str "progress", str "port", str "finding", str "status", str "end"],
      (10 ∉ e ∧ 13 ∉ e) ∧ e ≠ [] := by decide
  exact hall _ hevent

/-- Streamed results cannot break their framing: no data line contains a line end, a client reads the events
that were pushed, and it reads their data as the objects that were written, strings byte for byte. -/
theorem stream_framing (frames : List Frame) :
    (∀ frame ∈ frames, OneLine frame.data) ∧
      ServerSentEvents.events (frames.flatMap Frame.text) = frames.map (fun frame => (frame.event, frame.data)) ∧
      (∀ frame ∈ frames, readObject frame.data = some frame.members) ∧
      ∀ s rest, readQuoted (jsonEscape s ++ 34 :: rest) = some (s, rest) := by
  refine ⟨fun frame _ => frame.printable_data.oneLine, ?_, fun frame _ => ?_, readQuoted_jsonEscape⟩
  · have htext : Frame.text = fun frame => ServerSentEvents.eventLines frame.event frame.data :=
      funext Frame.text_eq
    rw [htext]
    apply ServerSentEvents.events_eventLines
    intro frame
    exact ⟨frame.event_spec.1, frame.printable_data.oneLine, frame.event_spec.2⟩
  · rw [frame.data_eq]
    exact readObject_writeObject frame.plain_members

end ZeroTrust
