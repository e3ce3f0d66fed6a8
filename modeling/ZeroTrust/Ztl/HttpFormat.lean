import ZeroTrust.Core.Substring
import ZeroTrust.Ztl.Execution

/-!
# HTTP responses read back

A response in the usual format comes back from `parse_http_response` as it was written, and its headers are
found by their names.
-/

namespace ZeroTrust.Ztl

/-- A header line without its end. -/
def headerLine (header : Bytes × Bytes) : Bytes := header.1 ++ str ": " ++ header.2

/-- A status line without its end. -/
def statusLine (status : ℕ) (reason : Bytes) : Bytes := str "HTTP/1.1 " ++ decimal status ++ str " " ++ reason

/-- A response. -/
def formatResponse (status : ℕ) (reason : Bytes) (headers : List (Bytes × Bytes)) (body : Bytes) : Bytes :=
  statusLine status reason ++ crlf ++ headers.flatMap (headerLine · ++ crlf) ++ crlf ++ body

/-- Text on one line. -/
def OneLine (s : Bytes) : Prop := 13 ∉ s ∧ 10 ∉ s

instance (s : Bytes) : Decidable (OneLine s) := inferInstanceAs (Decidable (_ ∧ _))

/-- Name and value of a header line: trimmed text, without a colon in the name. -/
structure PlainHeader (header : Bytes × Bytes) : Prop where
  name : OneLine header.1
  value : OneLine header.2
  trimmed_name : trim header.1 = header.1
  trimmed_value : trim header.2 = header.2
  colon : 58 ∉ header.1

variable {status : ℕ} {reason body : Bytes} {headers : List (Bytes × Bytes)}

/-- Two texts without line ends have none together. -/
theorem OneLine.append {s t : Bytes} (hs : OneLine s) (ht : OneLine t) : OneLine (s ++ t) :=
  ⟨fun h => (List.mem_append.mp h).elim hs.1 ht.1, fun h => (List.mem_append.mp h).elim hs.2 ht.2⟩

/-- A number has no line end. -/
theorem oneLine_decimal (n : ℕ) : OneLine (decimal n) := ⟨not_mem_decimal rfl, not_mem_decimal rfl⟩

/-- The line of a plain header has no line end inside. -/
theorem PlainHeader.oneLine {header : Bytes × Bytes} (h : PlainHeader header) : OneLine (headerLine header) :=
  (h.name.append (by decide)).append h.value

/-- A line that can stand in a head. -/
def HeadLine (line : Bytes) : Prop := OneLine line ∧ line ≠ []

/-- A line end in front of a line is passed over. -/
theorem findSub_lineEnd {line behind : Bytes} (h : HeadLine line) :
    findSub (crlf ++ crlf) (crlf ++ (line ++ behind)) = (findSub (crlf ++ crlf) (line ++ behind)).map (· + 2) := by
  cases line with
  | nil => exact absurd rfl h.2
  | cons c line =>
    have hc : (13 : Byte) ≠ c := fun heq => h.1.1 (heq ▸ List.mem_cons_self)
    have hstart : (crlf ++ crlf).isPrefixOf (13 :: 10 :: (c :: line ++ behind)) = false := by
      simp [crlf, List.isPrefixOf, hc]
    have hfeed : findSub (crlf ++ crlf) (10 :: (c :: line ++ behind)) =
        (findSub (crlf ++ crlf) (c :: line ++ behind)).map (· + 1) :=
      findSub_append (t := [10]) (by decide)
    change findSub (crlf ++ crlf) (13 :: 10 :: (c :: line ++ behind)) = _
    rw [findSub, hstart, if_neg Bool.false_ne_true, hfeed, Option.map_map]
    rfl

/-- The empty line behind the head is the first one. -/
theorem findSub_head {lines : List Bytes} (hne : lines ≠ []) (h : ∀ line ∈ lines, HeadLine line) (body : Bytes) :
    findSub (crlf ++ crlf) (crlf.intercalate lines ++ (crlf ++ (crlf ++ body))) =
      some (crlf.intercalate lines).length := by
  have hline : ∀ {line : Bytes} (behind : Bytes), HeadLine line →
      findSub (crlf ++ crlf) (line ++ behind) = (findSub (crlf ++ crlf) behind).map (· + line.length) :=
    fun behind hhead => findSub_append hhead.1.1
  induction lines with
  | nil => exact absurd rfl hne
  | cons line rest ih =>
    obtain ⟨hfirst, hrest⟩ := List.forall_mem_cons.mp h
    cases rest with
    | nil =>
      rw [List.intercalate_singleton, hline _ hfirst, ← List.append_assoc,
        findSub_of_isPrefix (List.prefix_append (crlf ++ crlf) body), Option.map_some, Nat.zero_add]
    | cons next rest =>
      have hnext : HeadLine next := hrest next List.mem_cons_self
      obtain ⟨behind, hbehind⟩ : ∃ behind, crlf.intercalate (next :: rest) ++ (crlf ++ (crlf ++ body)) =
          next ++ behind := by
        cases rest with
        | nil => exact ⟨_, by rw [List.intercalate_singleton]⟩
        | cons third rest => exact ⟨_, by rw [List.intercalate_cons_cons, List.append_assoc, List.append_assoc]⟩
      rw [List.intercalate_cons_cons, List.append_assoc, List.append_assoc, hline _ hfirst, hbehind,
        findSub_lineEnd hnext, ← hbehind, ih (List.cons_ne_nil next rest) hrest, Option.map_some, Option.map_some,
        List.length_append, List.length_append]
      apply congrArg some
      change _ + 2 + line.length = line.length + 2 + _
      omega

/-- The lines of a head are read one by one. -/
theorem getlines_head {lines : List Bytes} (hne : lines ≠ []) (h : ∀ line ∈ lines, HeadLine line) :
    (getlines 10 (crlf.intercalate lines)).map chomp = lines := by
  have hchomp : ∀ line : Bytes, 13 ∉ line → chomp line = line := by
    intro line hline
    rw [chomp, if_neg fun hlast => hline (List.mem_of_getLast? hlast)]
  induction lines with
  | nil => exact absurd rfl hne
  | cons line rest ih =>
    obtain ⟨hline, hrest⟩ := List.forall_mem_cons.mp h
    cases rest with
    | nil =>
      rw [List.intercalate_singleton, getlines_of_not_mem hline.1.2 hline.2, List.map_singleton, hchomp line hline.1.1]
    | cons next rest =>
      have hsplit : crlf.intercalate (line :: next :: rest) =
          (line ++ [13]) ++ 10 :: crlf.intercalate (next :: rest) := by
        simp [List.intercalate_cons_cons, crlf]
      have hend : 10 ∉ line ++ [13] := by simp [hline.1.2]
      rw [hsplit, getlines_append_cons hend, List.map_cons, ih (List.cons_ne_nil next rest) hrest, chomp,
        if_pos (by simp), List.dropLast_concat]

/-- The head of a response is its status line and the lines of its headers. -/
theorem formatResponse_eq : formatResponse status reason headers body =
    crlf.intercalate (statusLine status reason :: headers.map headerLine) ++ (crlf ++ (crlf ++ body)) := by
  have hlines : ∀ (first : Bytes) (headers : List (Bytes × Bytes)),
      first ++ crlf ++ headers.flatMap (headerLine · ++ crlf) =
        crlf.intercalate (first :: headers.map headerLine) ++ crlf := by
    intro first headers
    induction headers generalizing first with
    | nil => simp
    | cons header headers ih =>
      rw [List.flatMap_cons, List.map_cons, List.intercalate_cons_cons, List.append_assoc (first ++ crlf), ← ih]
  rw [formatResponse, hlines]
  simp

/-- The code of a status line is read back. -/
theorem statusCode_statusLine (h : status < 2 ^ 31) : statusCode (statusLine status reason) = status := by
  have hline : statusLine status reason = str "HTTP/1.1" ++ 32 :: (decimal status ++ 32 :: reason) := by
    have hversion : str "HTTP/1.1 " = str "HTTP/1.1" ++ [32] := rfl
    have hblank : str " " = [32] := rfl
    simp [statusLine, hversion, hblank]
  have hbehind : (str "HTTP/1.1" ++ 32 :: (decimal status ++ 32 :: reason)).drop ((str "HTTP/1.1").length + 1) =
      decimal status ++ 32 :: reason := by
    rw [← List.drop_drop, List.drop_left]
    rfl
  have hcode : (decimal status ++ 32 :: reason).takeWhile (· != 32) = decimal status := by
    rw [List.takeWhile_append_of_pos, List.takeWhile_cons_of_neg (by decide), List.append_nil]
    intro c hc
    have hspace : c ≠ 32 := by
      rintro rfl
      exact not_mem_decimal rfl hc
    simp [hspace]
  rw [statusCode, hline, findByte_append_cons (by decide)]
  dsimp only
  rw [hbehind, hcode, stoi_decimal h]
  rfl

/-- A header is read back. -/
theorem headerOf_headerLine {header : Bytes × Bytes} (h : PlainHeader header) :
    headerOf (headerLine header) = some header := by
  have hline : headerLine header = header.1 ++ 58 :: (32 :: header.2) := by
    have hcolon : str ": " = [58, 32] := rfl
    simp [headerLine, hcolon]
  have hbehind : (header.1 ++ 58 :: (32 :: header.2)).drop (header.1.length + 1) = 32 :: header.2 := by
    rw [← List.drop_drop, List.drop_left]
    rfl
  have hblank : trim (32 :: header.2) = trim header.2 := by
    rw [trim, List.dropWhile_cons_of_pos (by decide)]
    rfl
  rw [headerOf, hline, findByte_append_cons h.colon, Option.map_some, List.take_left, hbehind, hblank, h.trimmed_name,
    h.trimmed_value]

/-- A response is read back. -/
theorem parseHttpResponse_formatResponse (hstatus : status < 2 ^ 31) (hreason : OneLine reason)
    (hheaders : ∀ header ∈ headers, PlainHeader header) :
    parseHttpResponse (formatResponse status reason headers body) = ⟨status, headers, body⟩ := by
  have hstatusLine : HeadLine (statusLine status reason) := by
    have hversion : OneLine (str "HTTP/1.1 ") := by decide
    refine ⟨((hversion.append (oneLine_decimal status)).append (by decide)).append hreason, ?_⟩
    have hblank : str " " = [32] := rfl
    simp [statusLine, hblank]
  have hheaderLine : ∀ header ∈ headers, HeadLine (headerLine header) := by
    intro header hheader
    have hcolon : str ": " = [58, 32] := rfl
    exact ⟨(hheaders header hheader).oneLine, by simp [headerLine, hcolon]⟩
  have hlines : ∀ line ∈ statusLine status reason :: headers.map headerLine, HeadLine line := by
    rw [List.forall_mem_cons, List.forall_mem_map]
    exact ⟨hstatusLine, hheaderLine⟩
  have hne : statusLine status reason :: headers.map headerLine ≠ [] := List.cons_ne_nil _ _
  have hbody : (crlf.intercalate (statusLine status reason :: headers.map headerLine) ++ (crlf ++ (crlf ++ body))).drop
      ((crlf.intercalate (statusLine status reason :: headers.map headerLine)).length + 4) = body := by
    rw [← List.drop_drop, List.drop_left]
    rfl
  have hkept : (headers.map headerLine).takeWhile (!·.isEmpty) = headers.map headerLine := by
    rw [List.takeWhile_eq_self_iff, List.forall_mem_map]
    intro header hheader
    simpa [List.isEmpty_iff] using (hheaderLine header hheader).2
  have hread : (headers.map headerLine).filterMap headerOf = headers := by
    rw [List.filterMap_map]
    exact (List.filterMap_congr fun header hheader => headerOf_headerLine (hheaders header hheader)).trans
      List.filterMap_some
  rw [parseHttpResponse, formatResponse_eq, findSub_head hne hlines]
  dsimp only
  rw [List.take_left, hbody, getlines_head hne hlines]
  dsimp only
  rw [statusCode_statusLine hstatus, hkept, hread]

/-- What `header(name)` yields says whether there is such a header, and its value. -/
def ReportsHeader (w : World) (response : RawHttpResponse) (name : Bytes) (found : Option Bytes) : Prop :=
  ∀ (self : Value) (rest : List Value) (named : Env) (pos : Pos) (m : Machine), ∃ address m',
    callNative w (.responseHeader response) ⟨self, .string name :: rest, named, pos⟩ none m = .ok (.object address) m' ∧
    (∃ m'', invokeMethod w (.object address) (str "exists") {} none pos m' = .ok (.bool found.isSome) m'') ∧
    ∃ m'', invokeMethod w (.object address) (str "value") {} none pos m' = .ok (.string (found.getD [])) m''

/-- A new object is found at its address. -/
theorem newObject_spec (typeName : Bytes) (fields : List (Bytes × Value)) (methods : List (Bytes × Native))
    (m : Machine) :
    ∃ address id m', newObject typeName fields methods m = .ok (.object address) m' ∧
      m'.store.objects address =
        { typeName := typeName, fields := fieldTable fields, methods := methodTable id methods } :=
  ⟨_, _, _, rfl, Function.update_self _ _ _⟩

/-- A header object answers what it was made of. -/
theorem makeHeaderObj_reports (w : World) (found : Bool) (value : Bytes) (pos : Pos) (m : Machine) :
    ∃ address m', makeHeaderObj found value m = .ok (.object address) m' ∧
      (∃ m'', invokeMethod w (.object address) (str "exists") {} none pos m' = .ok (.bool found) m'') ∧
      ∃ m'', invokeMethod w (.object address) (str "value") {} none pos m' = .ok (.string value) m'' := by
  obtain ⟨address, id, m', hnew, hobject⟩ := newObject_spec (str "Header")
    [(str "_exists", .bool found), (str "_value", .string value)]
    [(str "exists", .headerExists), (str "value", .headerValue)] m
  have hcall : ∀ (name field : Bytes) (fn : NativeFn) (v : Value),
      (∀ ctx, callNative w fn.op ctx none = headerField field ctx) →
      (m'.store.objects address).methods name = some fn → (m'.store.objects address).fields field = some v →
      ∃ m'', invokeMethod w (.object address) name {} none pos m' = .ok v m'' := by
    intro name field fn v hop hmethod hv
    rw [invokeMethod_object hmethod, invoke, hop, headerField]
    refine ⟨_, congrArg (Outcome.ok · _) ?_⟩
    change ((m'.store.objects address).fields field).getD .null = v
    rw [hv]
    rfl
  refine ⟨address, m', hnew, ?_, ?_⟩
  · apply hcall (str "exists") (str "_exists") ⟨id, .headerExists⟩ _ (fun _ => rfl) <;> rw [hobject] <;> rfl
  · apply hcall (str "value") (str "_value") ⟨id + 1, .headerValue⟩ _ (fun _ => rfl) <;> rw [hobject] <;> rfl

/-- The first header with a name counts, in any letter case. -/
theorem reportsHeader_find (w : World) (response : RawHttpResponse) (name : Bytes) :
    ReportsHeader w response name
      ((response.headers.find? fun header => toLower header.1 == toLower name).map Prod.snd) := by
  intro self rest named pos m
  have hcall : callNative w (.responseHeader response) ⟨self, .string name :: rest, named, pos⟩ none =
      responseHeader response ⟨self, .string name :: rest, named, pos⟩ := rfl
  have hname : CallContext.firstString ⟨self, .string name :: rest, named, pos⟩
      (str "header(name) requires 1 argument") (str "header name") = .ok name := rfl
  rw [hcall, responseHeader, hname, orThrow_ok_bind]
  cases response.headers.find? fun header => toLower header.1 == toLower name with
  | none => exact makeHeaderObj_reports w false [] pos m
  | some header => exact makeHeaderObj_reports w true header.2 pos m

/-- A response in the usual format is read back with its status, its headers and its body, and a header is found by
its name in any letter case, the first one if there are several. -/
theorem httpResponse_roundTrip {status : ℕ} {reason body : Bytes} {headers : List (Bytes × Bytes)}
    (hstatus : status < 2 ^ 31) (hreason : OneLine reason) (hheaders : ∀ header ∈ headers, PlainHeader header) :
    parseHttpResponse (formatResponse status reason headers body) = ⟨status, headers, body⟩ ∧
    ∀ (w : World) (name : Bytes),
      (∀ before key value after, headers = before ++ (key, value) :: after →
        (∀ header ∈ before, toLower header.1 ≠ toLower name) → toLower key = toLower name →
        ReportsHeader w (parseHttpResponse (formatResponse status reason headers body)) name (some value)) ∧
      ((∀ header ∈ headers, toLower header.1 ≠ toLower name) →
        ReportsHeader w (parseHttpResponse (formatResponse status reason headers body)) name none) := by
  have hread : parseHttpResponse (formatResponse status reason headers body) = ⟨status, headers, body⟩ :=
    parseHttpResponse_formatResponse hstatus hreason hheaders
  refine ⟨hread, fun w name => ?_⟩
  rw [hread]
  have hfound := reportsHeader_find w ⟨status, headers, body⟩ name
  constructor
  · intro before key value after heq hbefore hkey
    have hfind : headers.find? (fun header => toLower header.1 == toLower name) = some (key, value) := by
      rw [heq, List.find?_append, List.find?_eq_none.mpr, Option.none_or, List.find?_cons_of_pos (by simp [hkey])]
      intro header hheader
      simpa using hbefore header hheader
    rw [hfind] at hfound
    exact hfound
  · intro hnone
    have hfind : headers.find? (fun header => toLower header.1 == toLower name) = none := by
      rw [List.find?_eq_none]
      intro header hheader
      simpa using hnone header hheader
    rw [hfind] at hfound
    exact hfound

/-- A response of nginx. -/
theorem httpResponse_roundTrip_nginx : 200 < 2 ^ 31 ∧
    parseHttpResponse (formatResponse 200 (str "OK") [(str "Server", str "nginx/1.18.0: x")] (str "a\r\n\r\nb")) =
      ⟨200, [(str "Server", str "nginx/1.18.0: x")], str "a\r\n\r\nb"⟩ := by
  refine ⟨by decide, (httpResponse_roundTrip (by decide) (by decide) ?_).1⟩
  intro header hheader
  rw [List.mem_singleton.mp hheader]
  exact ⟨by decide, by decide, by decide, by decide, by decide⟩

end ZeroTrust.Ztl
