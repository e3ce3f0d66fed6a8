import ZeroTrust.Scan.TlsChecks
import ZeroTrust.Ztl.ServiceDetection

/-!
# The cipher check

`tls-cipher-check.ztl` on a port with `https`: it reports one finding for the cipher of a handshake with a
certificate. The native checks of weak ciphers look for other markers in the names of ciphers.
-/

namespace ZeroTrust.Ztl

open Function (update)

variable {w : World} {m m' : Machine} {run : ℕ}

/-- A body comes to its end or returns, with findings of some titles. -/
def Finds (w : World) (run : ℕ) (body : List Stmt) (m : Machine) (titles : List Bytes) : Prop :=
  ∃ m', (StmtsThrow w body m Exn.IsReturn m' ∨ StmtsYield w body m m') ∧
    (m'.store.runs run).findings.map (·.title) = (m.store.runs run).findings.map (·.title) ++ titles

section Finds

variable {first : Stmt} {rest : List Stmt} {titles : List Bytes} {c : Expr}

/-- A statement that runs to its end without touching the runs can stand in front. -/
theorem Finds.cons (hrest : Finds w run rest m' titles) (hfirst : StmtYields w first m m')
    (hruns : m'.store.runs = m.store.runs) : Finds w run (first :: rest) m titles := by
  obtain ⟨m₂, hend, hfindings⟩ := hrest
  rw [hruns] at hfindings
  exact ⟨m₂, hend.imp (stmtsThrow_cons hfirst) (stmtsYield_cons hfirst), hfindings⟩

/-- An assignment in front. -/
theorem Finds.assign {t : Expr} {name : Bytes} {v : Value} (hrest : Finds w run rest (m'.assign name v) titles)
    (hv : ExprYields w t m v m') (hruns : m'.store.runs = m.store.runs) :
    Finds w run (.assign {} name t :: rest) m titles :=
  hrest.cons (stmtYields_assign hv) ((congrArg Store.runs (Machine.assign_store m' name v)).trans hruns)

/-- A conditional return in front. -/
theorem finds_guard {b : Bool} (hc : ExprYields w c m (.bool b) m) (hrest : Finds w run rest m titles) :
    Finds w run (.ifThen {} c [.ret {} none] [] :: rest) m (if b then [] else titles) := by
  cases b with
  | true => exact ⟨m, .inl (stmtsThrow_returnIf hc rfl rest), (List.append_nil _).symm⟩
  | false => exact hrest.cons (stmtYields_unless hc rfl _) rfl

end Finds

/-- The variables that the inspection reads. -/
structure Machine.Inspects (m : Machine) (run : ℕ) (cipher : Bytes) : Prop where
  read : m.var (str "cipher") = some (.string cipher)
  lower : m.var (str "cipher_lower") = some (.string (toLower cipher))
  finding : ∃ fn, m.var (str "finding") = some (.function fn) ∧ fn.op = .finding run

/-- The title that the inspection reports for a cipher in lower case. -/
def cipherTitle (lower : Bytes) : Bytes :=
  if contains lower (str "null") then str "NULL TLS cipher detected"
  else if contains lower (str "export") then str "EXPORT TLS cipher detected"
  else if contains lower (str "rc4") then str "RC4 TLS cipher detected"
  else if contains lower (str "3des") || contains lower (str "des-cbc") then str "3DES or DES TLS cipher detected"
  else if contains lower (str "md5") then str "MD5-based TLS cipher detected"
  else if contains lower (str "rc2") then str "RC2 TLS cipher detected"
  else str "TLS cipher inspected"

section Inspection

variable {cipher : Bytes} {severity title description confidence remediation : String}

/-- The machine after a finding. -/
def Machine.found (w : World) (m : Machine) (run : ℕ) (f : FindingOut) : Machine :=
  m.withStore (Store.withRun (m.store.log .clock) run fun state =>
    { state with findings := state.findings ++ [{ f with timestamp := w.net.clock (.clock :: m.store.history) }] })

/-- A finding adds its own title to those of the run. -/
theorem Machine.found_titles (w : World) (m : Machine) (run : ℕ) (f : FindingOut) :
    ((m.found w run f).store.runs run).findings.map (·.title) =
      (m.store.runs run).findings.map (·.title) ++ [f.title] := by
  have hrun : (m.found w run f).store.runs run = { m.store.runs run with
      findings := (m.store.runs run).findings ++ [{ f with timestamp := w.net.clock (.clock :: m.store.history) }] } :=
    Function.update_self _ _ _
  rw [hrun, List.map_append]
  rfl

/-- A call of `finding`. -/
theorem stmtYields_finding (h : m.Inspects run cipher) {ts : List CallArg} {args : Arguments} {f : FindingOut}
    (hargs : ArgsYield w ts {} m args m)
    (hpos : ∀ pos, findingOf (m.store.runs run) m.store ⟨.null, args.positional, args.named, pos⟩ =
      findingOf (m.store.runs run) m.store ⟨.null, args.positional, args.named, {}⟩)
    (hf : findingOf (m.store.runs run) m.store ⟨.null, args.positional, args.named, {}⟩ = .ok f) :
    StmtYields w (Shipped.run (Shipped.call (Shipped.ident "finding") ts)) m (m.found w run f) := by
  obtain ⟨fn, hvar, hop⟩ := h.finding
  apply stmtYields_expr
  refine exprYields_identCall (r := .null) hargs hvar fun pos before => ⟨before, ?_⟩
  rw [hop]
  exact findingFn_run w run ((hpos pos).trans hf)

/-- The report of a cipher. -/
theorem stmtYields_cipherFinding (severity title description confidence : String) (h : m.Inspects run cipher)
    (remediation : Option String) :
    ∃ f, f.title = str title ∧ StmtYields w (Shipped.cipherFinding severity title description confidence
      (remediation.elim [] fun text => [Shipped.named "remediation" (Shipped.text text)])) m (m.found w run f) := by
  have hevidence : ExprYields w (Shipped.binary .add (Shipped.text "Negotiated cipher: ") (Shipped.ident "cipher")) m
      (.string (str "Negotiated cipher: " ++ cipher)) m :=
    exprYields_binary (by decide) (exprYields_string _ m) (exprYields_ident h.read) fun _ => rfl
  have hargs : ∀ {ts : List CallArg} {args : Arguments}, ArgsYield w ts _ m args m →
      ArgsYield w ([Shipped.named "severity" (Shipped.text severity), Shipped.named "title" (Shipped.text title),
        Shipped.named "description" (Shipped.text description),
        Shipped.named "evidence" (Shipped.binary .add (Shipped.text "Negotiated cipher: ") (Shipped.ident "cipher")),
        Shipped.named "verification" (Shipped.text "ACTIVE_CHECK"),
        Shipped.named "confidence" (Shipped.number confidence)] ++ ts) {} m args m := fun hts =>
    argsYield_cons (exprYields_string _ m) (argsYield_cons (exprYields_string _ m) (argsYield_cons
      (exprYields_string _ m) (argsYield_cons hevidence (argsYield_cons (exprYields_string _ m)
        (argsYield_cons (exprYields_number _ m) hts)))))
  cases remediation with
  | none => exact ⟨_, rfl, stmtYields_finding h (hargs (argsYield_nil _ m)) (fun _ => rfl) rfl⟩
  | some text =>
    exact ⟨_, rfl, stmtYields_finding h (hargs (argsYield_cons (exprYields_string _ m) (argsYield_nil _ m)))
      (fun _ => rfl) rfl⟩

/-- The report behind all tests. -/
theorem finds_cipherFinding (h : m.Inspects run cipher) :
    Finds w run [Shipped.cipherFinding severity title description confidence []] m [str title] := by
  obtain ⟨f, htitle, hyields⟩ := stmtYields_cipherFinding (w := w) severity title description confidence h none
  refine ⟨m.found w run f, .inr (stmtsYield_cons hyields (stmtsYield_nil _)), ?_⟩
  rw [Machine.found_titles, htitle]

/-- The test for a weak cipher. -/
theorem finds_weakCipher (h : m.Inspects run cipher) {c : Expr} {b : Bool} (hc : ExprYields w c m (.bool b) m)
    {rest : List Stmt} {titles : List Bytes} (hrest : Finds w run rest m titles) :
    Finds w run (Shipped.weakCipher c severity title description remediation :: rest) m
      (if b then [str title] else titles) := by
  cases b with
  | false => exact hrest.cons (stmtYields_unless hc rfl _) rfl
  | true =>
    have hpush : m.push.Inspects run cipher := ⟨h.read, h.lower, h.finding⟩
    obtain ⟨f, htitle, hyields⟩ :=
      stmtYields_cipherFinding (w := w) severity title description "0.99" hpush (some remediation)
    have hbody : StmtsThrow w [Shipped.cipherFinding severity title description "0.99"
        [Shipped.named "remediation" (Shipped.text remediation)], Shipped.ret] m.push Exn.IsReturn
        (m.push.found w run f) :=
      stmtsThrow_cons hyields (stmtsThrow_first (stmtThrows_return _) [])
    refine ⟨_, .inl (stmtsThrow_first (stmtThrows_if hc rfl hbody) rest), ?_⟩
    change ((m.push.found w run f).store.runs run).findings.map (·.title) = _
    rw [Machine.found_titles, htitle]
    rfl

/-- The plugin's look for a marker answers whether the lowered cipher holds it. -/
theorem exprYields_cipherContains (h : m.Inspects run cipher) (marker : String) :
    ExprYields w (Shipped.cipherContains marker) m (.bool (contains (toLower cipher) (str marker))) m :=
  exprYields_stringMethod (exprYields_ident h.lower) (argsYield_cons (exprYields_string _ m) (argsYield_nil _ m))
    fun _ => rfl

/-- The inspection reports the first test that applies. -/
theorem finds_inspectCipher (h : m.Inspects run cipher) :
    Finds w run Shipped.inspectCipher m [cipherTitle (toLower cipher)] := by
  have hmarker : ∀ marker : String, ExprYields w (Shipped.cipherContains marker) m
      (.bool (contains (toLower cipher) (str marker))) m := exprYields_cipherContains h
  have hinspect : Finds w run Shipped.inspectCipher m _ :=
    finds_weakCipher h (hmarker "null") <| finds_weakCipher h (hmarker "export") <|
    finds_weakCipher h (hmarker "rc4") <| finds_weakCipher h (exprYields_or (hmarker "3des") (hmarker "des-cbc")) <|
    finds_weakCipher h (hmarker "md5") <| finds_weakCipher h (hmarker "rc2") (finds_cipherFinding h)
  unfold cipherTitle
  split_ifs at hinspect ⊢ <;> exact hinspect

end Inspection

/-- The library as the cipher check sees it. -/
structure Machine.Equipped (m : Machine) (run : ℕ) (p : LoadedPlugin) (host : Bytes) (port : ℤ) (s : Store) : Prop
    extends m.Started p host port s where
  tls : ∃ fn, m.var (str "net::tls") = some (.function fn) ∧ fn.op = .netTls
  finding : ∃ fn, m.var (str "finding") = some (.function fn) ∧ fn.op = .finding run
  kb : ∃ address fn, m.var (str "kb") = some (.object address) ∧ address < m.store.next ∧
    (m.store.objects address).methods (str "set_scoped") = some fn ∧ fn.op = .kbSetScoped run

/-- The fields of a report. -/
def reportFields (report : TlsHandshakeReport) : List (Bytes × Value) :=
  [(str "ok", .bool (report.result = .ok)),
   (str "result", .string report.result.text),
   (str "protocol_version", .string report.protocolVersion),
   (str "cipher", .string report.cipherName),
   (str "certificate_present", .bool report.certificatePresent),
   (str "subject", .string report.certificate.subject),
   (str "issuer", .string report.certificate.issuer),
   (str "not_before", .string report.certificate.notBefore),
   (str "not_after", .string report.certificate.notAfter),
   (str "signature_algorithm", .string report.certificate.signatureAlgorithm),
   (str "self_signed", .bool report.certificate.selfSigned),
   (str "expired", .bool report.certificate.expired),
   (str "days_until_expiry", .number report.certificate.daysUntilExpiry)]

/-- The titles that the check reports for a handshake. -/
def reportTitles (report : TlsHandshakeReport) : List Bytes :=
  if report.result = .ok ∧ report.certificatePresent = true ∧ report.cipherName ≠ [] then
    [cipherTitle (toLower report.cipherName)]
  else []

section Handshake

variable {p : LoadedPlugin} {host : Bytes} {port : ℤ} {s : Store} {report : TlsHandshakeReport}

/-- The store after a write to the KB of a run. -/
def Store.setScoped (s : Store) (run : ℕ) (key : Bytes) (v : Value) : Store :=
  if (s.runs run).hasKb then { s with kb := s.kb.set key v } else s

/-- A scoped key leaves the runs as they are. -/
theorem Store.setScoped_runs (s : Store) (key : Bytes) (v : Value) : (s.setScoped run key v).runs = s.runs := by
  unfold Store.setScoped
  split <;> rfl

/-- `kb.set_scoped` writes the cipher under the port's key. -/
theorem yields_kbSetScoped (self : Value) (cipher : Bytes) (named : Env) (pos : Pos) (m : Machine) :
    Yields (kbSetScoped run ⟨self, [.string (str "port"), .string (str "tls.cipher"), .string cipher], named, pos⟩) m
      .null
      (m.withStore (m.store.setScoped run (str "port.tls.cipher") (.string cipher))) := by
  refine fun before => ⟨before, ?_⟩
  change (if (m.store.runs run).hasKb = true then
    (changeStore fun s => { s with kb := s.kb.set (str "port.tls.cipher") (.string cipher) }) >>= fun _ => pure .null
    else pure .null : Eval Value) (m.withTrace before) = _
  unfold Store.setScoped
  split <;> rfl

/-- What the check does with a report. -/
theorem finds_report {address : ℕ} (hreport : m.var (str "report") = some (.object address))
    (hfields : (m.store.objects address).fields = fieldTable (reportFields report))
    (hfinding : ∃ fn, m.var (str "finding") = some (.function fn) ∧ fn.op = .finding run)
    (hkb : ∃ address fn, m.var (str "kb") = some (.object address) ∧
      (m.store.objects address).methods (str "set_scoped") = some fn ∧ fn.op = .kbSetScoped run) :
    Finds w run (Shipped.tlsCipherBody.drop 2) m (reportTitles report) := by
  have hfield : ∀ (name : String) {v : Value}, fieldTable (reportFields report) (str name) = some v →
      ExprYields w (Shipped.member (Shipped.ident "report") name) m v m := by
    intro name v hv
    exact exprYields_field (exprYields_ident hreport) (by rw [hfields, hv])
  obtain ⟨object, kbSet, hkbVar, hkbMethod, hkbOp⟩ := hkb
  obtain ⟨fn, hfn, hop⟩ := hfinding
  -- the inspection, and the assignments and the write to the KB in front of it
  let m₁ := m.assign (str "cipher") (.string report.cipherName)
  have hread : m₁.var (str "cipher") = some (.string report.cipherName) := Machine.var_assign_self _ _ _
  have hstore : m₁.store = m.store := Machine.assign_store _ _ _
  let m₂ := m₁.withStore (m₁.store.setScoped run (str "port.tls.cipher") (.string report.cipherName))
  have hlower : ExprYields w (Shipped.method (Shipped.ident "cipher") "to_lower" []) m₂
      (.string (toLower report.cipherName)) m₂ :=
    exprYields_stringMethod (exprYields_ident hread) (argsYield_nil _ _) fun _ => rfl
  have hinspects : (m₂.assign (str "cipher_lower") (.string (toLower report.cipherName))).Inspects run
      report.cipherName := by
    refine ⟨?_, Machine.var_assign_self _ _ _, fn, ?_, hop⟩
    · rw [Machine.var_assign_of_ne (by decide)]
      exact hread
    · rw [Machine.var_assign_of_ne (by decide)]
      exact (Machine.var_assign_of_ne (by decide) _ _).trans hfn
  have hkb : StmtYields w (Shipped.run (Shipped.method (Shipped.ident "kb") "set_scoped"
      [Shipped.arg (Shipped.text "port"), Shipped.arg (Shipped.text "tls.cipher"),
        Shipped.arg (Shipped.ident "cipher")])) m₁ m₂ := by
    have hmethod : (m₁.store.objects object).methods (str "set_scoped") = some kbSet := by
      rw [hstore]
      exact hkbMethod
    have hvar : m₁.var (str "kb") = some (.object object) := (Machine.var_assign_of_ne (by decide) _ _).trans hkbVar
    apply stmtYields_expr
    refine exprYields_method (r := .null) (argsYield_cons (exprYields_string _ _) (argsYield_cons
      (exprYields_string _ _) (argsYield_cons (exprYields_ident hread) (argsYield_nil _ _)))) (exprYields_ident hvar)
      fun pos => ?_
    apply yields_objectMethod hmethod
    rw [hkbOp]
    exact yields_kbSetScoped _ _ _ _ _
  have hrest := ((finds_inspectCipher hinspects).assign hlower rfl).cons hkb (Store.setScoped_runs _ _ _)
  have hall := finds_guard (exprYields_not (hfield "ok" rfl)) <|
    finds_guard (exprYields_neq (hfield "result" rfl) (exprYields_string (str "OK") m)) <|
    finds_guard (exprYields_not (hfield "certificate_present" rfl)) <|
    (finds_guard (exprYields_eq (exprYields_ident hread) (exprYields_string [] m₁)) hrest).assign
      (hfield "cipher" rfl) rfl
  convert hall using 1
  · rfl
  · unfold reportTitles
    by_cases hok : report.result = .ok
    · cases report.certificatePresent <;> by_cases hempty : report.cipherName = [] <;>
        simp [hok, hempty, isTruthy, valuesEqual, TlsHandshakeResult.text]
    · simp [hok, isTruthy]

/-- `net::tls` with an endpoint: an empty host is refused, any other builds the object. -/
theorem netTls_eq (host : Bytes) (port timeoutMs : ℚ) (pos : Pos) :
    netTls ⟨.null, (endpointArguments host port timeoutMs).positional,
      (endpointArguments host port timeoutMs).named, pos⟩ =
    if host.isEmpty then runtimeError pos (str "net::tls requires host:")
    else makeTlsObj ⟨host, toInt32 port, toInt32 timeoutMs⟩ := rfl

/-- `net::tls` throws on an empty host. -/
theorem exprThrows_netTls (h : m.Equipped run p host port s) (hnone : host = []) (timeoutMs : String) :
    ExprThrows w (netCall "tls" timeoutMs) m Exn.IsError m := by
  obtain ⟨fn, hfn, hop⟩ := h.tls
  refine exprThrows_scopedCall (argsYield_endpoint h.toStarted timeoutMs) hfn fun pos => ?_
  rw [hop]
  change Throws (netTls _) m Exn.IsError m
  rw [netTls_eq, if_pos (by simpa using hnone)]
  exact throws_runtimeError _ _ m

/-- The store with the object for handshakes. -/
def Store.withTls (s : Store) (e : Endpoint) : Store :=
  s.withObject (str "Tls") [(str "host", .string e.host), (str "port", .number e.port)]
    [(str "handshake", .tlsHandshake e)]

/-- `net::tls` builds a TLS object for any other host. -/
theorem exprYields_netTls (h : m.Equipped run p host port s) (hhost : host ≠ []) (timeoutMs : String) :
    ExprYields w (netCall "tls" timeoutMs) m (.object (m.store.next + 1))
      (m.withStore (m.store.withTls ⟨host, toInt32 port, toInt32 (numberValue (str timeoutMs))⟩)) := by
  obtain ⟨fn, hfn, hop⟩ := h.tls
  refine exprYields_scopedCall (argsYield_endpoint h.toStarted timeoutMs) hfn fun pos => ?_
  rw [hop]
  change Yields (netTls _) m _ _
  rw [netTls_eq, if_neg (by simpa using hhost)]
  exact yields_newObject _ _ _ m

/-- The store with the report of a handshake. -/
def Store.withReport (s : Store) (e : Endpoint) (report : TlsHandshakeReport) : Store :=
  (s.log (.handshake e.host e.port e.timeoutMs)).withObject (str "TlsReport") (reportFields report) []

/-- A handshake that comes back makes a report. -/
theorem exprYields_handshake {t : Expr} {address : ℕ} {e : Endpoint} {report : TlsHandshakeReport}
    (ht : ExprYields w t m (.object address) m)
    (htls : m.store.HasMethods address [(str "handshake", .tlsHandshake e)])
    (hreport : w.net.handshake (.handshake e.host e.port e.timeoutMs :: m.store.history) = some report) :
    ExprYields w (Shipped.method t "handshake" []) m (.object m.store.next)
      (m.withStore (m.store.withReport e report)) := by
  obtain ⟨id, hmethods⟩ := htls
  have hmethod : (m.store.objects address).methods (str "handshake") = some ⟨id, .tlsHandshake e⟩ := by
    rw [hmethods]
    rfl
  refine exprYields_method (argsYield_nil _ m) ht fun pos => yields_objectMethod hmethod fun before => ⟨before, ?_⟩
  have hrun : tlsHandshake w e (m.withTrace before) =
      .ok report ((m.withStore (m.store.log (.handshake e.host e.port e.timeoutMs))).withTrace before) := by
    have hanswer : perform (.handshake e.host e.port e.timeoutMs) w.net.handshake (m.withTrace before) =
        .ok (some report) ((m.withStore (m.store.log (.handshake e.host e.port e.timeoutMs))).withTrace before) := by
      rw [← hreport]
      rfl
    rw [tlsHandshake, Effect.bind_run_ok hanswer]
    rfl
  exact Effect.bind_run_ok hrun makeTlsReportObj

/-- The handshake of the check, unless the process ends with it. -/
def checkedHandshake (w : World) (p : LoadedPlugin) (host : Bytes) (port : ℤ) (s : Store) :
    Option TlsHandshakeReport :=
  w.net.handshake (.handshake host (toInt32 port) 3000 :: .start p host port :: s.history)

/-- With a host the body reports the cipher of its handshake. -/
theorem finds_tlsCipherBody (h : m.Equipped run p host port s) (hhost : host ≠ []) {report : TlsHandshakeReport}
    (hchecked : checkedHandshake w p host port s = some report) :
    Finds w run Shipped.tlsCipherBody m (reportTitles report) := by
  have htimeout : toInt32 (numberValue (str "3000")) = 3000 := by decide +kernel
  have htls := exprYields_netTls (w := w) h hhost "3000"
  rw [htimeout] at htls
  let m₁ := (m.withStore (m.store.withTls ⟨host, toInt32 port, 3000⟩)).assign (str "tls") (.object (m.store.next + 1))
  have hstore : m₁.store = m.store.withTls ⟨host, toInt32 port, 3000⟩ := Machine.assign_store _ _ _
  have hmethods : m₁.store.HasMethods (m.store.next + 1)
      [(str "handshake", .tlsHandshake ⟨host, toInt32 port, 3000⟩)] := by
    rw [hstore]
    exact Store.withObject_hasMethods _ _ _ _
  have hhistory : m₁.store.history = .start p host port :: s.history := by
    rw [hstore]
    exact h.history
  have hreport := exprYields_handshake (w := w) (exprYields_ident (Machine.var_assign_self _ _ _)) hmethods
    (by rw [hhistory]; exact hchecked)
  refine Finds.assign (Finds.assign ?_ hreport rfl) htls rfl
  let m₂ := (m₁.withStore (m₁.store.withReport ⟨host, toInt32 port, 3000⟩ report)).assign (str "report")
    (.object m₁.store.next)
  have hstore₂ : m₂.store = m₁.store.withReport ⟨host, toInt32 port, 3000⟩ report := Machine.assign_store _ _ _
  have hvar : ∀ {name : Bytes}, name ≠ str "tls" → name ≠ str "report" → m₂.var name = m.var name := fun h₁ h₂ =>
    (Machine.var_assign_of_ne h₂ _ _).trans (Machine.var_assign_of_ne h₁ _ _)
  have hfields : (m₂.store.objects m₁.store.next).fields = fieldTable (reportFields report) := by
    rw [hstore₂]
    exact Store.withObject_fields _ _ _ _
  obtain ⟨kb, fn, hkb, hlt, hmethod, hop⟩ := h.kb
  have hsame : m₂.store.objects kb = m.store.objects kb := by
    have hnext : m₁.store.next = m.store.next + 2 := by rw [hstore]; rfl
    rw [hstore₂]
    refine (Function.update_of_ne (by change kb ≠ m₁.store.next; omega) _ _).trans ?_
    change m₁.store.objects kb = _
    rw [hstore]
    exact Function.update_of_ne (by change kb ≠ m.store.next + 1; omega) _ _
  apply finds_report (Machine.var_assign_self _ _ _) hfields
  · rw [hvar (by decide) (by decide)]
    exact h.finding
  · refine ⟨kb, fn, ?_, ?_, hop⟩
    · rw [hvar (by decide) (by decide), hkb]
    · rw [hsame, hmethod]

end Handshake

section Run

variable (p : LoadedPlugin) (host : Bytes) (port : ℤ) (known : Bytes) (hasKb : Bool) (s : Store)

/-- What registration leaves for the cipher check. -/
theorem registerStdlib_tools (run : ℕ) (m : Machine) (hlocals : m.locals = []) :
    ∃ u plugin target kb cve tls finding, registerStdlib run m = .ok () u ∧
      u.store.objects = update (update (update (update m.store.objects (m.store.next + 6) plugin) (m.store.next + 7)
        target) (m.store.next + 15) kb) (m.store.next + 18) cve ∧ u.store.next = m.store.next + 23 ∧
      u.var (str "net::tls") = some (.function ⟨tls, .netTls⟩) ∧
      u.var (str "finding") = some (.function ⟨finding, .finding run⟩) ∧
      u.var (str "kb") = some (.object (m.store.next + 15)) ∧
      ∃ id, kb.methods (str "set_scoped") = some ⟨id, .kbSetScoped run⟩ := by
  obtain ⟨globals, locals, store, trace⟩ := m
  cases hlocals
  exact ⟨_, _, _, _, _, _, _, rfl, rfl, rfl, rfl, rfl, rfl, _, rfl⟩

/-- The library when the program starts. -/
theorem registerStdlib_equipped : ∃ m, registerStdlib s.nextRun (initialMachine p host port known hasKb s) = .ok () m ∧
    m.Equipped s.nextRun p host port s ∧ m.HasPlugin s.nextRun ∧ m.locals = [] ∧
    m.store.runs s.nextRun = { freshRun host port known hasKb with target := (m.store.runs s.nextRun).target } := by
  obtain ⟨m, hregister, hstarted, hplugin, hlocals, hruns⟩ := registerStdlib_started p host port known hasKb s
  obtain ⟨u, plugin, target, kb, cve, tls, finding, htools, hobjects, hnext, htls, hfinding, hkb, id, hmethod⟩ :=
    registerStdlib_tools s.nextRun (initialMachine p host port known hasKb s) rfl
  cases hregister.symm.trans htools
  refine ⟨m, hregister, ⟨hstarted, ⟨_, htls, rfl⟩, ⟨_, hfinding, rfl⟩, _, ⟨id, .kbSetScoped _⟩, hkb, ?_, ?_, rfl⟩,
    hplugin, hlocals, hruns⟩
  · omega
  · rw [hobjects, Function.update_of_ne (by omega), Function.update_self, hmethod]

variable {p host port hasKb s}

/-- Describing the plugin keeps what the body relies on. -/
theorem Machine.Equipped.describe (h : m.Equipped run p host port s) (f : PluginMeta → PluginMeta) :
    (m.describe run f).Equipped run p host port s := ⟨h.toStarted.describe run f, h.tls, h.finding, h.kb⟩

/-- Entering the block of `plugin.run` keeps what the body relies on. -/
theorem Machine.Equipped.enterGlobal (h : m.Equipped run p host port s) (hlocals : m.locals = []) :
    m.enterGlobal.Equipped run p host port s := by
  refine ⟨h.toStarted.enterGlobal hlocals, ?_, ?_, ?_⟩
  · rw [m.var_enterGlobal hlocals]
    exact h.tls
  · rw [m.var_enterGlobal hlocals]
    exact h.finding
  · rw [m.var_enterGlobal hlocals]
    exact h.kb

/-- `plugin.filter` with a service adds it to the filters. -/
theorem yields_pluginFilterService {named : Env} {service : Bytes} (hany : named (str "any") = none)
    (hservice : named (str "service") = some (.string service)) (self : Value) (pos : Pos) (m : Machine) :
    Yields (pluginFilter run ⟨self, [], named, pos⟩) m .null
      ((m.describe run fun pm => { pm with filterAny := pm.filterAny || false }).describe run
        fun pm => { pm with filterService := service }) := by
  intro before
  refine ⟨before, ?_⟩
  simp only [pluginFilter, hany, hservice, Option.map_none, Option.getD_none]
  rfl

/-- The description of the check. -/
def checkDescription : Bytes :=
  str "Checks the negotiated TLS cipher suite for weak or obsolete cryptographic algorithms."

/-- The machine after the check has described itself. -/
def Machine.checking (m : Machine) (run : ℕ) : Machine :=
  ((((m.describe run fun pm => { pm with name := str "tls-cipher-check" }).describe run
    fun pm => { pm with description := checkDescription }).describe run
    fun pm => { pm with category := str "vulnerability" }).describe run
    fun pm => { pm with filterAny := pm.filterAny || false }).describe run
    fun pm => { pm with filterService := str "https" }

/-- On a port with `https` a run of the check is still blank then, and it runs its body. -/
theorem Machine.checking_runs {target : Option ℕ} (m : Machine)
    (h : m.store.runs run = { freshRun host port (str "https") hasKb with target := target }) :
    ((m.checking run).store.runs run).Blank ∧ ((m.checking run).store.runs run).runsBody = true := by
  simp only [Machine.checking, Machine.describe_runs, h]
  exact ⟨⟨rfl, rfl, rfl, rfl, rfl⟩, rfl⟩

/-- The statements in which the check describes itself. -/
theorem stmtsYield_checking (h : m.HasPlugin run) :
    StmtsYield w (Shipped.tlsCipherCheck.statements.take 6) m (m.checking run) := by
  refine stmtsYield_cons (stmtYields_include _ m) (stmtsYield_cons (stmtYields_include _ m) ?_)
  refine stmtsYield_cons (stmtYields_setter h (fun id => ⟨id, rfl⟩) (fun _ => rfl) _) ?_
  refine stmtsYield_cons (stmtYields_setter (h.describe _) (fun id => ⟨id + 1, rfl⟩) (fun _ => rfl) _) ?_
  refine stmtsYield_cons (stmtYields_setter ((h.describe _).describe _) (fun id => ⟨id + 2, rfl⟩) (fun _ => rfl) _) ?_
  refine stmtsYield_cons (stmtYields_plugin (((h.describe _).describe _).describe _) (fun id => ⟨id + 3, rfl⟩)
    (argsYield_cons (exprYields_string (str "https") _) (argsYield_nil _ _)) fun self pos => ?_) (stmtsYield_nil _)
  exact yields_pluginFilterService rfl rfl self pos _

/-- A body that runs to its end ends `plugin.run`. -/
theorem yields_pluginRun_end {body : Eval Unit} (hruns : (m.store.runs run).runsBody = true)
    (hbody : Yields body m.enterGlobal () m') (ctx : CallContext) :
    Yields (pluginRun run ctx (some body)) m .null (m.restore m') := by
  intro before
  obtain ⟨after, hend⟩ := hbody before
  have hscope : inGlobalScope body (m.withTrace before) = .ok () ((m.restore m').withTrace after) :=
    congrArg (Outcome.mapState (Machine.restore (m.withTrace before))) hend
  have hcatch : catchReturn (inGlobalScope body) (m.withTrace before) = .ok () ((m.restore m').withTrace after) := by
    rw [catchReturn, Effect.tryCatch_run_ok hscope]
  exact ⟨after, (pluginRun_some run ctx body _).trans ((if_pos hruns).trans (Effect.bind_run_ok hcatch _))⟩

/-- What `plugin.run` finds is what its body finds. -/
theorem stmtYields_runFinds {body : List Stmt} {titles : List Bytes} (h : m.HasPlugin run)
    (hruns : (m.store.runs run).runsBody = true) (hbody : Finds w run body m.enterGlobal titles) :
    ∃ m', StmtYields w (runStatement body) m m' ∧
      (m'.store.runs run).findings.map (·.title) = (m.store.runs run).findings.map (·.title) ++ titles := by
  obtain ⟨m', hend, hfindings⟩ := hbody
  obtain ⟨address, hvar, id, hmethods⟩ := h
  have hmethod : (m.store.objects address).methods (str "run") = some ⟨id + 5, .pluginRun run⟩ := by
    rw [hmethods]
    rfl
  refine ⟨m.restore m', stmtYields_expr (exprYields_methodBlock (r := .null) (argsYield_nil _ m)
    (exprYields_ident hvar) fun pos stmts hstmts => yields_objectMethod hmethod ?_), hfindings⟩
  rcases hend with hreturn | hend
  · exact yields_pluginRun hruns (hreturn stmts hstmts) ⟨.object address, [], Env.empty, pos⟩
  · exact yields_pluginRun_end hruns (hend stmts hstmts) ⟨.object address, [], Env.empty, pos⟩

/-- The titles that a run with `https` reports. -/
def runTitles (host : Bytes) (report : TlsHandshakeReport) : List Bytes :=
  if host = [] then [str "Plugin runtime error"] else reportTitles report

/-- What the check reports on a port with `https` when its handshake comes back. -/
theorem runPlugin_tlsCipherCheck (hp : p.program.erase = Shipped.tlsCipherCheck) (w : World) (host : Bytes) (port : ℤ)
    (hasKb : Bool) (s : Store) {report : TlsHandshakeReport}
    (hchecked : checkedHandshake w p host port s = some report) :
    ∃ r s', runPlugin w p host port (str "https") hasKb s = some (r, s') ∧
      r.findings.map (·.title) = runTitles host report := by
  obtain ⟨m, hregister, hequipped, hplugin, hlocals, hruns⟩ := registerStdlib_equipped p host port (str "https") hasKb s
  have hdescribe := stmtsYield_checking (w := w) hplugin
  have hequipped₁ : (m.checking s.nextRun).Equipped s.nextRun p host port s :=
    ((((hequipped.describe _).describe _).describe _).describe _).describe _
  have hplugin₁ : (m.checking s.nextRun).HasPlugin s.nextRun := hplugin
  have hlocals₁ : (m.checking s.nextRun).locals = [] := hlocals
  obtain ⟨hblank, hbody⟩ := m.checking_runs hruns
  generalize m.checking s.nextRun = m₁ at *
  have hparts : eraseStmts p.program.statements =
      Shipped.tlsCipherCheck.statements.take 6 ++ [runStatement Shipped.tlsCipherBody] := congrArg Program.statements hp
  obtain ⟨before, after, hstmts, hbefore, hafter⟩ := exists_of_eraseStmts_append hparts
  obtain ⟨trace, hprelude⟩ := hdescribe before hbefore m.trace
  have hinterpret : interpretPlugin w p s.nextRun (initialMachine p host port (str "https") hasKb s) =
      execStmts w after (m₁.withTrace trace) := by
    rw [interpretPlugin, Effect.bind_run_ok hregister, runProgram, hstmts]
    exact execStmts_append hprelude after
  have hequipped₂ := hequipped₁.enterGlobal hlocals₁
  unfold runTitles
  by_cases hhost : host = []
  · rw [if_pos hhost]
    have hthrows : StmtsThrow w Shipped.tlsCipherBody m₁.enterGlobal Exn.IsError m₁.enterGlobal :=
      stmtsThrow_first (stmtThrows_assign (exprThrows_netTls hequipped₂ hhost "3000")) _
    have hrun : StmtsThrow w [runStatement Shipped.tlsCipherBody] m₁ Exn.IsError (m₁.restore m₁.enterGlobal) :=
      stmtsThrow_first (stmtThrows_run hplugin₁ hbody hthrows) []
    obtain ⟨trace', e, he, hend⟩ := hrun after hafter trace
    obtain ⟨r, s', hplugin, -, f, hf, htitle⟩ := endsByError_of_throw he (hinterpret.trans hend) hblank
    exact ⟨r, s', hplugin, by rw [hf, List.map_singleton, htitle]⟩
  · rw [if_neg hhost]
    obtain ⟨m', hyields, hfindings⟩ :=
      stmtYields_runFinds hplugin₁ hbody (finds_tlsCipherBody hequipped₂ hhost hchecked)
    obtain ⟨trace', hend⟩ := stmtsYield_cons hyields (stmtsYield_nil _) after hafter trace
    rw [hblank.findings] at hfindings
    refine ⟨(m'.store.runs s.nextRun).outcome, m'.store, ?_, hfindings⟩
    rw [runPlugin, runPluginEval, Effect.tryCatch_run_ok (hinterpret.trans hend)]
    rfl

end Run

/-- Some run of the script reports a cipher that its handshake negotiated under a title. -/
def ScriptReports (cipher title : Bytes) : Prop :=
  ∃ p w host port hasKb s report r s', p.program.erase = Shipped.tlsCipherCheck ∧
    checkedHandshake w p host port s = some report ∧ report.result = .ok ∧ report.cipherName = cipher ∧
    runPlugin w p host port (str "https") hasKb s = some (r, s') ∧ title ∈ r.findings.map (·.title)

/-- The native check reports a cipher whenever a handshake with the ciphers of a group negotiated it. -/
def NativeReports (group : WeakCipherGroup) (cipher : Bytes) : Prop :=
  ∀ port server handshake, server.handshakeWithCiphers group.opensslExpr = some handshake →
    handshake.result = .ok → handshake.cipherName = cipher →
    ∃ f, checkWeakCipherGroup port server group = some (some f)

/-- The ciphers that the native check offers for a name of the family of DES. -/
def desExpression (cipher : Bytes) : Bytes :=
  if contains (toLower cipher) (str "3des") || contains (toLower cipher) (str "des-cbc3") then str "3DES"
  else str "DES:!3DES"

/-- What the script reports as RC4 or as DES, the native check reports for the group of the family. -/
structure WeakCiphersAgree (cipher : Bytes) : Prop where
  rc4 : ScriptReports cipher (str "RC4 TLS cipher detected") →
    ∀ group ∈ weakCipherGroups, group.opensslExpr = str "RC4" → NativeReports group cipher
  des : ScriptReports cipher (str "3DES or DES TLS cipher detected") →
    ∀ group ∈ weakCipherGroups, group.opensslExpr = desExpression cipher → NativeReports group cipher

/-- A name that spells the families of weak ciphers as OpenSSL does. -/
structure OpenSslName (cipher : Bytes) : Prop where
  rc4 : contains (toLower cipher) (str "rc4") = true → contains cipher (str "RC4") = true
  des : contains (toLower cipher) (str "des-cbc") = true → contains cipher (str "DES-CBC") = true
  tripleDes : contains (toLower cipher) (str "des-cbc3") = true → contains cipher (str "DES-CBC3") = true
  no3des : contains (toLower cipher) (str "3des") = false

section Agreement

variable {cipher title : Bytes}

/-- A network on which every handshake ends in the same way. -/
def tlsWorld (report : TlsHandshakeReport) : World where
  net := { silentNetwork with handshake := fun _ => some report }
  cves := []

/-- The script reports a cipher under the title of the inspection, and under no other. -/
theorem scriptReports_iff (herror : title ≠ str "Plugin runtime error") :
    ScriptReports cipher title ↔ cipher ≠ [] ∧ cipherTitle (toLower cipher) = title := by
  constructor
  · rintro ⟨p, w, host, port, hasKb, s, report, r, s', hp, hchecked, hok, rfl, hrun, hmem⟩
    obtain ⟨r', t', hrun', htitles⟩ := runPlugin_tlsCipherCheck hp w host port hasKb s hchecked
    cases hrun.symm.trans hrun'
    rw [htitles, runTitles] at hmem
    split_ifs at hmem
    · exact absurd (List.mem_singleton.mp hmem) herror
    · rw [reportTitles] at hmem
      split_ifs at hmem with hreport
      · exact ⟨hreport.2.2, (List.mem_singleton.mp hmem).symm⟩
      · cases hmem
  · rintro ⟨hne, htitle⟩
    let report : TlsHandshakeReport := { result := .ok, cipherName := cipher, certificatePresent := true }
    let p : LoadedPlugin := { program := Shipped.tlsCipherCheck, sourcePath := str "tls-cipher-check.ztl" }
    obtain ⟨r, s', hrun, htitles⟩ :=
      runPlugin_tlsCipherCheck (p := p) rfl (tlsWorld report) (str "10.0.0.1") 443 true {} rfl
    refine ⟨p, tlsWorld report, str "10.0.0.1", 443, true, {}, report, r, s', rfl, rfl, rfl, rfl, hrun, ?_⟩
    have hreport : reportTitles report = [title] := by
      rw [← htitle]
      exact if_pos ⟨rfl, rfl, hne⟩
    rw [htitles, runTitles, if_neg (by decide), hreport]
    exact List.mem_singleton_self _

/-- The native check looks for the marker of its group. -/
theorem nativeReports_iff {group : WeakCipherGroup} :
    NativeReports group cipher ↔ contains cipher group.cipherNameMarker = true := by
  constructor
  · intro h
    obtain ⟨f, hf⟩ := h { number := 443 }
      ⟨some {}, fun _ => some { result := .ok, cipherName := cipher }, fun _ => 0⟩ _ rfl rfl rfl
    rw [checkWeakCipherGroup, checkCiphers] at hf
    by_contra hnone
    simp [hnone] at hf
  · rintro h port server handshake hhandshake hok rfl
    rw [checkWeakCipherGroup, checkCiphers, hhandshake]
    simp [hok, h]

/-- A text in a name is there in lower case as well. -/
theorem contains_toLower {marker : Bytes} (h : contains cipher marker = true) :
    contains (toLower cipher) (toLower marker) = true := by
  rw [contains_iff] at h ⊢
  exact h.map toLowerByte

/-- A cipher reported as RC4 has that marker. -/
theorem contains_rc4_of_cipherTitle (h : cipherTitle cipher = str "RC4 TLS cipher detected") :
    contains cipher (str "rc4") = true := by
  unfold cipherTitle at h
  split_ifs at h with hnull hexport hrc4 hdes hmd5 hrc2
  all_goals first | exact hrc4 | exact absurd h (by decide)

/-- A cipher is reported as 3DES or DES just when it has such a marker and none of those tried before. -/
theorem cipherTitle_eq_des_iff : cipherTitle cipher = str "3DES or DES TLS cipher detected" ↔
    contains cipher (str "null") = false ∧ contains cipher (str "export") = false ∧
      contains cipher (str "rc4") = false ∧
      (contains cipher (str "3des") = true ∨ contains cipher (str "des-cbc") = true) := by
  rw [← Bool.or_eq_true]
  unfold cipherTitle
  split_ifs with hnull hexport hrc4 hdes hmd5 hrc2
  · exact iff_of_false (by decide) fun h => by simp [hnull] at h
  · exact iff_of_false (by decide) fun h => by simp [hexport] at h
  · exact iff_of_false (by decide) fun h => by simp [hrc4] at h
  · simp [hnull, hexport, hrc4, hdes]
  all_goals exact iff_of_false (by decide) fun h => hdes h.2.2.2

/-- The checks agree on the names that the script does not report as DES, and on those of single DES that have the
marker `-DES-`: the marker `3DES` occurs in no name of triple DES. -/
theorem weakCiphersAgree_iff (h : OpenSslName cipher) : WeakCiphersAgree cipher ↔
    contains (toLower cipher) (str "null") = true ∨ contains (toLower cipher) (str "export") = true ∨
      contains cipher (str "RC4") = true ∨ contains cipher (str "DES-CBC") = false ∨
      contains cipher (str "DES-CBC3") = false ∧ contains cipher (str "-DES-") = true := by
  have hrc4 : contains (toLower cipher) (str "rc4") = contains cipher (str "RC4") :=
    Bool.eq_iff_iff.mpr ⟨h.rc4, contains_toLower⟩
  have hdes : contains (toLower cipher) (str "des-cbc") = contains cipher (str "DES-CBC") :=
    Bool.eq_iff_iff.mpr ⟨h.des, contains_toLower⟩
  have htriple : contains (toLower cipher) (str "des-cbc3") = contains cipher (str "DES-CBC3") :=
    Bool.eq_iff_iff.mpr ⟨h.tripleDes, contains_toLower⟩
  have hreports : ScriptReports cipher (str "3DES or DES TLS cipher detected") ↔
      contains (toLower cipher) (str "null") = false ∧ contains (toLower cipher) (str "export") = false ∧
        contains cipher (str "RC4") = false ∧ contains cipher (str "DES-CBC") = true := by
    rw [scriptReports_iff (by decide), cipherTitle_eq_des_iff, hrc4, hdes, h.no3des]
    simp only [Bool.false_eq_true, false_or]
    apply and_iff_right_of_imp
    rintro ⟨-, -, -, hmem⟩ rfl
    cases hmem
  have hnative : (∀ group ∈ weakCipherGroups, group.opensslExpr = desExpression cipher → NativeReports group cipher) ↔
      contains cipher (str "DES-CBC3") = false ∧ contains cipher (str "-DES-") = true := by
    unfold desExpression
    rw [h.no3des, htriple, Bool.false_or]
    cases contains cipher (str "DES-CBC3") with
    | true =>
      refine iff_of_false (fun hall => ?_) fun h => Bool.noConfusion h.1
      have hmarker := nativeReports_iff.mp (hall weakCipherGroups[1] (List.getElem_mem _) rfl)
      have hlower := contains_toLower hmarker
      rw [show toLower weakCipherGroups[1].cipherNameMarker = str "3des" by decide, h.no3des] at hlower
      cases hlower
    | false =>
      have hdesMarker : ∀ group ∈ weakCipherGroups, group.opensslExpr = str "DES:!3DES" →
          group.cipherNameMarker = str "-DES-" := by decide
      rw [if_neg Bool.false_ne_true, and_iff_right rfl]
      constructor
      · exact fun hall => nativeReports_iff.mp (hall weakCipherGroups[2] (List.getElem_mem _) rfl)
      · intro hmarker group hgroup hexpr
        rw [nativeReports_iff, hdesMarker group hgroup hexpr]
        exact hmarker
  have hrc4Marker : ∀ group ∈ weakCipherGroups, group.opensslExpr = str "RC4" →
      group.cipherNameMarker = str "RC4" := by decide
  constructor
  · intro hagree
    by_contra hnone
    simp only [not_or, Bool.not_eq_true, Bool.not_eq_false] at hnone
    obtain ⟨hnull, hexport, hno, hyes, hnone⟩ := hnone
    exact hnone (hnative.mp (hagree.des (hreports.mpr ⟨hnull, hexport, hno, hyes⟩)))
  · intro hcondition
    constructor
    · intro hscript group hgroup hexpr
      rw [nativeReports_iff, hrc4Marker group hgroup hexpr]
      exact h.rc4 (contains_rc4_of_cipherTitle ((scriptReports_iff (by decide)).mp hscript).2)
    · intro hscript
      obtain ⟨hnull, hexport, hno, hyes⟩ := hreports.mp hscript
      simp only [hnull, hexport, hno, hyes, Bool.false_eq_true, Bool.true_eq_false, false_or] at hcondition
      exact hnative.mpr hcondition

/-- The equivalence for a single-DES cipher. -/
theorem weakCiphersAgree_iff_single : WeakCiphersAgree (str "EDH-RSA-DES-CBC-SHA") ↔
    contains (toLower (str "EDH-RSA-DES-CBC-SHA")) (str "null") = true ∨
      contains (toLower (str "EDH-RSA-DES-CBC-SHA")) (str "export") = true ∨
      contains (str "EDH-RSA-DES-CBC-SHA") (str "RC4") = true ∨
      contains (str "EDH-RSA-DES-CBC-SHA") (str "DES-CBC") = false ∨
      contains (str "EDH-RSA-DES-CBC-SHA") (str "DES-CBC3") = false ∧
        contains (str "EDH-RSA-DES-CBC-SHA") (str "-DES-") = true :=
  weakCiphersAgree_iff ⟨by decide, by decide, by decide, by decide⟩

/-- The native check does not report the cipher of triple DES. -/
theorem not_weakCiphersAgree_triple :
    OpenSslName (str "DES-CBC3-SHA") ∧ ¬WeakCiphersAgree (str "DES-CBC3-SHA") := by
  refine ⟨⟨by decide, by decide, by decide, by decide⟩, fun hagree => ?_⟩
  have hscript : ScriptReports (str "DES-CBC3-SHA") (str "3DES or DES TLS cipher detected") :=
    (scriptReports_iff (by decide)).mpr ⟨by decide, by decide⟩
  have hnative := hagree.des hscript weakCipherGroups[1] (List.getElem_mem _) (by decide)
  exact absurd (nativeReports_iff.mp hnative) (by decide)

end Agreement

end ZeroTrust.Ztl
