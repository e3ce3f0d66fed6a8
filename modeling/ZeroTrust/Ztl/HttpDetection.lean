import ZeroTrust.Ztl.ServiceDetection

/-!
# The HTTP detector

The detector asks the text of the headers for a header, and a missing response for its status. Its run ends
without an error exactly when a response comes whose status is none.
-/

namespace ZeroTrust.Ztl

variable {w : World} {m m' : Machine}

/-- What `Http.request` reads from a connection, and the events behind it. -/
def receivedChunks (w : World) (tcp : TcpState) (timeoutMs : ℤ) : ℕ → Bytes → List NetEvent → Bytes × List NetEvent
  | 0, raw, history => (raw, history)
  | budget + 1, raw, history =>
    let chunk := arrived w tcp timeoutMs history
    let history := .receive tcp.connection timeoutMs :: history
    if chunk.isEmpty then (raw, history)
    else if (raw ++ chunk).length > 128 * 1024 then (raw ++ chunk, history)
    else receivedChunks w tcp timeoutMs budget (raw ++ chunk) history

/-- With a timeout the loop reads what arrives. -/
theorem yields_receiveChunks (w : World) (tcp : TcpState) {timeoutMs : ℤ} (htimeout : 0 ≤ timeoutMs) (budget : ℕ)
    (raw : Bytes) (m : Machine) : Yields (receiveChunks w tcp timeoutMs budget raw) m
      (receivedChunks w tcp timeoutMs budget raw m.store.history).1
      (m.withHistory (receivedChunks w tcp timeoutMs budget raw m.store.history).2) := by
  induction budget generalizing raw m with
  | zero => exact yields_pure raw m
  | succ budget ih =>
    let history : List NetEvent := .receive tcp.connection timeoutMs :: m.store.history
    have hends : waitEnds w tcp timeoutMs m.store.history = true := by
      rw [waitEnds, decide_eq_true htimeout, Bool.true_or]
    have hchunk : Yields (tcpReceive w tcp timeoutMs) m (arrived w tcp timeoutMs m.store.history)
        (m.withHistory history) := fun before => ⟨before, tcpReceive_of_waitEnds (m := m.withTrace before) hends⟩
    refine hchunk.bind ?_
    rw [receivedChunks]
    split_ifs with hempty hlong
    · exact yields_pure raw _
    · exact yields_pure _ _
    · exact ih _ (m.withHistory history)

/-- The reply to a request, if the request can be sent. -/
def reply (w : World) (history : List NetEvent) (e : Endpoint) (request : Bytes) : Option Bytes :=
  let connected := .connect e.host e.port e.timeoutMs :: history
  let sent := .send history.length request :: connected
  if w.net.connect connected ∧ w.net.send sent = some true then
    some (receivedChunks w ⟨history.length, true⟩ e.timeoutMs 20 [] sent).1
  else none

/-- The methods of a response. -/
def responseMethods (response : RawHttpResponse) : List (Bytes × Native) :=
  [(str "status", .responseStatus response), (str "body", .responseBody response),
   (str "headers", .responseHeaders response), (str "header", .responseHeader response)]

section

variable {e : Endpoint} {request raw : Bytes}

/-- The part of a request behind the connection. -/
def exchange (w : World) (e : Endpoint) (request : Bytes) (tcp : TcpState) : Eval Value := do
  if ← tcpSend w tcp request then
    let raw ← receiveChunks w tcp e.timeoutMs 20 []
    if raw.isEmpty then return .null
    else makeResponseObj (parseHttpResponse raw)
  else return .null

/-- A request connects, and where that works it sends its text and reads the response. -/
theorem httpRequestFn_eq {ctx : CallContext} (h : httpRequestText e ctx = .ok request) : httpRequestFn w e ctx =
    tcpConnect w e.host e.port e.timeoutMs >>= fun tcp =>
      if tcp.connected then exchange w e request tcp else pure .null := by
  rw [httpRequestFn, h]
  rfl

/-- Connecting yields whether the network accepted. -/
theorem yields_tcpConnect (host : Bytes) (port timeoutMs : ℤ) (m : Machine) :
    Yields (tcpConnect w host port timeoutMs) m
      ⟨m.store.history.length, w.net.connect (.connect host port timeoutMs :: m.store.history)⟩
      (m.withHistory (.connect host port timeoutMs :: m.store.history)) := fun before => ⟨before, rfl⟩

/-- The trace plays no part in a network event. -/
theorem perform_withTrace {α : Type} (e : NetEvent) (answer : List NetEvent → α) (m : Machine)
    (before : List CallRecord) : perform e answer (m.withTrace before) =
      .ok (answer (e :: m.store.history)) ((m.withHistory (e :: m.store.history)).withTrace before) := rfl

/-- Sending yields what the network answers. -/
theorem yields_tcpSend {tcp : TcpState} {sent : Bool}
    (h : w.net.send (.send tcp.connection request :: m.store.history) = some sent) :
    Yields (tcpSend w tcp request) m sent (m.withHistory (.send tcp.connection request :: m.store.history)) := by
  intro before
  refine ⟨before, ?_⟩
  rw [tcpSend, Effect.bind_run_ok (perform_withTrace _ _ _ _), h]
  rfl

/-- Sending meets the fault of the network. -/
theorem faults_tcpSend {tcp : TcpState} (h : w.net.send (.send tcp.connection request :: m.store.history) = none) :
    Faults (tcpSend w tcp request) m := by
  intro before
  rw [tcpSend, Effect.bind_run_ok (perform_withTrace _ _ _ _), h]
  trivial

/-- How a request ends: the process may end with it, without a reply there is no response, and from a reply
one is made. -/
theorem exists_request (w : World) {e : Endpoint} (htimeout : 0 ≤ e.timeoutMs) (request : Bytes) (m : Machine) :
    (∀ ctx, httpRequestText e ctx = .ok request → Faults (httpRequestFn w e ctx) m) ∧
        reply w m.store.history e request = none ∨
    ∃ v m₁, m₁.store.runs = m.store.runs ∧ (∀ ctx, httpRequestText e ctx = .ok request →
        Yields (httpRequestFn w e ctx) m v m₁) ∧
      match reply w m.store.history e request with
      | none | some [] => v = .null
      | some raw => ∃ address, v = .object address ∧
          m₁.store.HasMethods address (responseMethods (parseHttpResponse raw)) := by
  let connected : List NetEvent := .connect e.host e.port e.timeoutMs :: m.store.history
  let sent : List NetEvent := .send m.store.history.length request :: connected
  have hreply : reply w m.store.history e request =
      if w.net.connect connected = true ∧ w.net.send sent = some true then
        some (receivedChunks w ⟨m.store.history.length, true⟩ e.timeoutMs 20 [] sent).1
      else none := rfl
  have hconnection := yields_tcpConnect (w := w) e.host e.port e.timeoutMs m
  cases hconnect : w.net.connect connected with
  | false =>
    refine .inr ⟨.null, m.withHistory connected, rfl, fun ctx htext => ?_, ?_⟩
    · rw [httpRequestFn_eq htext]
      apply hconnection.bind
      rw [hconnect]
      exact yields_pure _ _
    · rw [hreply, hconnect]
      rfl
  | true =>
    cases hsend : w.net.send sent with
    | none =>
      refine .inl ⟨fun ctx htext => ?_, ?_⟩
      · rw [httpRequestFn_eq htext]
        apply hconnection.bind_faults
        rw [hconnect]
        exact (faults_tcpSend hsend).bind _
      · rw [hreply, hsend, if_neg (by simp)]
    | some answer =>
      cases answer with
      | false =>
        refine .inr ⟨.null, m.withHistory sent, rfl, fun ctx htext => ?_, ?_⟩
        · rw [httpRequestFn_eq htext]
          apply hconnection.bind
          rw [hconnect]
          exact (yields_tcpSend hsend).bind (yields_pure _ _)
        · rw [hreply, hsend, if_neg (by simp)]
      | true =>
        have hchunks := yields_receiveChunks w ⟨m.store.history.length, true⟩ htimeout 20 [] (m.withHistory sent)
        rw [hreply, if_pos ⟨hconnect, hsend⟩]
        change Yields _ _ (receivedChunks w ⟨m.store.history.length, true⟩ e.timeoutMs 20 [] sent).1
          (m.withHistory (receivedChunks w ⟨m.store.history.length, true⟩ e.timeoutMs 20 [] sent).2) at hchunks
        generalize receivedChunks w ⟨m.store.history.length, true⟩ e.timeoutMs 20 [] sent = chunks at hchunks
        obtain ⟨raw, history⟩ := chunks
        have hexchange : ∀ {ctx v m₁}, httpRequestText e ctx = .ok request →
            Yields (if raw.isEmpty then pure .null else makeResponseObj (parseHttpResponse raw)) (m.withHistory history)
              v m₁ →
            Yields (httpRequestFn w e ctx) m v m₁ := by
          intro ctx v m₁ htext hrest
          rw [httpRequestFn_eq htext]
          apply hconnection.bind
          rw [hconnect]
          exact (yields_tcpSend hsend).bind (hchunks.bind hrest)
        cases raw with
        | nil => exact .inr ⟨.null, m.withHistory history, rfl, fun ctx htext => hexchange htext (yields_pure _ _), rfl⟩
        | cons c raw =>
          refine .inr ⟨_, _, ?_, fun ctx htext => hexchange htext (yields_newObject _ _ _ _), _, rfl,
            Store.withObject_hasMethods _ _ _ _⟩
          rfl

end

/-- `net::http` with an endpoint: an empty host is refused, any other builds the object. -/
theorem netHttp_eq (host : Bytes) (port timeoutMs : ℚ) (pos : Pos) :
    netHttp ⟨.null, (endpointArguments host port timeoutMs).positional,
      (endpointArguments host port timeoutMs).named, pos⟩ =
    if host.isEmpty then runtimeError pos (str "net::http requires host:")
    else makeHttpObj ⟨host, toInt32 port, toInt32 timeoutMs⟩ := rfl

section

variable {p : LoadedPlugin} {host : Bytes} {port : ℤ} {s : Store}

/-- `net::http` throws on an empty host. -/
theorem exprThrows_netHttp (h : m.Started p host port s) (hnone : host = []) (timeoutMs : String) :
    ExprThrows w (netCall "http" timeoutMs) m Exn.IsError m := by
  obtain ⟨fn, hfn, hop⟩ := h.http
  refine exprThrows_scopedCall (argsYield_endpoint h timeoutMs) hfn fun pos => ?_
  rw [hop]
  change Throws (netHttp _) m Exn.IsError m
  rw [netHttp_eq, if_pos (by simpa using hnone)]
  exact throws_runtimeError _ _ m

/-- The store with the object for requests. -/
def Store.withHttp (s : Store) (e : Endpoint) : Store :=
  s.withObject (str "Http") [(str "host", .string e.host), (str "port", .number e.port)]
    [(str "request", .httpRequest e)]

/-- `net::http` builds an HTTP object for any other host. -/
theorem exprYields_netHttp (h : m.Started p host port s) (hhost : host ≠ []) (timeoutMs : String) :
    ExprYields w (netCall "http" timeoutMs) m (.object (m.store.next + 1))
      (m.withStore (m.store.withHttp ⟨host, toInt32 port, toInt32 (numberValue (str timeoutMs))⟩)) := by
  obtain ⟨fn, hfn, hop⟩ := h.http
  refine exprYields_scopedCall (argsYield_endpoint h timeoutMs) hfn fun pos => ?_
  rw [hop]
  change Yields (netHttp _) m _ _
  rw [netHttp_eq, if_neg (by simpa using hhost)]
  exact yields_newObject _ _ _ m

end

/-- The reply that the detector gets. -/
def detectorReply (w : World) (p : LoadedPlugin) (host : Bytes) (port : ℤ) (s : Store) : Option Bytes :=
  reply w (.start p host port :: s.history) ⟨host, toInt32 port, 2500⟩ (requestText (str "HEAD") (str "/") host [])

/-- A status of the protocol. -/
def RawHttpResponse.HasStatus (response : RawHttpResponse) : Prop := 100 ≤ response.status ∧ response.status ≤ 599

instance (response : RawHttpResponse) : Decidable response.HasStatus := inferInstanceAs (Decidable (_ ∧ _))

/-- What the detector is to claim for a response: the service, and the product and the version of `nginx`. -/
def ClaimsHttp (response : RawHttpResponse) (claims : DetectedInfo) : Prop :=
  claims.service = str "http" ∧
  ∀ value, (response.headers.find? fun header => toLower header.1 == toLower (str "Server")).map Prod.snd = some value →
    str "nginx/" <+: value → claims.product = str "nginx" ∧ claims.version = (value.drop 6).takeWhile (· != 32)

/-- The statements of the detector that use the response first. -/
def statusBody (rest : List Stmt) : List Stmt :=
  Shipped.assign "status" (Shipped.method (Shipped.ident "response") "status" []) ::
  Shipped.ifThen (Shipped.binary .or (Shipped.binary .lt (Shipped.ident "status") (Shipped.number "100"))
    (Shipped.binary .gt (Shipped.ident "status") (Shipped.number "599"))) [Shipped.ret] [] ::
  Shipped.assign "server_header" (Shipped.method (Shipped.method (Shipped.ident "response") "headers" []) "header"
    [Shipped.arg (Shipped.text "Server")]) :: rest

/-- The statements of the detector from the request on. -/
def requestBody (rest : List Stmt) : List Stmt :=
  Shipped.assign "response" (Shipped.method (Shipped.ident "conn") "request"
    [Shipped.named "method" (Shipped.text "HEAD"), Shipped.named "path" (Shipped.text "/")]) :: statusBody rest

/-- How the detector goes on with the response. -/
theorem stops_response {address : ℕ} {response : RawHttpResponse}
    (hvar : m.var (str "response") = some (.object address))
    (h : m.store.HasMethods address (responseMethods response)) (rest : List Stmt) :
    Stops w (if response.HasStatus then Exn.IsError else Exn.IsReturn) (statusBody rest) m := by
  obtain ⟨id, hmethods⟩ := h
  have hmethod : ∀ {name : Bytes} {fn : NativeFn}, methodTable id (responseMethods response) name = some fn →
      (m.store.objects address).methods name = some fn := by
    intro name fn hfn
    rw [hmethods, hfn]
  have hstatus : ExprYields w (Shipped.method (Shipped.ident "response") "status" []) m (.number response.status) m :=
    exprYields_method (argsYield_nil _ m) (exprYields_ident hvar) fun pos =>
      yields_objectMethod (hmethod rfl) (yields_pure (Value.number response.status) m)
  apply Stops.assign _ hstatus rfl
  have hstore : (m.assign (str "status") (.number response.status)).store = m.store := Machine.assign_store _ _ _
  have hresponse : (m.assign (str "status") (.number response.status)).var (str "response") =
      some (.object address) := by
    rw [Machine.var_assign_of_ne (by decide), hvar]
  have hread : ExprYields w (Shipped.ident "status") (m.assign (str "status") (.number response.status))
      (.number response.status) (m.assign (str "status") (.number response.status)) :=
    exprYields_ident (Machine.var_assign_self _ _ _)
  generalize m.assign (str "status") (.number response.status) = m₁ at hstore hresponse hread
  have hrange := exprYields_or (exprYields_lt hread (exprYields_number (str "100") m₁))
    (exprYields_gt hread (exprYields_number (str "599") m₁))
  have hhundred : numberValue (str "100") = 100 := by decide +kernel
  have hlast : numberValue (str "599") = 599 := by decide +kernel
  have hbool : (decide ((response.status : ℚ) < numberValue (str "100")) ||
      decide ((response.status : ℚ) > numberValue (str "599"))) = !decide response.HasStatus := by
    have hlow : (response.status : ℚ) < 100 ↔ response.status < 100 := by exact_mod_cast Iff.rfl
    have hhigh : (response.status : ℚ) > 599 ↔ 599 < response.status := by exact_mod_cast Iff.rfl
    simp only [hhundred, hlast, hlow, hhigh]
    by_cases hok : response.HasStatus
    · simp [hok, hok.1, hok.2]
    · have hout : response.status < 100 ∨ 599 < response.status := by
        by_contra hin
        exact hok ⟨by omega, by omega⟩
      simpa [hok] using hout
  rw [hbool] at hrange
  by_cases hok : response.HasStatus
  · rw [if_pos hok]
    rw [decide_eq_true hok] at hrange
    apply Stops.unless _ hrange
    apply stops_of_throws
    apply stmtThrows_assign
    have hfn : (m₁.store.objects address).methods (str "headers") = some ⟨id + 2, .responseHeaders response⟩ := by
      rw [hstore]
      exact hmethod rfl
    have hheaders : ExprYields w (Shipped.method (Shipped.ident "response") "headers" []) m₁
        (.string (responseHeaders response)) m₁ :=
      exprYields_method (argsYield_nil _ m₁) (exprYields_ident hresponse) fun pos =>
        yields_objectMethod hfn (yields_pure (Value.string (responseHeaders response)) m₁)
    exact exprThrows_method (argsYield_cons (exprYields_string _ m₁) (argsYield_nil _ m₁)) hheaders
      fun pos => throws_stringMethod rfl
  · rw [if_neg hok]
    rw [decide_eq_false hok] at hrange
    exact stops_returnIf hrange _

/-- Without a response there is no status. -/
theorem stops_null (hvar : m.var (str "response") = some .null) (rest : List Stmt) :
    Stops w Exn.IsError (statusBody rest) m :=
  stops_of_throws (stmtThrows_assign (exprThrows_method (argsYield_nil _ m) (exprYields_ident hvar)
    fun _ => throws_nullMethod)) _

/-- A reply without a status of the protocol. -/
def Harmless (reply : Option Bytes) : Prop := ∃ raw, reply = some raw ∧ raw ≠ [] ∧ ¬(parseHttpResponse raw).HasStatus

/-- How the detector goes on with its request. -/
theorem stops_request {address : ℕ} {e : Endpoint} (htimeout : 0 ≤ e.timeoutMs)
    (hvar : m.var (str "conn") = some (.object address))
    (h : m.store.HasMethods address [(str "request", .httpRequest e)]) (rest : List Stmt) :
    Harmless (reply w m.store.history e (requestText (str "HEAD") (str "/") e.host [])) ∧
        Stops w Exn.IsReturn (requestBody rest) m ∨
    ¬Harmless (reply w m.store.history e (requestText (str "HEAD") (str "/") e.host [])) ∧
      (Stops w Exn.IsError (requestBody rest) m ∨ StmtsFault w (requestBody rest) m) := by
  obtain ⟨id, hmethods⟩ := h
  have hmethod : (m.store.objects address).methods (str "request") = some ⟨id, .httpRequest e⟩ := by
    rw [hmethods]
    rfl
  have hargs : ArgsYield w [Shipped.named "method" (Shipped.text "HEAD"), Shipped.named "path" (Shipped.text "/")] {}
      m _ m :=
    argsYield_cons (exprYields_string _ m) (argsYield_cons (exprYields_string _ m) (argsYield_nil _ m))
  rcases exists_request w htimeout (requestText (str "HEAD") (str "/") e.host []) m with
    ⟨hfault, hnone⟩ | ⟨v, m₁, hruns, hyields, hv⟩
  · refine .inr ⟨?_, .inr ?_⟩
    · rw [hnone]
      rintro ⟨raw, hraw, -⟩
      cases hraw
    · apply stmtsFault_first
      apply stmtFaults_assign
      exact exprFaults_method hargs (exprYields_ident hvar) fun pos => faults_objectMethod hmethod (hfault _ rfl)
  · have hresponse : ExprYields w (Shipped.method (Shipped.ident "conn") "request"
        [Shipped.named "method" (Shipped.text "HEAD"), Shipped.named "path" (Shipped.text "/")]) m v m₁ :=
      exprYields_method hargs (exprYields_ident hvar) fun pos => yields_objectMethod hmethod (hyields _ rfl)
    have hassigned := m₁.var_assign_self (str "response") v
    have hstore := m₁.assign_store (str "response") v
    have hnull : v = .null → Stops w Exn.IsError (requestBody rest) m := by
      rintro rfl
      exact (stops_null hassigned rest).assign hresponse hruns
    generalize reply w m.store.history e (requestText (str "HEAD") (str "/") e.host []) = answer at hv
    cases answer with
    | none =>
      refine .inr ⟨?_, .inl (hnull hv)⟩
      rintro ⟨raw, hraw, -⟩
      cases hraw
    | some raw =>
      cases raw with
      | nil =>
        refine .inr ⟨?_, .inl (hnull hv)⟩
        rintro ⟨raw, hraw, hne, -⟩
        cases hraw
        exact hne rfl
      | cons c raw =>
        obtain ⟨object, rfl, hobject⟩ := hv
        rw [← hstore] at hobject
        have hstops := stops_response (w := w) hassigned hobject rest
        by_cases hok : (parseHttpResponse (c :: raw)).HasStatus
        · rw [if_pos hok] at hstops
          refine .inr ⟨?_, .inl (hstops.assign hresponse hruns)⟩
          rintro ⟨raw, hraw, -, hbad⟩
          cases hraw
          exact hbad hok
        · rw [if_neg hok] at hstops
          exact .inl ⟨⟨_, rfl, List.cons_ne_nil c raw, hok⟩, hstops.assign hresponse hruns⟩

/-- A run without a response ends by an error, and so does one with a response of the protocol; a response without
a status of the protocol ends it silently. -/
theorem runPlugin_http {p : LoadedPlugin} (hp : p.program.erase = Shipped.tcpHttpDetect) (w : World) (host : Bytes)
    (port : ℤ) (known : Bytes) (hasKb : Bool) (s : Store) :
    (host ≠ [] ∧ Harmless (detectorReply w p host port s)) ∧ EndsSilently w p host port known hasKb s ∨
    ¬(host ≠ [] ∧ Harmless (detectorReply w p host port s)) ∧
      (EndsByError w p host port known hasKb s ∨ runPlugin w p host port known hasKb s = none) := by
  obtain ⟨m, hm, hsilent, herror, hfault⟩ := runPlugin_discovery w host port known hasKb s hp
  have htimeout : toInt32 (numberValue (str "2500")) = 2500 := by decide +kernel
  by_cases hhost : host = []
  · refine .inr ⟨fun h => h.1 hhost, .inl ?_⟩
    exact herror (stops_of_throws (stmtThrows_assign (exprThrows_netHttp hm hhost "2500")) _)
  have hconn := exprYields_netHttp (w := w) hm hhost "2500"
  rw [htimeout] at hconn
  let m₁ := (m.withStore (m.store.withHttp ⟨host, toInt32 port, 2500⟩)).assign (str "conn") (.object (m.store.next + 1))
  have hstore : m₁.store = m.store.withHttp ⟨host, toInt32 port, 2500⟩ := Machine.assign_store _ _ _
  have hmethods : m₁.store.HasMethods (m.store.next + 1)
      [(str "request", .httpRequest ⟨host, toInt32 port, 2500⟩)] := by
    rw [hstore]
    exact Store.withObject_hasMethods _ _ _ _
  have hhistory : m₁.store.history = .start p host port :: s.history := by
    rw [hstore]
    exact hm.history
  have hvar : m₁.var (str "conn") = some (.object (m.store.next + 1)) := Machine.var_assign_self _ _ _
  rcases stops_request (by norm_num) hvar hmethods _ with ⟨hgood, hstops⟩ | ⟨hbad, hstops | hstops⟩
  · rw [hhistory] at hgood
    exact .inl ⟨⟨hhost, hgood⟩, hsilent (hstops.assign hconn rfl)⟩
  · rw [hhistory] at hbad
    exact .inr ⟨fun h => hbad h.2, .inl (herror (hstops.assign hconn rfl))⟩
  · rw [hhistory] at hbad
    exact .inr ⟨fun h => hbad h.2, .inr (hfault (stmtsFault_cons (stmtYields_assign hconn) hstops))⟩

/-- The detector does what it is for exactly when it has nothing to claim: without an error, and with the claims that
a response of the protocol calls for, its run ends just if there is a host and a reply comes whose status is none of
the protocol. -/
theorem runPlugin_tcpHttpDetect_iff {p : LoadedPlugin} (hp : p.program.erase = Shipped.tcpHttpDetect) (w : World)
    (host : Bytes) (port : ℤ) (known : Bytes) (hasKb : Bool) (s : Store) :
    (∃ r s', runPlugin w p host port known hasKb s = some (r, s') ∧
      (∀ f ∈ r.findings, f.title ≠ str "Plugin runtime error") ∧
      ∀ raw, detectorReply w p host port s = some raw → raw ≠ [] → (parseHttpResponse raw).HasStatus →
        ClaimsHttp (parseHttpResponse raw) r.claims) ↔
    host ≠ [] ∧ ∃ raw, detectorReply w p host port s = some raw ∧ raw ≠ [] ∧ ¬(parseHttpResponse raw).HasStatus := by
  have hruns := runPlugin_http hp w host port known hasKb s
  constructor
  · rintro ⟨r, s', hrun, hclean, -⟩
    rcases hruns with ⟨hgood, -⟩ | ⟨-, herror | hnone⟩
    · exact hgood
    · obtain ⟨f, hf, htitle⟩ := herror.exists_finding hrun
      exact absurd htitle (hclean f hf)
    · rw [hnone] at hrun
      cases hrun
  · intro hgood
    rcases hruns with ⟨-, r, s', hrun, -, hfindings⟩ | ⟨hbad, -⟩
    · refine ⟨r, s', hrun, ?_, ?_⟩
      · rw [hfindings]
        exact fun f hf => nomatch hf
      · obtain ⟨-, raw, hraw, -, hout⟩ := hgood
        intro raw' hraw' _ hok
        cases hraw.symm.trans hraw'
        exact absurd hok hout
    · exact absurd hgood hbad

/-- A server that sends its reply in one chunk. -/
def replyingWorld (text : Bytes) : World where
  net :=
    { connect := fun _ => true
      send := fun _ => some true
      receive := fun
        | .receive _ _ :: .send _ _ :: _ => some text
        | _ => none
      handshake := fun _ => some {}
      clock := fun _ => 0 }
  cves := []

/-- A reply with a status code of no class is taken, and claimed where the detector should. -/
theorem runPlugin_tcpHttpDetect_unknownStatus : ∃ r s',
    runPlugin (replyingWorld (str "HTTP/1.1 999 Denied\x0d\n\x0d\n"))
        (parsedPlugin "tcp-http-detect.ztl" Shipped.tcpHttpDetect) (str "10.0.0.1") 80 [] true {} = some (r, s') ∧
      (∀ f ∈ r.findings, f.title ≠ str "Plugin runtime error") ∧
      ∀ raw, detectorReply (replyingWorld (str "HTTP/1.1 999 Denied\x0d\n\x0d\n"))
        (parsedPlugin "tcp-http-detect.ztl" Shipped.tcpHttpDetect) (str "10.0.0.1") 80 {} = some raw → raw ≠ [] →
        (parseHttpResponse raw).HasStatus → ClaimsHttp (parseHttpResponse raw) r.claims :=
  (runPlugin_tcpHttpDetect_iff rfl _ _ _ _ _ _).mpr
    ⟨by decide, str "HTTP/1.1 999 Denied\x0d\n\x0d\n", by decide +kernel, by decide, by decide +kernel⟩

/-- From a server with `nginx` the detector reports an error. -/
theorem tcpHttpDetect_fails_nginx : ¬∃ r s', runPlugin
    (replyingWorld (str "HTTP/1.1 200 OK\x0d\nServer: nginx/1.18.0\x0d\n\x0d\n"))
    (parsedPlugin "tcp-http-detect.ztl" Shipped.tcpHttpDetect) (str "10.0.0.1") 80 [] true {} = some (r, s') ∧
      ∀ f ∈ r.findings, f.title ≠ str "Plugin runtime error" := by
  have hrun : (runPlugin (replyingWorld (str "HTTP/1.1 200 OK\x0d\nServer: nginx/1.18.0\x0d\n\x0d\n"))
      (parsedPlugin "tcp-http-detect.ztl" Shipped.tcpHttpDetect) (str "10.0.0.1") 80 [] true {}).map
        (fun result => result.1.findings.map (·.title)) = some [str "Plugin runtime error"] := by decide +kernel
  rintro ⟨r, s', hr, hclean⟩
  rw [hr, Option.map_some, Option.some_inj] at hrun
  have htitle : str "Plugin runtime error" ∈ r.findings.map (·.title) := by
    rw [hrun]
    exact List.mem_singleton_self _
  obtain ⟨f, hf, heq⟩ := List.mem_map.mp htitle
  exact hclean f hf heq

end ZeroTrust.Ztl
