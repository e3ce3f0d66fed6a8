import ZeroTrust.Ztl.Runtime

/-!
# The standard library

The callbacks that `runner.cpp` registers. Arguments are checked in the order of the source, and
what a callback has changed before an error stays changed.
-/

namespace ZeroTrust.Ztl

open Function (update)

/-- `need_string`. -/
def needString (v : Value) (what : Bytes) (pos : Pos) : Except RuntimeError Bytes :=
  match v with
  | .string s => .ok s
  | v => .error (errorAt pos (what ++ str " must be a string (got " ++ typeNameOf v ++ str ")"))

/-- `need_int`. -/
def needInt (v : Value) (what : Bytes) (pos : Pos) : Except RuntimeError ℤ :=
  match v with
  | .number q => .ok (toInt32 q)
  | v => .error (errorAt pos (what ++ str " must be a number (got " ++ typeNameOf v ++ str ")"))

namespace CallContext

/-- A named string argument, or its default. -/
def namedString (ctx : CallContext) (key : Bytes) (default : Bytes) (what : Bytes := key) :
    Except RuntimeError Bytes :=
  match ctx.named key with
  | some v => needString v what ctx.pos
  | none => .ok default

/-- A named integer argument, or its default. -/
def namedInt (ctx : CallContext) (key : Bytes) (default : ℤ) : Except RuntimeError ℤ :=
  match ctx.named key with
  | some v => needInt v key ctx.pos
  | none => .ok default

/-- A named number; anything else leaves the default. -/
def namedNumber (ctx : CallContext) (key : Bytes) (default : ℚ) : ℚ :=
  match ctx.named key with
  | some (.number q) => q
  | _ => default

/-- The first positional argument as a string, with the error for a missing one. -/
def firstString (ctx : CallContext) (missing what : Bytes) : Except RuntimeError Bytes :=
  match ctx.positional with
  | [] => .error (errorAt ctx.pos missing)
  | v :: _ => needString v what ctx.pos

/-- `host:`, `port:` and `timeout_ms:` of the functions in `net`. -/
def endpoint (ctx : CallContext) (port timeoutMs : ℤ) : Except RuntimeError Endpoint := do
  let host ← ctx.namedString (str "host") []
  let port ← ctx.namedInt (str "port") port
  let timeoutMs ← ctx.namedInt (str "timeout_ms") timeoutMs
  return ⟨host, port, timeoutMs⟩

end CallContext

/-- The store with another state of a run. -/
def Store.withRun (s : Store) (run : ℕ) (f : RunState → RunState) : Store :=
  { s with runs := update s.runs run (f (s.runs run)) }

/-- Change the state of a run. -/
def changeRun (run : ℕ) (f : RunState → RunState) : Eval Unit := changeStore (·.withRun run f)

/-- Read the state of a run. -/
def readRun {α : Type} (run : ℕ) (f : RunState → α) : Eval α := readStore fun s => f (s.runs run)

/-- `make_header_obj`. -/
def makeHeaderObj (found : Bool) (value : Bytes) : Eval Value :=
  newObject (str "Header") [(str "_exists", .bool found), (str "_value", .string value)]
    [(str "exists", .headerExists), (str "value", .headerValue)]

/-- The lambdas of `make_header_obj`: a field of the receiver, which a plain call does not have. -/
def headerField (name : Bytes) (ctx : CallContext) : Eval Value :=
  match ctx.self with
  | .object address => readStore fun s => ((s.objects address).fields name).getD .null
  | _ => Effect.fault .nullDereference

/-- `make_response_obj`. -/
def makeResponseObj (response : RawHttpResponse) : Eval Value :=
  newObject (str "HttpResponse") []
    [(str "status", .responseStatus response), (str "body", .responseBody response),
     (str "headers", .responseHeaders response), (str "header", .responseHeader response)]

/-- `HttpResponse.headers`. -/
def responseHeaders (response : RawHttpResponse) : Bytes :=
  response.headers.flatMap fun (k, v) => k ++ str ": " ++ v ++ [10]

/-- `HttpResponse.header`. -/
def responseHeader (response : RawHttpResponse) (ctx : CallContext) : Eval Value := do
  let name ← orThrow (ctx.firstString (str "header(name) requires 1 argument") (str "header name"))
  match response.headers.find? fun (k, _) => toLower k == toLower name with
  | some (_, v) => makeHeaderObj true v
  | none => makeHeaderObj false []

/-- `make_tcp_obj`. -/
def makeTcpObj (w : World) (e : Endpoint) : Eval Value := do
  let tcp ← tcpConnect w e.host e.port e.timeoutMs
  newObject (str "Tcp") [(str "connected", .bool tcp.connected)]
    [(str "connected", .tcpConnected tcp), (str "send", .tcpSend tcp),
     (str "recv", .tcpRecv tcp), (str "recv_banner", .tcpRecvBanner tcp)]

/-- `Tcp.send`. -/
def tcpSendFn (w : World) (tcp : TcpState) (ctx : CallContext) : Eval Value := do
  let data ← orThrow (ctx.firstString (str "send(data) requires 1 argument") (str "data"))
  if tcp.connected then return .bool (← tcpSend w tcp data)
  else return .bool false

/-- `Tcp.recv` and `Tcp.recv_banner`. -/
def tcpRecvFn (w : World) (tcp : TcpState) (ctx : CallContext) : Eval Value := do
  let timeoutMs ← orThrow (ctx.namedInt (str "timeout_ms") 2000)
  if tcp.connected then return .string (← tcpReceive w tcp timeoutMs)
  else return .string []

/-- `make_http_obj`. -/
def makeHttpObj (e : Endpoint) : Eval Value :=
  newObject (str "Http") [(str "host", .string e.host), (str "port", .number e.port)]
    [(str "request", .httpRequest e)]

/-- The loop of `Http.request`: up to so many chunks, until one is empty or enough is read. -/
def receiveChunks (w : World) (tcp : TcpState) (timeoutMs : ℤ) : ℕ → Bytes → Eval Bytes
  | 0, raw => return raw
  | budget + 1, raw => do
    let chunk ← tcpReceive w tcp timeoutMs
    if chunk.isEmpty then return raw
    else if (raw ++ chunk).length > 128 * 1024 then return raw ++ chunk
    else receiveChunks w tcp timeoutMs budget (raw ++ chunk)

/-- The text that `Http.request` sends. -/
def httpRequestText (e : Endpoint) (ctx : CallContext) : Except RuntimeError Bytes := do
  let method ← ctx.namedString (str "method") (str "GET")
  let path ← ctx.namedString (str "path") (str "/")
  let body ← ctx.namedString (str "body") []
  return requestText method path e.host body

/-- `Http.request`. -/
def httpRequestFn (w : World) (e : Endpoint) (ctx : CallContext) : Eval Value := do
  let request ← orThrow (httpRequestText e ctx)
  let tcp ← tcpConnect w e.host e.port e.timeoutMs
  if tcp.connected then
    if ← tcpSend w tcp request then
      let raw ← receiveChunks w tcp e.timeoutMs 20 []
      if raw.isEmpty then return .null
      else makeResponseObj (parseHttpResponse raw)
    else return .null
  else return .null

/-- `make_tls_obj`. -/
def makeTlsObj (e : Endpoint) : Eval Value :=
  newObject (str "Tls") [(str "host", .string e.host), (str "port", .number e.port)]
    [(str "handshake", .tlsHandshake e)]

/-- `make_tls_report_obj`. -/
def makeTlsReportObj (report : TlsHandshakeReport) : Eval Value :=
  newObject (str "TlsReport")
    [(str "ok", .bool (report.result = .ok)),
     (str "result", .string report.result.text),
     (str "protocol_version", .string report.protocolVersion),
     (str "cipher", .string report.cipherName),
     (str "certificate_present", .bool report.certificatePresent),
     (str "subject", .string report.certificate.subject),
     (str "issuer", .string report.certificate.issuer),
     (str "not_before", .string report.certificate.notBefore),
     (str "not_after", .string report.certificate.notAfter),
     (str "signature_algorithm", .string report.certificate.signatureAlgorithm),
     (str "self_signed", .bool report.certificate.selfSigned),
     (str "expired", .bool report.certificate.expired),
     (str "days_until_expiry", .number report.certificate.daysUntilExpiry)] []

/-- `net::tcp`. -/
def netTcp (w : World) (ctx : CallContext) : Eval Value := do
  let e ← orThrow (ctx.endpoint 0 2000)
  if e.host.isEmpty ∨ e.port = 0 then runtimeError ctx.pos (str "net::tcp requires host: and port:")
  else makeTcpObj w e

/-- `net::http`. -/
def netHttp (ctx : CallContext) : Eval Value := do
  let e ← orThrow (ctx.endpoint 80 3000)
  if e.host.isEmpty then runtimeError ctx.pos (str "net::http requires host:") else makeHttpObj e

/-- `net::tls`. -/
def netTls (ctx : CallContext) : Eval Value := do
  let e ← orThrow (ctx.endpoint 443 3000)
  if e.host.isEmpty then runtimeError ctx.pos (str "net::tls requires host:") else makeTlsObj e

/-- Change the metadata of a run. -/
def changeMeta (run : ℕ) (f : PluginMeta → PluginMeta) : Eval Unit :=
  changeRun run fun state => { state with pluginMeta := f state.pluginMeta }

/-- The setters of `plugin`: without an argument they do nothing. -/
def pluginSetter (run : ℕ) (what : Bytes) (set : PluginMeta → Bytes → PluginMeta) (ctx : CallContext) :
    Eval Value :=
  match ctx.positional with
  | [] => return .null
  | v :: _ => do
    let s ← orThrow (needString v what ctx.pos)
    changeMeta run (set · s)
    return .null

/-- `Plugin.filter`. -/
def pluginFilter (run : ℕ) (ctx : CallContext) : Eval Value := do
  changeMeta run fun pm =>
    { pm with filterAny := pm.filterAny || ((ctx.named (str "any")).map isTruthy).getD false }
  match ctx.named (str "service") with
  | none => return .null
  | some v =>
    let s ← orThrow (needString v (str "filter service") ctx.pos)
    changeMeta run fun pm => { pm with filterService := s }
    return .null

/-- `map[name] = v` for an argument that may be absent. -/
def Env.setArgument (env : Env) (name : Bytes) : Option Value → Env
  | none => env
  | some v => env.set name v

/-- The writes of `set_service` to the KB. -/
def claimInKb (svc : Bytes) (named kb : Env) : Env :=
  (((kb.set (str "service") (.string svc)).setArgument (str "version") (named (str "version"))).setArgument
    (str "product") (named (str "product"))).setArgument (str "banner") (named (str "banner"))

/-- The writes of `set_service` to the fields of the target. -/
def claimInTarget (svc : Bytes) (named fields : Env) : Env :=
  ((fields.set (str "service") (.string svc)).setArgument (str "version") (named (str "version"))).setArgument
    (str "product") (named (str "product"))

/-- A claim in the KB, when the run has one, and in the target. -/
def Store.claim (s : Store) (run : ℕ) (svc : Bytes) (named : Env) : Store :=
  { s with
    kb := if (s.runs run).hasKb then claimInKb svc named s.kb else s.kb
    objects := match (s.runs run).target with
      | none => s.objects
      | some address =>
        let o := s.objects address
        update s.objects address { o with fields := claimInTarget svc named o.fields } }

/-- `Plugin.set_service`; a bad version or product is noticed after the service is set. -/
def pluginSetService (run : ℕ) (ctx : CallContext) : Eval Value := do
  let svc ← orThrow (ctx.firstString (str "set_service(name) requires 1 argument") (str "service name"))
  changeRun run fun state => { state with setService := svc }
  let setVersion ← readRun run (·.setVersion)
  let version ← orThrow (ctx.namedString (str "version") setVersion)
  changeRun run fun state => { state with setVersion := version }
  let setProduct ← readRun run (·.setProduct)
  let product ← orThrow (ctx.namedString (str "product") setProduct)
  changeRun run fun state => { state with setProduct := product }
  changeStore (·.claim run svc ctx.named)
  return .null

/-- The filter decision of `Plugin.run`. -/
def RunState.runsBody (state : RunState) : Bool :=
  !state.metaOnly && (state.pluginMeta.filterAny || state.pluginMeta.filterService.isEmpty ||
    state.pluginMeta.filterService == state.knownService)

/-- Run in a fresh scope directly above the globals. -/
def inGlobalScope (body : Eval Unit) : Eval Unit := body.within Machine.enterGlobal Machine.restore

/-- `catch (const ReturnException&) {}`; other exceptions pass. -/
def catchReturn (body : Eval Unit) : Eval Unit :=
  body.tryCatch fun
    | .returned _ => pure ()
    | e => Effect.throw e

/-- `Plugin.run`. -/
def pluginRun (run : ℕ) (ctx : CallContext) : Option (Eval Unit) → Eval Value
  | none => runtimeError ctx.pos (str "plugin.run requires a \x7b ... \x7d block")
  | some body => do
    if ← readRun run (·.runsBody) then catchReturn (inGlobalScope body)
    return .null

/-- `plugin.run` runs its body when the filter allows it. -/
theorem pluginRun_some (run : ℕ) (ctx : CallContext) (body : Eval Unit) (m : Machine) :
    pluginRun run ctx (some body) m =
      if (m.store.runs run).runsBody then (catchReturn (inGlobalScope body) >>= fun _ => pure Value.null) m
      else .ok .null m := by
  show (readRun run (·.runsBody) >>= _ : Eval Value) m = _
  rw [readRun, readStore, Effect.gets_bind_run]
  split <;> rfl

/-- The methods of `plugin`. -/
def pluginMethods (run : ℕ) : List (Bytes × Native) :=
  [(str "name", .pluginName run), (str "description", .pluginDescription run),
   (str "category", .pluginCategory run), (str "filter", .pluginFilter run),
   (str "set_service", .pluginSetService run), (str "run", .pluginRun run)]

/-- `make_plugin_obj`. -/
def makePluginObj (run : ℕ) : Eval Value := newObject (str "Plugin") [] (pluginMethods run)

/-- The text of the evidence argument: any value is printed. -/
def evidenceText (s : Store) (ctx : CallContext) : Bytes :=
  ((ctx.named (str "evidence")).map (valueToString s)).getD []

/-- The verification argument, through the statuses. -/
def verificationArgument (ctx : CallContext) : Except RuntimeError Bytes := do
  match ctx.named (str "verification") with
  | none => return str "UNKNOWN"
  | some v =>
    let status ← needString v (str "verification") ctx.pos
    return (verificationStatusFromString status).text

/-- The finding that `finding(..)` makes of its arguments, but for the time. -/
def findingOf (state : RunState) (s : Store) (ctx : CallContext) : Except RuntimeError FindingOut := do
  let severity ← ctx.namedString (str "severity") []
  let title ← ctx.namedString (str "title") []
  let description ← ctx.namedString (str "description") []
  let cve ← ctx.namedString (str "cve") []
  let verification ← verificationArgument ctx
  let evidence := evidenceText s ctx
  let confidence := ctx.namedNumber (str "confidence") 0
  let remediation ← ctx.namedString (str "remediation") []
  let cvssVector ← ctx.namedString (str "cvss_vector") []
  let cvss := ctx.namedNumber (str "cvss") (-1)
  return {
    pluginName := state.pluginMeta.name
    portNumber := portNumber state.targetPort
    service := if state.setService.isEmpty then state.knownService else state.setService
    severity := if severity.isEmpty then str "info" else severity
    title := title
    description := description
    cveId := cve
    verification := verification
    evidence := evidence
    confidence := confidence
    remediation := remediation
    cvssVector := cvssVector
    cvss := cvss
    confidenceScore := confidence
    evidenceData := ⟨str "plugin", state.pluginMeta.name, evidence, description⟩
    host := state.targetHost
    protocol := .tcp
    scope := str "PORT"
    product := state.setProduct
    version := state.setVersion }

/-- `make_finding_fn`. -/
def findingFn (w : World) (run : ℕ) (ctx : CallContext) : Eval Value := do
  let f ← readStore fun s => findingOf (s.runs run) s ctx
  let f ← orThrow f
  let now ← currentTimestamp w
  changeRun run fun state => { state with findings := state.findings ++ [{ f with timestamp := now }] }
  return .null

/-- `Kb.set`. -/
def kbSet (run : ℕ) (ctx : CallContext) : Eval Value :=
  match ctx.positional with
  | key :: v :: _ => do
    let key ← orThrow (needString key (str "key") ctx.pos)
    if ← readRun run (·.hasKb) then changeStore fun s => { s with kb := s.kb.set key v }
    return .null
  | _ => runtimeError ctx.pos (str "kb.set(key, value) requires 2 args")

/-- What a run reads from the KB; without one nothing is there. -/
def readKb (run : ℕ) (key : Bytes) : Eval (Option Value) :=
  readStore fun s => if (s.runs run).hasKb then s.kb key else none

/-- `Kb.get`. -/
def kbGet (run : ℕ) (ctx : CallContext) : Eval Value := do
  let key ← orThrow (ctx.firstString (str "kb.get(key) requires 1 arg") (str "key"))
  return (← readKb run key).getD .null

/-- `Kb.has`. -/
def kbHas (run : ℕ) (ctx : CallContext) : Eval Value := do
  let key ← orThrow (ctx.firstString (str "kb.has(key) requires 1 arg") (str "key"))
  return .bool (← readKb run key).isSome

/-- The key of a scoped entry. -/
def scopedKey (scope key : Value) (pos : Pos) : Except RuntimeError Bytes := do
  let scope ← needString scope (str "scope") pos
  let key ← needString key (str "key") pos
  if scope ≠ str "host" ∧ scope ≠ str "port" then .error (errorAt pos (str "scope must be host or port"))
  else return scope ++ str "." ++ key

/-- `Kb.set_scoped`. -/
def kbSetScoped (run : ℕ) (ctx : CallContext) : Eval Value :=
  match ctx.positional with
  | scope :: key :: v :: _ => do
    let key ← orThrow (scopedKey scope key ctx.pos)
    if ← readRun run (·.hasKb) then changeStore fun s => { s with kb := s.kb.set key v }
    return .null
  | _ => runtimeError ctx.pos (str "kb.set_scoped(scope, key, value) requires 3 args")

/-- `Kb.get_scoped`. -/
def kbGetScoped (run : ℕ) (ctx : CallContext) : Eval Value :=
  match ctx.positional with
  | scope :: key :: _ => do
    let key ← orThrow (scopedKey scope key ctx.pos)
    return (← readKb run key).getD .null
  | _ => runtimeError ctx.pos (str "kb.get_scoped(scope, key) requires 2 args")

/-- `Kb.has_scoped`. -/
def kbHasScoped (run : ℕ) (ctx : CallContext) : Eval Value :=
  match ctx.positional with
  | scope :: key :: _ => do
    let key ← orThrow (scopedKey scope key ctx.pos)
    return .bool (← readKb run key).isSome
  | _ => runtimeError ctx.pos (str "kb.has_scoped(scope, key) requires 2 args")

/-- `make_kb_obj`. -/
def makeKbObj (run : ℕ) : Eval Value :=
  newObject (str "Kb") []
    [(str "set", .kbSet run), (str "get", .kbGet run), (str "has", .kbHas run),
     (str "set_scoped", .kbSetScoped run), (str "get_scoped", .kbGetScoped run),
     (str "has_scoped", .kbHasScoped run)]

/-- `make_cve_result`. -/
def makeCveResult (r : VerificationResult) : Eval Value :=
  newObject (str "CveResult")
    [(str "vulnerable", .bool r.vulnerable), (str "cve", .string r.cve),
     (str "severity", .string r.severity), (str "title", .string r.title),
     (str "description", .string r.description), (str "evidence", .string r.evidence),
     (str "cvss", .number r.cvss), (str "cvss_vector", .string r.cvssVector),
     (str "remediation", .string r.remediation), (str "verification", .string r.verification),
     (str "confidence", .number r.confidence)] []

/-- `cve.check`. -/
def cveCheckFn (w : World) (ctx : CallContext) : Eval Value := do
  let id ← orThrow (ctx.namedString (str "id") [] (str "cve id"))
  let product ← orThrow (ctx.namedString (str "product") [])
  let version ← orThrow (ctx.namedString (str "version") [])
  makeCveResult (verifyVersion w.cves id product version)

/-- A string field of the target, empty when absent. -/
def targetField (o : Object) (name : Bytes) (pos : Pos) : Except RuntimeError Bytes :=
  match o.fields name with
  | none => .ok []
  | some v => needString v name pos

/-- `cve.verify`. -/
def cveVerifyFn (w : World) (ctx : CallContext) : Eval Value := do
  match ctx.named (str "target") with
  | none => runtimeError ctx.pos (str "cve.verify requires target:")
  | some (.object address) =>
    let o ← readStore (·.objects address)
    if o.typeName = str "Target" then
      let id ← orThrow (ctx.namedString (str "id") [] (str "cve id"))
      let product ← orThrow (targetField o (str "product") ctx.pos)
      let version ← orThrow (targetField o (str "version") ctx.pos)
      makeCveResult (verifyVersion w.cves id product version)
    else runtimeError ctx.pos (str "cve.verify target must be a target object")
  | some _ => runtimeError ctx.pos (str "cve.verify target must be a target object")

/-- A positional argument that stands in for an empty named one. -/
def fallbackArgument (ctx : CallContext) (i : ℕ) (what given : Bytes) : Except RuntimeError Bytes :=
  match given, ctx.positional[i]? with
  | [], some v => needString v what ctx.pos
  | given, _ => .ok given

/-- `cve_lookup`. -/
def cveLookupFn (w : World) (ctx : CallContext) : Eval Value := do
  let product ← orThrow (ctx.namedString (str "product") [])
  let version ← orThrow (ctx.namedString (str "version") [])
  let product ← orThrow (fallbackArgument ctx 0 (str "product") product)
  let version ← orThrow (fallbackArgument ctx 1 (str "version") version)
  return .string (cveLookup w.cves product version)

/-- `make_cve_obj`. -/
def makeCveObj : Eval Value :=
  newObject (str "Cve") [] [(str "check", .cveCheck), (str "verify", .cveVerify)]

/-- Run a callback. -/
def callNative (w : World) (op : Native) (ctx : CallContext) (block : Option (Eval Unit)) : Eval Value :=
  match op with
  | .pluginName run => pluginSetter run (str "plugin name") (fun pm s => { pm with name := s }) ctx
  | .pluginDescription run => pluginSetter run (str "description") (fun pm s => { pm with description := s }) ctx
  | .pluginCategory run => pluginSetter run (str "category") (fun pm s => { pm with category := s }) ctx
  | .pluginFilter run => pluginFilter run ctx
  | .pluginSetService run => pluginSetService run ctx
  | .pluginRun run => pluginRun run ctx block
  | .finding run => findingFn w run ctx
  | .kbSet run => kbSet run ctx
  | .kbGet run => kbGet run ctx
  | .kbHas run => kbHas run ctx
  | .kbSetScoped run => kbSetScoped run ctx
  | .kbGetScoped run => kbGetScoped run ctx
  | .kbHasScoped run => kbHasScoped run ctx
  | .cveCheck => cveCheckFn w ctx
  | .cveVerify => cveVerifyFn w ctx
  | .cveLookup => cveLookupFn w ctx
  | .netTcp => netTcp w ctx
  | .netHttp => netHttp ctx
  | .netTls => netTls ctx
  | .tcpConnected tcp => return .bool tcp.connected
  | .tcpSend tcp => tcpSendFn w tcp ctx
  | .tcpRecv tcp => tcpRecvFn w tcp ctx
  | .tcpRecvBanner tcp => tcpRecvFn w tcp ctx
  | .httpRequest http => httpRequestFn w http ctx
  | .tlsHandshake tls => do makeTlsReportObj (← tlsHandshake w tls)
  | .headerExists => headerField (str "_exists") ctx
  | .headerValue => headerField (str "_value") ctx
  | .responseStatus response => return .number response.status
  | .responseBody response => return .string response.body
  | .responseHeaders response => return .string (responseHeaders response)
  | .responseHeader response => responseHeader response ctx

/-- The record of a call. -/
def Machine.record (m : Machine) (fn : NativeFn) (ctx : CallContext) : Machine :=
  { m with trace := m.trace ++ [⟨fn, ctx, m.store⟩] }

/-- A call through `it->second->fn(ctx)`, recorded. -/
def invoke (w : World) (fn : NativeFn) (ctx : CallContext) (block : Option (Eval Unit)) : Eval Value := do
  Effect.modify (·.record fn ctx)
  callNative w fn.op ctx block

/-- `define_global`. -/
def defineGlobal (name : Bytes) (make : Eval Value) : Eval Unit := do
  let v ← make
  Effect.modify fun m => { m with globals := m.globals.set name v }

/-- `make_target_obj`, with the product and version that the KB knows. -/
def makeTargetObj (run : ℕ) : Eval Value := do
  let state ← readRun run id
  let product ← readKb run (str "product")
  let version ← readKb run (str "version")
  let target ← newObject (str "Target")
    [(str "host", .string state.targetHost), (str "port", .number state.targetPort),
     (str "service", .string state.knownService),
     (str "product", product.getD (.string [])), (str "version", version.getD (.string []))] []
  changeRun run fun state => { state with
    target := match target with | .object address => some address | _ => none }
  return target

/-- The definitions of `register_stdlib` behind the plugin object. -/
def registerRest (run : ℕ) : Eval Unit := do
  defineGlobal (str "target") (makeTargetObj run)
  defineGlobal (str "finding") (newFunction (.finding run))
  defineGlobal (str "kb") (makeKbObj run)
  defineGlobal (str "cve") makeCveObj
  defineGlobal (str "cve_lookup") (newFunction .cveLookup)
  defineGlobal (str "net::tcp") (newFunction .netTcp)
  defineGlobal (str "net::http") (newFunction .netHttp)
  defineGlobal (str "net::tls") (newFunction .netTls)

/-- `register_stdlib`. -/
def registerStdlib (run : ℕ) : Eval Unit := do
  defineGlobal (str "plugin") (makePluginObj run)
  registerRest run

end ZeroTrust.Ztl
