import ZeroTrust.Core.Substring
import ZeroTrust.Ztl.DiscoveryRuns
import ZeroTrust.Ztl.Indexing

/-!
# The SSH and MySQL detectors

Both detectors hand a length to `slice` and look for the end of a text in front of its start. The SSH
detector reads an empty protocol version from every banner, and the MySQL detector finds the zero byte of
the packet header: neither ever claims its service.
-/

namespace ZeroTrust.Ztl

variable {w : World} {m m' : Machine}

/-- The methods of a `Tcp` object. -/
def tcpMethods (tcp : TcpState) : List (Bytes × Native) :=
  [(str "connected", .tcpConnected tcp), (str "send", .tcpSend tcp), (str "recv", .tcpRecv tcp),
   (str "recv_banner", .tcpRecvBanner tcp)]

/-- The store after one more event. -/
def Store.log (s : Store) (e : NetEvent) : Store := { s with history := e :: s.history }

/-- The state of a connection that was just asked for. -/
def connection (w : World) (s : Store) (e : Endpoint) : TcpState :=
  ⟨s.history.length, w.net.connect (.connect e.host e.port e.timeoutMs :: s.history)⟩

/-- The store with the `Tcp` object of a new connection. -/
def Store.connect (w : World) (s : Store) (e : Endpoint) : Store :=
  (s.log (.connect e.host e.port e.timeoutMs)).withObject (str "Tcp")
    [(str "connected", .bool (connection w s e).connected)] (tcpMethods (connection w s e))

/-- Building a TCP object connects and yields it. -/
theorem yields_makeTcpObj (e : Endpoint) (m : Machine) :
    Yields (makeTcpObj w e) m (.object (m.store.next + 4)) (m.withStore (m.store.connect w e)) :=
  fun before => ⟨before, rfl⟩

/-- The arguments `host:`, `port:` and `timeout_ms:`. -/
def endpointArguments (host : Bytes) (port timeoutMs : ℚ) : Arguments :=
  ((({} : Arguments).push (str "host") (.string host)).push (str "port") (.number port)).push (str "timeout_ms")
    (.number timeoutMs)

/-- `net::tcp` with an endpoint: an empty host or port zero is refused, any other builds the object. -/
theorem netTcp_eq (host : Bytes) (port timeoutMs : ℚ) (pos : Pos) :
    netTcp w ⟨.null, (endpointArguments host port timeoutMs).positional,
      (endpointArguments host port timeoutMs).named, pos⟩ =
    if host.isEmpty ∨ toInt32 port = 0 then runtimeError pos (str "net::tcp requires host: and port:")
    else makeTcpObj w ⟨host, toInt32 port, toInt32 timeoutMs⟩ := rfl

/-- A call such as `net::tcp(host: target.host, port: target.port, timeout_ms: ..)`. -/
def netCall (function timeoutMs : String) : Expr :=
  Shipped.call (Shipped.scopedName "net" function)
    [Shipped.named "host" (Shipped.member (Shipped.ident "target") "host"),
      Shipped.named "port" (Shipped.member (Shipped.ident "target") "port"),
      Shipped.named "timeout_ms" (Shipped.number timeoutMs)]

section

variable {p : LoadedPlugin} {host : Bytes} {port : ℤ} {s : Store}

/-- The arguments are read from the target. -/
theorem argsYield_endpoint (h : m.Started p host port s) (timeoutMs : String) :
    ArgsYield w [Shipped.named "host" (Shipped.member (Shipped.ident "target") "host"),
      Shipped.named "port" (Shipped.member (Shipped.ident "target") "port"),
      Shipped.named "timeout_ms" (Shipped.number timeoutMs)] {} m
      (endpointArguments host port (numberValue (str timeoutMs))) m := by
  obtain ⟨address, htarget, hhost, hport⟩ := h.target
  refine argsYield_cons (exprYields_field (exprYields_ident htarget) hhost) ?_
  refine argsYield_cons (exprYields_field (exprYields_ident htarget) hport) ?_
  exact argsYield_cons (exprYields_number _ m) (argsYield_nil _ m)

/-- Without a host and a port there is no connection object. -/
theorem exprThrows_netTcp (h : m.Started p host port s) (hnone : host = [] ∨ toInt32 port = 0) (timeoutMs : String) :
    ExprThrows w (netCall "tcp" timeoutMs) m Exn.IsError m := by
  obtain ⟨fn, hfn, hop⟩ := h.tcp
  refine exprThrows_scopedCall (argsYield_endpoint h timeoutMs) hfn fun pos => ?_
  rw [hop]
  change Throws (netTcp w _) m Exn.IsError m
  rw [netTcp_eq, if_pos (by simpa using hnone)]
  exact throws_runtimeError _ _ m

/-- Otherwise there is one, and the network was asked. -/
theorem exprYields_netTcp (h : m.Started p host port s) (hhost : host ≠ []) (hport : toInt32 port ≠ 0)
    (timeoutMs : String) :
    ExprYields w (netCall "tcp" timeoutMs) m (.object (m.store.next + 4))
      (m.withStore (m.store.connect w ⟨host, toInt32 port, toInt32 (numberValue (str timeoutMs))⟩)) := by
  obtain ⟨fn, hfn, hop⟩ := h.tcp
  refine exprYields_scopedCall (argsYield_endpoint h timeoutMs) hfn fun pos => ?_
  rw [hop]
  change Yields (netTcp w _) m _ _
  rw [netTcp_eq, if_neg (by simp [hhost, hport])]
  exact yields_makeTcpObj _ m

end

/-- Whether there is a connection. -/
theorem exprYields_connected {e : Expr} {address : ℕ} {tcp : TcpState} (he : ExprYields w e m (.object address) m)
    (htcp : m.store.HasMethods address (tcpMethods tcp)) :
    ExprYields w (Shipped.method e "connected" []) m (.bool tcp.connected) m := by
  obtain ⟨id, hmethods⟩ := htcp
  have hmethod : (m.store.objects address).methods (str "connected") = some ⟨id, .tcpConnected tcp⟩ := by
    rw [hmethods]
    rfl
  exact exprYields_method (argsYield_nil _ m) he fun pos => yields_objectMethod hmethod (yields_pure _ m)

/-- What is received through a connection. -/
def received (w : World) (s : Store) (tcp : TcpState) (timeoutMs : ℤ) : Bytes :=
  arrived w tcp timeoutMs s.history

/-- A banner is read when it arrives within a time that is not negative. -/
theorem exprYields_recvBanner {e : Expr} {address : ℕ} {tcp : TcpState} (he : ExprYields w e m (.object address) m)
    (htcp : m.store.HasMethods address (tcpMethods tcp)) (hconnected : tcp.connected = true) {timeoutMs : String}
    (htimeout : 0 ≤ toInt32 (numberValue (str timeoutMs))) :
    ExprYields w (Shipped.method e "recv_banner" [Shipped.named "timeout_ms" (Shipped.number timeoutMs)]) m
      (.string (received w m.store tcp (toInt32 (numberValue (str timeoutMs)))))
      (m.withStore (m.store.log (.receive tcp.connection (toInt32 (numberValue (str timeoutMs)))))) := by
  obtain ⟨id, hmethods⟩ := htcp
  have hmethod : (m.store.objects address).methods (str "recv_banner") = some ⟨id + 3, .tcpRecvBanner tcp⟩ := by
    rw [hmethods]
    rfl
  have hargs : ArgsYield w [Shipped.named "timeout_ms" (Shipped.number timeoutMs)] {} m
      (({} : Arguments).push (str "timeout_ms") (.number (numberValue (str timeoutMs)))) m :=
    argsYield_cons (exprYields_number _ m) (argsYield_nil _ m)
  refine exprYields_method hargs he fun pos => yields_objectMethod hmethod fun before => ⟨before, ?_⟩
  change (if tcp.connected = true then _ else _ : Eval Value) _ = _
  have hends : waitEnds w tcp (toInt32 (numberValue (str timeoutMs))) m.store.history = true := by
    rw [waitEnds, decide_eq_true htimeout, Bool.true_or]
  rw [if_pos hconnected]
  exact Effect.bind_run_ok (tcpReceive_of_waitEnds (m := m.withTrace before) hends) _

section

variable {e lhs rhs : Expr} {text : Bytes} {l r : Value}

/-- A string method of an expression yields its result. -/
theorem exprYields_stringMethod {name : Bytes} {ts : List CallArg} {args : Arguments}
    (he : ExprYields w e m (.string text) m) (hargs : ArgsYield w ts {} m args m)
    (hcall : ∀ pos, callStringMethod text name args.positional pos = .ok r) :
    ExprYields w (.call {} (.member {} e name) ts none) m r m :=
  exprYields_method hargs he fun pos => yields_stringMethod (hcall pos)

/-- `==` yields whether its operands are equal. -/
theorem exprYields_eq (hl : ExprYields w lhs m l m) (hr : ExprYields w rhs m r m) :
    ExprYields w (Shipped.binary .eq lhs rhs) m (.bool (valuesEqual l r)) m :=
  exprYields_binary (by decide) hl hr fun _ => rfl

/-- `!=` yields whether its operands differ. -/
theorem exprYields_neq (hl : ExprYields w lhs m l m) (hr : ExprYields w rhs m r m) :
    ExprYields w (Shipped.binary .neq lhs rhs) m (.bool !valuesEqual l r) m :=
  exprYields_binary (by decide) hl hr fun _ => rfl

/-- `<` yields whether the first number is smaller. -/
theorem exprYields_lt {a b : ℚ} (hl : ExprYields w lhs m (.number a) m) (hr : ExprYields w rhs m (.number b) m) :
    ExprYields w (Shipped.binary .lt lhs rhs) m (.bool (a < b)) m :=
  exprYields_binary (by decide) hl hr fun _ => rfl

/-- `>` yields whether the first number is larger. -/
theorem exprYields_gt {a b : ℚ} (hl : ExprYields w lhs m (.number a) m) (hr : ExprYields w rhs m (.number b) m) :
    ExprYields w (Shipped.binary .gt lhs rhs) m (.bool (a > b)) m :=
  exprYields_binary (by decide) hl hr fun _ => rfl

/-- `or` yields whether one of its operands holds. -/
theorem exprYields_or {a b : Bool} (hl : ExprYields w lhs m (.bool a) m) (hr : ExprYields w rhs m (.bool b) m) :
    ExprYields w (Shipped.binary .or lhs rhs) m (.bool (a || b)) m := by
  cases a with
  | true => exact exprYields_or_left hl rfl
  | false => exact exprYields_or_right hl hr rfl

/-- `trim` yields the trimmed text. -/
theorem exprYields_trim (he : ExprYields w e m (.string text) m) :
    ExprYields w (Shipped.method e "trim" []) m (.string (trim text)) m :=
  exprYields_stringMethod he (argsYield_nil _ m) fun _ => rfl

/-- `length` yields the number of bytes. -/
theorem exprYields_length (he : ExprYields w e m (.string text) m) :
    ExprYields w (Shipped.method e "length" []) m (.number text.length) m :=
  exprYields_stringMethod he (argsYield_nil _ m) fun _ => rfl

/-- `starts_with` yields whether the text starts so. -/
theorem exprYields_startsWith (he : ExprYields w e m (.string text) m) (start : String) :
    ExprYields w (Shipped.method e "starts_with" [Shipped.arg (Shipped.text start)]) m
      (.bool ((str start).isPrefixOf text)) m :=
  exprYields_stringMethod he (argsYield_cons (exprYields_string _ m) (argsYield_nil _ m)) fun _ => rfl

end

/-- The events up to the first receive of a run that connects first. -/
def firstReceive (p : LoadedPlugin) (host : Bytes) (port connectMs receiveMs : ℤ) (s : Store) : List NetEvent :=
  .receive (s.history.length + 1) receiveMs :: .connect host (toInt32 port) connectMs :: .start p host port :: s.history

/-- The first chunk that a port sends to a run. -/
def greeting (w : World) (p : LoadedPlugin) (host : Bytes) (port connectMs receiveMs : ℤ) (s : Store) : Bytes :=
  ((w.net.receive (firstReceive p host port connectMs receiveMs s)).getD []).take 4096

/-- The body of a detector that reads a greeting into a variable first. -/
def greetingBody (connectMs receiveMs variableName : String) (rest : List Stmt) : List Stmt :=
  Shipped.assign "conn" (netCall "tcp" connectMs) ::
  Shipped.ifThen (Shipped.unary .not (Shipped.method (Shipped.ident "conn") "connected" [])) [Shipped.ret] [] ::
  Shipped.assign variableName (Shipped.method (Shipped.ident "conn") "recv_banner"
    [Shipped.named "timeout_ms" (Shipped.number receiveMs)]) :: rest

/-- A detector whose body returns on a greeting claims nothing. -/
theorem runPlugin_greeting {p : LoadedPlugin} {name description connectMs receiveMs variableName : String}
    {rest : List Stmt} {connectInt receiveInt : ℤ}
    (hp : p.program.erase =
      Shipped.discoveryPlugin name description (greetingBody connectMs receiveMs variableName rest))
    (hconnectMs : toInt32 (numberValue (str connectMs)) = connectInt)
    (hreceiveMs : toInt32 (numberValue (str receiveMs)) = receiveInt) (htimeout : 0 ≤ receiveInt)
    (w : World) (host : Bytes) (port : ℤ) (known : Bytes) (hasKb : Bool) (s : Store)
    (hrest : ∀ m : Machine, m.var (str variableName) = some (.string (greeting w p host port connectInt receiveInt s)) →
      Stops w Exn.IsReturn rest m) :
    ∃ r s', runPlugin w p host port known hasKb s = some (r, s') ∧ r.claims = {} := by
  obtain ⟨m, hm, hsilent, herror, -⟩ := runPlugin_discovery w host port known hasKb s hp
  by_cases hnone : host = [] ∨ toInt32 port = 0
  · exact (herror (stops_of_throws (stmtThrows_assign (exprThrows_netTcp hm hnone connectMs)) _)).claims
  obtain ⟨hhost, hport⟩ := not_or.mp hnone
  have hconn := exprYields_netTcp (w := w) hm hhost hport connectMs
  generalize hstore : Store.connect w m.store ⟨host, toInt32 port, toInt32 (numberValue (str connectMs))⟩ = store
    at hconn
  generalize htcp : connection w m.store ⟨host, toInt32 port, toInt32 (numberValue (str connectMs))⟩ = tcp
  have hruns : store.runs = m.store.runs := by
    subst hstore
    rfl
  have hobject : store.HasMethods (m.store.next + 4) (tcpMethods tcp) := by
    subst hstore htcp
    exact Store.withObject_hasMethods _ _ _ _
  have hchunk : received w store tcp (toInt32 (numberValue (str receiveMs))) =
      greeting w p host port connectInt receiveInt s := by
    subst hstore htcp hconnectMs hreceiveMs
    rw [received, greeting, firstReceive, arrived]
    change ((w.net.receive (.receive m.store.history.length _ :: .connect _ _ _ :: m.store.history)).getD []).take
      4096 = _
    rw [hm.history]
    rfl
  let m₁ := (m.withStore store).assign (str "conn") (.object (m.store.next + 4))
  have hstore₁ : m₁.store = store := Machine.assign_store _ _ _
  have hvar : ExprYields w (Shipped.ident "conn") m₁ (.object (m.store.next + 4)) m₁ :=
    exprYields_ident (Machine.var_assign_self _ _ _)
  have hobject₁ : m₁.store.HasMethods (m.store.next + 4) (tcpMethods tcp) := by
    rw [hstore₁]
    exact hobject
  have hguarded : Stops w Exn.IsReturn
      (Shipped.ifThen (Shipped.unary .not (Shipped.method (Shipped.ident "conn") "connected" [])) [Shipped.ret] [] ::
        Shipped.assign variableName (Shipped.method (Shipped.ident "conn") "recv_banner"
          [Shipped.named "timeout_ms" (Shipped.number receiveMs)]) :: rest) m₁ := by
    apply stops_guard (exprYields_not (exprYields_connected hvar hobject₁))
    intro hconnected
    have hbanner := exprYields_recvBanner hvar hobject₁ (by simpa [isTruthy] using hconnected) (hreceiveMs ▸ htimeout)
    rw [hstore₁, hchunk] at hbanner
    apply Stops.assign _ hbanner (congrArg Store.runs hstore₁).symm
    exact hrest _ (Machine.var_assign_self _ _ _)
  exact (hsilent (hguarded.assign hconn hruns)).claims

/-- `slice` takes an end: behind its start there is nothing. -/
theorem slice_four_three (text : Bytes) (pos : Pos) :
    callStringMethod text (str "slice") [.number 4, .number 3] pos = .ok (.string []) := by
  obtain ⟨r, hr, hcall⟩ := callStringMethod_slice text 4 (some 3) pos
  have hslice : clampedSlice text 4 (some 3) = [] := by
    have hthree : truncate 3 = 3 := by decide +kernel
    have hfour : truncate 4 = 4 := by decide +kernel
    apply List.drop_eq_nil_of_le
    simp only [Option.map_some, Option.getD_some, List.length_take, clampIndex, hthree, hfour]
    omega
  rw [sliceCasting_machine (by decide +kernel) (by simp; norm_num), hslice] at hr
  cases hr
  exact hcall

/-- The detector claims nothing, whatever the port answers. -/
theorem runPlugin_tcpSshDetect {p : LoadedPlugin} (hp : p.program.erase = Shipped.tcpSshDetect) (w : World)
    (host : Bytes) (port : ℤ) (known : Bytes) (hasKb : Bool) (s : Store) :
    ∃ r s', runPlugin w p host port known hasKb s = some (r, s') ∧ r.claims = {} := by
  have htimeout : toInt32 (numberValue (str "2000")) = 2000 := by decide +kernel
  have hfour : numberValue (str "4") = 4 := by decide +kernel
  have hthree : numberValue (str "3") = 3 := by decide +kernel
  apply runPlugin_greeting hp htimeout htimeout (by decide)
  intro m hm
  have hbanner := exprYields_trim (w := w) (exprYields_ident hm)
  apply Stops.assign _ hbanner rfl
  generalize trim (greeting w p host port 2000 2000 s) = banner
  have hvar : ExprYields w (Shipped.ident "banner") (m.assign (str "banner") (.string banner)) (.string banner)
      (m.assign (str "banner") (.string banner)) := exprYields_ident (Machine.var_assign_self _ _ _)
  generalize m.assign (str "banner") (.string banner) = m' at hvar
  apply stops_guard (exprYields_eq hvar (exprYields_string _ _))
  intro _
  apply stops_guard (exprYields_not (exprYields_startsWith hvar _))
  intro _
  apply stops_guard (exprYields_lt (exprYields_length hvar) (exprYields_number _ _))
  intro _
  have hslice : ExprYields w (Shipped.method (Shipped.ident "banner") "slice"
      [Shipped.arg (Shipped.number "4"), Shipped.arg (Shipped.number "3")]) m' (.string []) m' := by
    apply exprYields_stringMethod hvar (argsYield_cons (exprYields_number _ _)
      (argsYield_cons (exprYields_number _ _) (argsYield_nil _ _)))
    intro pos
    change callStringMethod banner (str "slice") [.number (numberValue (str "4")), .number (numberValue (str "3"))]
      pos = _
    rw [hfour, hthree]
    exact slice_four_three banner pos
  apply Stops.assign _ hslice rfl
  have hprotocol : ExprYields w (Shipped.ident "protocol") (m'.assign (str "protocol") (.string [])) (.string [])
      (m'.assign (str "protocol") (.string [])) := exprYields_ident (Machine.var_assign_self _ _ _)
  exact stops_returnIf (exprYields_and (exprYields_neq hprotocol (exprYields_string _ _))
    (exprYields_neq hprotocol (exprYields_string _ _)) rfl) _

/-- A plugin that is already parsed. -/
def parsedPlugin (path : String) (program : Program) : LoadedPlugin where
  program := program
  sourcePath := str path
  previewMeta := { filterAny := true }

/-- The detector claims nothing for the banner of an OpenSSH server. -/
theorem runPlugin_tcpSshDetect_openSsh : ∃ r s', runPlugin (greetingWorld (str "SSH-2.0-OpenSSH_9.6p1 Ubuntu-3\x0d\n"))
    (parsedPlugin "tcp-ssh-detect.ztl" Shipped.tcpSshDetect) (str "10.0.0.1") 22 [] true {} = some (r, s') ∧
      r.claims = {} :=
  runPlugin_tcpSshDetect rfl _ _ _ _ _ _

/-- A server with `SSH-2.0-OpenSSH_9.6p1 Ubuntu-3` is not recognised. -/
theorem tcpSshDetect_misses_openSsh : ¬∃ r s', runPlugin (greetingWorld (str "SSH-2.0-OpenSSH_9.6p1 Ubuntu-3\x0d\n"))
    (parsedPlugin "tcp-ssh-detect.ztl" Shipped.tcpSshDetect) (str "10.0.0.1") 22 [] true {} = some (r, s') ∧
      r.claims = ⟨str "ssh", str "OpenSSH", str "9.6"⟩ := by
  have hrun : (runPlugin (greetingWorld (str "SSH-2.0-OpenSSH_9.6p1 Ubuntu-3\x0d\n"))
      (parsedPlugin "tcp-ssh-detect.ztl" Shipped.tcpSshDetect) (str "10.0.0.1") 22 [] true {}).map (·.1.claims) =
        some {} := by decide +kernel
  rintro ⟨r, s', hr, hclaims⟩
  rw [hr, Option.map_some, hclaims] at hrun
  exact absurd hrun (by decide)

/-- A number in three bytes, the low one first. -/
def threeBytes (n : ℕ) : Bytes := [UInt8.ofNat n, UInt8.ofNat (n / 256), UInt8.ofNat (n / 65536)]

/-- The payload of a handshake of protocol version 10. -/
def handshakePayload (version rest : Bytes) : Bytes := 10 :: version ++ 0 :: rest

/-- A handshake packet: the length of the payload, the sequence number and the payload. -/
def handshakePacket (version rest : Bytes) : Bytes :=
  threeBytes (handshakePayload version rest).length ++ 0 :: handshakePayload version rest

/-- The detector claims nothing for a handshake of protocol version 10: the first zero byte that it finds is the
sequence number. -/
theorem runPlugin_tcpMysqlDetect {p : LoadedPlugin} (hp : p.program.erase = Shipped.tcpMysqlDetect) (w : World)
    (host : Bytes) (port : ℤ) (known : Bytes) (hasKb : Bool) (s : Store) {version rest : Bytes}
    (hpacket : w.net.receive (firstReceive p host port 2500 2000 s) = some (handshakePacket version rest)) :
    ∃ r s', runPlugin w p host port known hasKb s = some (r, s') ∧ r.claims = {} := by
  have hconnect : toInt32 (numberValue (str "2500")) = 2500 := by decide +kernel
  have hreceive : toInt32 (numberValue (str "2000")) = 2000 := by decide +kernel
  apply runPlugin_greeting hp hconnect hreceive (by decide)
  intro m hm
  have hvar : ExprYields w (Shipped.ident "response") m _ m := exprYields_ident hm
  generalize hdata : greeting w p host port 2500 2000 s = data at hvar
  have hzero : data[3]? = some 0 := by
    rw [← hdata, greeting, hpacket, Option.getD_some, List.getElem?_take_of_lt (by omega)]
    rfl
  obtain ⟨i, hi, hfind⟩ := exists_findByte_le hzero
  apply stops_guard (exprYields_eq hvar (exprYields_string _ _))
  intro _
  apply stops_guard (exprYields_lt (exprYields_length hvar) (exprYields_number _ _))
  intro _
  have hfive : numberValue (str "5") = 5 := by decide +kernel
  have hbyte : ∃ version, ExprYields w (Shipped.method (Shipped.ident "response") "byte_at"
      [Shipped.arg (Shipped.number "4")]) m version m := by
    refine ⟨.number ((data[toSizeT (numberValue (str "4"))]?.map fun c => (c.toNat : ℤ)).getD (-1)), ?_⟩
    apply exprYields_stringMethod hvar (argsYield_cons (exprYields_number _ _) (argsYield_nil _ _))
    intro pos
    obtain ⟨r, hr, hcall⟩ := callStringMethod_byteAt data (numberValue (str "4")) pos
    obtain rfl := Option.some.inj hr
    exact hcall
  obtain ⟨version, hbyte⟩ := hbyte
  apply Stops.assign _ hbyte rfl
  have hversion : ExprYields w (Shipped.ident "protocol_version") (m.assign (str "protocol_version") version) version
      (m.assign (str "protocol_version") version) := exprYields_ident (Machine.var_assign_self _ _ _)
  apply stops_guard (exprYields_neq hversion (exprYields_number _ _))
  intro _
  have hresponse : ExprYields w (Shipped.ident "response") (m.assign (str "protocol_version") version) (.string data)
      (m.assign (str "protocol_version") version) := by
    apply exprYields_ident
    rw [Machine.var_assign_of_ne (by decide), hm, hdata]
  have hend : ExprYields w (Shipped.method (Shipped.ident "response") "index_of" [Shipped.arg (.string {} [0])])
      (m.assign (str "protocol_version") version) (.number i) (m.assign (str "protocol_version") version) := by
    apply exprYields_stringMethod hresponse (argsYield_cons (exprYields_string _ _) (argsYield_nil _ _))
    intro pos
    change (stringArgument [.string [0]] 0 (str "substring") pos >>= fun p => pure (Value.number _)) = _
    rw [show stringArgument [.string [0]] 0 (str "substring") pos = .ok [0] from rfl]
    simp only [bind, Except.bind, findSub_singleton, hfind]
    rfl
  apply Stops.assign _ hend rfl
  have hless : decide ((i : ℚ) < numberValue (str "5")) = true := by
    rw [hfive, decide_eq_true_eq]
    exact_mod_cast (by omega : i < 5)
  have hbefore := exprYields_lt (w := w) (exprYields_ident (Machine.var_assign_self
    (m.assign (str "protocol_version") version) (str "version_end") (.number i))) (exprYields_number (str "5") _)
  rw [hless] at hbefore
  exact stops_returnIf hbefore _

/-- The detector claims nothing for the handshake of a MySQL 8 server. -/
theorem runPlugin_tcpMysqlDetect_eight : ∃ r s', runPlugin (greetingWorld (handshakePacket (str "8.0.36") (str "salt")))
    (parsedPlugin "tcp-mysql-detect.ztl" Shipped.tcpMysqlDetect) (str "10.0.0.1") 3306 [] true {} = some (r, s') ∧
      r.claims = {} :=
  runPlugin_tcpMysqlDetect rfl _ _ _ _ _ _ rfl

/-- A server of version `8.0.36` is not recognised. -/
theorem tcpMysqlDetect_misses_eight : ¬∃ r s', runPlugin (greetingWorld (handshakePacket (str "8.0.36") (str "salt")))
    (parsedPlugin "tcp-mysql-detect.ztl" Shipped.tcpMysqlDetect) (str "10.0.0.1") 3306 [] true {} = some (r, s') ∧
      r.claims = ⟨str "mysql", str "MySQL", str "8.0.36"⟩ := by
  have hrun : (runPlugin (greetingWorld (handshakePacket (str "8.0.36") (str "salt")))
      (parsedPlugin "tcp-mysql-detect.ztl" Shipped.tcpMysqlDetect) (str "10.0.0.1") 3306 [] true {}).map (·.1.claims) =
        some {} := by decide +kernel
  rintro ⟨r, s', hr, hclaims⟩
  rw [hr, Option.map_some, hclaims] at hrun
  exact absurd hrun (by decide)

end ZeroTrust.Ztl
