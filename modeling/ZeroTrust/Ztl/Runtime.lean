import ZeroTrust.Lib.Effect
import ZeroTrust.Core.Transport
import ZeroTrust.Scan.Cve
import ZeroTrust.Ztl.Ast
import ZeroTrust.Ztl.Http
import Mathlib.Logic.Function.Basic

/-!
# The runtime

Values, objects and environments of `runtime.hpp` and the state that a run works on. Objects and
function objects have identities, since the language compares them by identity and shares them
between scopes, runs and the KB. The lambdas of `runner.cpp` are the operations `Native`, each
with the state that its lambda captures.

The network answers every event from the whole history of events on the port, so it may remember,
adapt and tell plugins apart. A call of the system that never comes back has no answer: it raises
`SIGPIPE`, which nothing handles, or it waits for ever.
-/

namespace ZeroTrust.Ztl

open Function (update)

/-- What a `Tcp` object captures; a connection is named by the event that opened it. -/
structure TcpState where
  connection : ℕ
  connected : Bool
deriving DecidableEq

/-- `HttpState` and `TlsState`. -/
structure Endpoint where
  host : Bytes
  port : ℤ
  timeoutMs : ℤ
deriving DecidableEq

/-- The native callbacks. A number is the run whose state the callback captures. -/
inductive Native
  | pluginName (run : ℕ) | pluginDescription (run : ℕ) | pluginCategory (run : ℕ)
  | pluginFilter (run : ℕ) | pluginSetService (run : ℕ) | pluginRun (run : ℕ)
  | finding (run : ℕ)
  | kbSet (run : ℕ) | kbGet (run : ℕ) | kbHas (run : ℕ)
  | kbSetScoped (run : ℕ) | kbGetScoped (run : ℕ) | kbHasScoped (run : ℕ)
  | cveCheck | cveVerify | cveLookup
  | netTcp | netHttp | netTls
  | tcpConnected (tcp : TcpState) | tcpSend (tcp : TcpState)
  | tcpRecv (tcp : TcpState) | tcpRecvBanner (tcp : TcpState)
  | httpRequest (http : Endpoint)
  | tlsHandshake (tls : Endpoint)
  | headerExists | headerValue
  | responseStatus (response : RawHttpResponse) | responseBody (response : RawHttpResponse)
  | responseHeaders (response : RawHttpResponse) | responseHeader (response : RawHttpResponse)
deriving DecidableEq

/-- The name a callback is registered under. -/
def Native.name : Native → Bytes
  | pluginName _ => str "Plugin.name"
  | pluginDescription _ => str "Plugin.description"
  | pluginCategory _ => str "Plugin.category"
  | pluginFilter _ => str "Plugin.filter"
  | pluginSetService _ => str "Plugin.set_service"
  | pluginRun _ => str "Plugin.run"
  | finding _ => str "finding"
  | kbSet _ => str "Kb.set"
  | kbGet _ => str "Kb.get"
  | kbHas _ => str "Kb.has"
  | kbSetScoped _ => str "Kb.set_scoped"
  | kbGetScoped _ => str "Kb.get_scoped"
  | kbHasScoped _ => str "Kb.has_scoped"
  | cveCheck => str "cve.check"
  | cveVerify => str "cve.verify"
  | cveLookup => str "cve_lookup"
  | netTcp => str "net::tcp"
  | netHttp => str "net::http"
  | netTls => str "net::tls"
  | tcpConnected _ => str "Tcp.connected"
  | tcpSend _ => str "Tcp.send"
  | tcpRecv _ => str "Tcp.recv"
  | tcpRecvBanner _ => str "Tcp.recv_banner"
  | httpRequest _ => str "Http.request"
  | tlsHandshake _ => str "Tls.handshake"
  | headerExists => str "Header.exists"
  | headerValue => str "Header.value"
  | responseStatus _ => str "HttpResponse.status"
  | responseBody _ => str "HttpResponse.body"
  | responseHeaders _ => str "HttpResponse.headers"
  | responseHeader _ => str "HttpResponse.header"

/-- `ztl::NativeFn`, with the identity of its `shared_ptr`. -/
structure NativeFn where
  id : ℕ
  op : Native
deriving DecidableEq

/-- `ztl::Value`. -/
inductive Value
  | null
  | bool (b : Bool)
  | number (q : ℚ)
  | string (s : Bytes)
  | object (address : ℕ)
  | function (fn : NativeFn)
deriving DecidableEq

/-- A map from names to values, such as `unordered_map<string, Value>`. -/
abbrev Env := Bytes → Option Value

/-- The map without entries. -/
def Env.empty : Env := fun _ => none

/-- `env[name] = v`. -/
def Env.set (env : Env) (name : Bytes) (v : Value) : Env := update env name (some v)

/-- `ztl::Object`. -/
structure Object where
  typeName : Bytes := []
  fields : Env := Env.empty
  methods : Bytes → Option NativeFn := fun _ => none

/-- `is_truthy`. -/
def isTruthy : Value → Bool
  | .null => false
  | .bool b => b
  | .number q => q != 0
  | .string s => !s.isEmpty
  | .object _ | .function _ => true

/-- `values_equal`: objects and functions are compared by identity. -/
def valuesEqual : Value → Value → Bool
  | .null, .null => true
  | .bool a, .bool b => a == b
  | .number a, .number b => a == b
  | .string a, .string b => a == b
  | .object a, .object b => a == b
  | .function a, .function b => a.id == b.id
  | _, _ => false

/-- `type_name_of`. -/
def typeNameOf : Value → Bytes
  | .null => str "null"
  | .bool _ => str "bool"
  | .number _ => str "number"
  | .string _ => str "string"
  | .object _ => str "object"
  | .function _ => str "function"

/-- `ztl::PluginMeta`. -/
structure PluginMeta where
  name : Bytes := []
  description : Bytes := []
  category : Bytes := []
  filterService : Bytes := []
  filterAny : Bool := false
deriving DecidableEq, Repr

/-- `ztl::LoadedPlugin`. -/
structure LoadedPlugin where
  program : Program
  sourcePath : Bytes
  previewMeta : PluginMeta := {}

/-- `ztl::FindingOut`, with finite numbers. -/
structure FindingOut where
  pluginName : Bytes := []
  severity : Bytes := []
  title : Bytes := []
  description : Bytes := []
  evidence : Bytes := []
  evidenceData : Evidence := {}
  references : List Bytes := []
  remediation : Bytes := []
  cvssVector : Bytes := []
  cvss : ℚ := -1
  cveId : Bytes := []
  verification : Bytes := str "UNKNOWN"
  confidenceScore : ℚ := 0
  host : Bytes := []
  protocol : Protocol := .unknown
  scope : Bytes := str "PORT"
  product : Bytes := []
  version : Bytes := []
  timestamp : ℤ := 0
  service : Bytes := []
  confidence : ℚ := 0
  portNumber : UInt16 := 0
deriving DecidableEq, Repr

/-- `static_cast<std::uint16_t>` of a port. -/
def portNumber (port : ℤ) : UInt16 := (port % 2 ^ 16).toNat.toUInt16

/-- `RunState`; `hasKb` says whether the run was given the KB of its port. -/
structure RunState where
  pluginMeta : PluginMeta := {}
  findings : List FindingOut := []
  targetHost : Bytes := []
  targetPort : ℤ := 0
  knownService : Bytes := []
  setService : Bytes := []
  setProduct : Bytes := []
  setVersion : Bytes := []
  metaOnly : Bool := false
  hasKb : Bool := false
  target : Option ℕ := none

/-- What programs do to the outside world; `start` marks the beginning of a run. -/
inductive NetEvent
  | start (plugin : LoadedPlugin) (host : Bytes) (port : ℤ)
  | connect (host : Bytes) (port timeoutMs : ℤ)
  | send (connection : ℕ) (data : Bytes)
  | receive (connection : ℕ) (timeoutMs : ℤ)
  | handshake (host : Bytes) (port timeoutMs : ℤ)
  | clock

/-- The world outside: each answer depends on the events so far, the latest one first. Nothing may arrive
for a `receive`. A `send` and a `handshake` need not come back: both write to a socket that the peer may have
reset, and both wait for a peer that is silent. -/
structure Network where
  connect : List NetEvent → Bool
  send : List NetEvent → Option Bool
  receive : List NetEvent → Option Bytes
  handshake : List NetEvent → Option TlsHandshakeReport
  clock : List NetEvent → ℤ

/-- A network on which nothing answers. -/
def silentNetwork : Network where
  connect _ := false
  send _ := some false
  receive _ := none
  handshake _ := some {}
  clock _ := 0

/-- What a program cannot change: the network and the loaded CVE database. -/
structure World where
  net : Network
  cves : List CveEntry

/-- Everything that outlives a run on a port: the KB, objects that the KB may refer to, the states
that their callbacks capture, and the history of the network. -/
structure Store where
  kb : Env := Env.empty
  objects : ℕ → Object := fun _ => {}
  next : ℕ := 0
  runs : ℕ → RunState := fun _ => {}
  nextRun : ℕ := 0
  history : List NetEvent := []

/-- `CallContext` without the block and the interpreter. -/
structure CallContext where
  self : Value
  positional : List Value
  named : Env
  pos : Pos

/-- A call of a native function, with the store in which it begins. -/
structure CallRecord where
  fn : NativeFn
  ctx : CallContext
  store : Store

/-- The state of an interpreter: local scopes from the innermost to the outermost above the
globals. The calls made so far are recorded for specifications; the program cannot read them. -/
structure Machine where
  globals : Env := Env.empty
  locals : List Env := []
  store : Store := {}
  trace : List CallRecord := []

/-- `ztl::RuntimeError`. -/
structure RuntimeError where
  what : Bytes

/-- What is thrown: a `ReturnException` or a `RuntimeError`. -/
inductive Exn
  | returned (v : Value)
  | runtimeError (e : RuntimeError)

/-- What no run survives: a null dereference, or a call of the system that never comes back. -/
inductive Fault
  | nullDereference | noAnswer
deriving DecidableEq

/-- A computation of the interpreter. -/
abbrev Eval (α : Type) := Effect Machine Exn Fault α

/-- `RuntimeError(msg, line, col)`. -/
def errorAt (pos : Pos) (msg : Bytes) : RuntimeError where
  what := str "runtime error at " ++ decimal pos.line ++ str ":" ++ decimal pos.col ++ str ": " ++ msg

/-- `throw RuntimeError(msg, line, col)`. -/
def runtimeError {α : Type} (pos : Pos) (msg : Bytes) : Eval α :=
  Effect.throw (.runtimeError (errorAt pos msg))

/-- The value of a check, or its error. -/
def orThrow {α : Type} : Except RuntimeError α → Eval α
  | .ok a => pure a
  | .error e => Effect.throw (.runtimeError e)

/-- A result that is there is handed on. -/
@[simp] theorem orThrow_ok_bind {α β : Type} (a : α) (k : α → Eval β) : (orThrow (.ok a) >>= k) = k a := rfl

/-- An error ends the computation. -/
@[simp] theorem orThrow_error_bind {α β : Type} (e : RuntimeError) (k : α → Eval β) :
    (orThrow (.error e) >>= k) = Effect.throw (.runtimeError e) := rfl

/-- Read from the store. -/
def readStore {α : Type} (f : Store → α) : Eval α := Effect.gets fun m => f m.store

/-- Change the store. -/
def changeStore (f : Store → Store) : Eval Unit := Effect.modify fun m => { m with store := f m.store }

/-- `make_shared<Object>`. -/
def Store.alloc (s : Store) (o : Object) : Store :=
  { s with objects := update s.objects s.next o, next := s.next + 1 }

/-- A table of methods, allocating the function objects from an identity on. -/
def methodTable : ℕ → List (Bytes × Native) → Bytes → Option NativeFn
  | _, [] => fun _ => none
  | id, (name, op) :: methods => update (methodTable (id + 1) methods) name (some ⟨id, op⟩)

/-- A table of fields. -/
def fieldTable : List (Bytes × Value) → Env
  | [] => Env.empty
  | (name, v) :: fields => (fieldTable fields).set name v

/-- Make an object with its methods and return it. -/
def newObject (typeName : Bytes) (fields : List (Bytes × Value)) (methods : List (Bytes × Native)) :
    Eval Value := do
  let id ← readStore (·.next)
  let address := id + methods.length
  changeStore fun s => { s with next := address }.alloc
    { typeName := typeName, fields := fieldTable fields, methods := methodTable id methods }
  return .object address

/-- `nfn`. -/
def newFunction (op : Native) : Eval Value := do
  let id ← readStore (·.next)
  changeStore fun s => { s with next := id + 1 }
  return .function ⟨id, op⟩

/-- `value_to_string`. -/
def valueToString (s : Store) : Value → Bytes
  | .null => str "null"
  | .bool b => if b then str "true" else str "false"
  | .number q => numberToString q
  | .string text => text
  | .object address => str "<" ++ (s.objects address).typeName ++ str ">"
  | .function fn => str "<fn " ++ fn.op.name ++ str ">"

/-- `Environment::lookup` from the innermost scope. -/
def lookup (globals : Env) : List Env → Bytes → Option Value
  | [], name => globals name
  | scope :: scopes, name => scope name <|> lookup globals scopes name

/-- `Environment::define` in the innermost scope. -/
def Machine.define (m : Machine) (name : Bytes) (v : Value) : Machine :=
  match m.locals with
  | [] => { m with globals := m.globals.set name v }
  | scope :: scopes => { m with locals := scope.set name v :: scopes }

/-- `Environment::assign` in the local scopes; `none` when no scope has the name. -/
def assignLocals (name : Bytes) (v : Value) : List Env → Option (List Env)
  | [] => none
  | scope :: scopes =>
    if (scope name).isSome then some (scope.set name v :: scopes)
    else (assignLocals name v scopes).map (scope :: ·)

/-- An assignment: the innermost scope with the name, else a definition. -/
def Machine.assign (m : Machine) (name : Bytes) (v : Value) : Machine :=
  match assignLocals name v m.locals with
  | some locals => { m with locals := locals }
  | none => if (m.globals name).isSome then { m with globals := m.globals.set name v } else m.define name v

/-- An assignment leaves the store. -/
@[simp] theorem Machine.assign_store (m : Machine) (name : Bytes) (v : Value) :
    (m.assign name v).store = m.store := by
  unfold Machine.assign Machine.define
  split
  · rfl
  · split
    · rfl
    · split <;> rfl

/-- An assignment leaves the trace. -/
@[simp] theorem Machine.assign_trace (m : Machine) (name : Bytes) (v : Value) :
    (m.assign name v).trace = m.trace := by
  unfold Machine.assign Machine.define
  split
  · rfl
  · split
    · rfl
    · split <;> rfl

/-- Enter a scope inside the current one. -/
def Machine.push (m : Machine) : Machine := { m with locals := Env.empty :: m.locals }

/-- Leave the innermost scope. -/
def Machine.pop (m : Machine) : Machine := { m with locals := m.locals.tail }

/-- Enter a scope directly above the globals. -/
def Machine.enterGlobal (m : Machine) : Machine := { m with locals := [Env.empty] }

/-- Return to the scopes of another machine. -/
def Machine.restore (m m' : Machine) : Machine := { m' with locals := m.locals }

/-- Record an event and ask the network about it. -/
def perform {α : Type} (e : NetEvent) (answer : List NetEvent → α) : Eval α := do
  changeStore fun s => { s with history := e :: s.history }
  readStore fun s => answer s.history

/-- `Tcp::connect` on a new socket; the connection is named by the position of the event. -/
def tcpConnect (w : World) (host : Bytes) (port timeoutMs : ℤ) : Eval TcpState := do
  let connection ← readStore (·.history.length)
  let connected ← perform (.connect host port timeoutMs) w.net.connect
  return ⟨connection, connected⟩

/-- `Tcp::send`. -/
def tcpSend (w : World) (tcp : TcpState) (data : Bytes) : Eval Bool := do
  match ← perform (.send tcp.connection data) w.net.send with
  | some sent => return sent
  | none => Effect.fault .noAnswer

/-- `Tcp::receive`: at most one buffer. When nothing arrives, a negative timeout makes `poll` wait for
ever. -/
def tcpReceive (w : World) (tcp : TcpState) (timeoutMs : ℤ) : Eval Bytes := do
  match ← perform (.receive tcp.connection timeoutMs) w.net.receive with
  | some data => return data.take 4096
  | none => if timeoutMs < 0 then Effect.fault .noAnswer else return []

/-- `Tls::handshake`: `SSL_connect` and `SSL_shutdown` write to a plain socket, and with a timeout that the
socket does not take they wait for the server. -/
def tlsHandshake (w : World) (tls : Endpoint) : Eval TlsHandshakeReport := do
  match ← perform (.handshake tls.host tls.port tls.timeoutMs) w.net.handshake with
  | some report => return report
  | none => Effect.fault .noAnswer

/-- `core::current_timestamp`. -/
def currentTimestamp (w : World) : Eval ℤ := perform .clock w.net.clock

end ZeroTrust.Ztl
